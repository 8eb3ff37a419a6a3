import BoxedTypes.Proofs.Admission
import BoxedTypes.Proofs.DeclaredNames
import BoxedTypes.Proofs.Permanence

/-!
# Classes are known by their names

A class is looked up in two steps, from the name to its symbol and from the
symbol to the type of its objects, and different calls fill the two tables.
Anyone can intern a shape with a symbol in it, also one that no name has got
yet. Names are another matter: they are declared and nothing else is done to
them (`names_run`), so the names of a lattice are those of a run of declarations
(`names_after`). The first step succeeds exactly for the names that were
declared, and since a declaration goes on to intern the type of the symbol, the
second step succeeds whenever the first one does, whoever interned that type
first.

What a declaration answers with is therefore what a look-up answers with ever
after (`lookup_of_object`), and two declarations can be compared by looking both
names up in one lattice. There the name can be read back from the type. That is
where the room for types and for names comes in: without it a handle or a symbol
might have been cut down to an earlier one, and two classes would be one.

A join has the atoms of its operands and no others. So the type of a class
cannot be come by with joins from types without its atom.
-/

namespace BoxedTypes.UnionTypes

variable {u v w : UnionTypes} {a b c id : TypeId} {name : String}
  {calls earlier later : List Call}

/-! ## The names of a lattice -/

theorem preserves_names_join (names : Names) (a b : TypeId) :
    Preserves (fun u : UnionTypes => u.names = names) (join a b) := by
  intro u hu
  unfold join
  split
  · exact hu
  · split <;> exact hu

/-- Only a declaration adds a name. -/
theorem names_run (call : Call) (u : UnionTypes) :
    (leftBehind (call.run u)).names =
      match call with
      | .object name => (u.names.declare name).2
      | _ => u.names := by
  have hjoin := preserves_names_join u.names
  cases call with
  | intern s | atom a | null | undefined | object name => rfl
  | join a b => exact ((hjoin a b).map _).adaptExcept _ u rfl
  | union members => exact ((Preserves.foldlM hjoin members _).map _).adaptExcept _ u rfl
  | freeze d => exact (d.preserves_freeze hjoin).map _ u rfl
  | ofDeclarations decls c => exact (Registry.preserves_ofDeclarations hjoin decls c).map _ u rfl

/-- The class that a call declares, if it declares one. -/
def Call.declared? : Call → Option String
  | .object name => some name
  | _ => none

/-- The classes that a history declares, in the order of their first
declarations. -/
def classes (calls : List Call) : List String := (calls.filterMap Call.declared?).eraseDups

theorem mem_declared_iff : name ∈ calls.filterMap Call.declared? ↔ .object name ∈ calls := by
  rw [List.mem_filterMap]
  constructor
  · intro h
    obtain ⟨call, hmem, hname⟩ := h
    cases call <;> cases hname
    exact hmem
  · intro hmem
    exact ⟨.object name, hmem, rfl⟩

/-- The names of a lattice are declared one after the other on the way to it. -/
theorem names_after (calls : List Call) (u : UnionTypes) :
    (after calls u).names = Names.declareAll (calls.filterMap Call.declared?) u.names := by
  induction calls generalizing u with
  | nil => rfl
  | cons call calls ih =>
      rw [after_cons, ih, names_run]
      cases call with
      | object name => rfl
      | intern _ | atom _ | null | undefined | join _ _ | union _ | freeze _
      | ofDeclarations _ _ => rfl

theorem names_after_new (calls : List Call) :
    (after calls new).names = Names.declareAll (calls.filterMap Call.declared?) .empty :=
  names_after calls new

theorem isSome_find?_names_after_new (calls : List Call) (name : String) :
    ((after calls new).names.find? name).isSome ↔ .object name ∈ calls := by
  rw [names_after_new, Names.isSome_find?_declareAll_empty, mem_declared_iff]

theorem coherent_names_after (calls : List Call) : (after calls new).names.Coherent := by
  rw [names_after_new]
  exact Names.coherent_declareAll _

/-- Every name that a symbol has was declared. -/
theorem mem_of_objectName {symbol : Symbol} (h : (after calls new).objectName symbol = .ok name) :
    .object name ∈ calls := by
  rw [objectName, names_after_new] at h
  exact mem_declared_iff.mp (Names.mem_of_resolve h)

theorem values_names_after_new (calls : List Call) :
    (after calls new).names.values.toList = classes calls := by
  rw [names_after_new]
  exact Names.values_declareAll _

/-! ## Looking a class up -/

theorem lookup_eq_some_iff :
    u.lookup name = some id ↔
      ∃ symbol, u.names.find? name = some symbol ∧
        u.shapes.find? (.atom (.object ⟨symbol⟩)) = some id.index := by
  obtain ⟨index⟩ := id
  simp [lookup, Names.symbol?, Option.bind_eq_some_iff]

theorem mem_of_lookup (h : (after calls new).lookup name = some id) : .object name ∈ calls := by
  obtain ⟨symbol, hsymbol, -⟩ := lookup_eq_some_iff.mp h
  exact (isSome_find?_names_after_new calls name).mp (Option.isSome_of_eq_some hsymbol)

/-- A declared class is found under the handle that its declaration answered
with. -/
theorem lookup_of_object (h : (u.object name).2.Grows v) :
    v.lookup name = some (u.object name).1 := by
  refine h.lookup (lookup_eq_some_iff.mpr ⟨(u.names.intern name).1, ?_, ?_⟩)
  · exact Pool.find?_intern u.names name
  · exact Pool.find?_intern u.shapes _

theorem lookup_after_object (hcalls : calls = earlier ++ .object name :: later) :
    (after calls new).lookup name = some ((after earlier new).object name).1 := by
  rw [hcalls, after_append, after_cons]
  exact lookup_of_object (grows_after later _)

/-- A class that was declared is declared again for nothing. -/
theorem object_after_object (hcalls : calls = earlier ++ .object name :: later)
    (more : List Call) :
    (after more (after calls new)).object name =
      (((after earlier new).object name).1, after more (after calls new)) := by
  rw [hcalls, after_append, after_cons]
  exact object_of_grows ((grows_after later _).trans (grows_after more _))

/-- Within the limits the type of a class has the atom of the class alone, and
the name can be read back from that. -/
theorem shape?_of_lookup (htypes : (after calls new).typeCount ≤ UInt32.size)
    (hnames : (after calls new).names.size ≤ UInt32.size)
    (h : (after calls new).lookup name = some id) :
    ∃ symbol, (after calls new).shape? id = some (.atom (.object symbol)) ∧
      (after calls new).objectName symbol = .ok name := by
  obtain ⟨symbol, hsymbol, hid⟩ := lookup_eq_some_iff.mp h
  refine ⟨⟨symbol⟩, ((coherent_after calls).find?_eq_some_iff htypes).mp hid, ?_⟩
  have hname := ((coherent_names_after calls).find?_eq_some_iff hnames).mp hsymbol
  exact Names.resolve_eq_ok_iff.mpr hname

theorem name_eq_of_lookup {other : String}
    (htypes : (after calls new).typeCount ≤ UInt32.size)
    (hnames : (after calls new).names.size ≤ UInt32.size)
    (h : (after calls new).lookup name = some id)
    (hother : (after calls new).lookup other = some id) : name = other := by
  obtain ⟨symbol, hshape, hname⟩ := shape?_of_lookup htypes hnames h
  obtain ⟨symbol', hshape', hname'⟩ := shape?_of_lookup htypes hnames hother
  cases hshape.symm.trans hshape'
  cases hname.symm.trans hname'
  rfl

/-! ## Atoms of a join -/

/-- A join of types has no atom that neither of them has, then and later. -/
theorem Coherent.hasAtom_of_join {x : Atom} (hu : u.Coherent) (ha : u.Issued a)
    (hjoin : join a b u = .ok c v) (hvw : v.Grows w) (hfit : w.typeCount ≤ UInt32.size)
    (h : w.HasAtom c x) : u.HasAtom a x ∨ u.HasAtom b x := by
  rcases hu.join_ok_cases hjoin with ⟨-, hnone, -, -⟩ | ⟨s, t, hs, ht, hint⟩
  · obtain ⟨s, hs⟩ := issued_iff.mp ha
    cases hnone.symm.trans hs
  · have hc := hu.shape?_intern (s := s.join t)
    rw [hint] at hc
    have hshape := hvw.shape? (hc (Nat.le_trans hvw.typeCount_le hfit))
    obtain ⟨cs, hcs, hx⟩ := h
    have heq : s.join t = .union cs := Option.some.inj (hshape.symm.trans hcs)
    cases s with
    | unknown => cases (Shape.unknown_join t).symm.trans heq
    | union as =>
        cases t with
        | unknown => cases heq
        | union bs =>
            cases heq
            rw [hasAtom_iff hs, hasAtom_iff ht]
            exact AtomSet.mem_union.mp hx

/-- After any history a class is found exactly if it was declared, under the
handle that all its declarations have answered with and will answer with.
Declarations of different classes answer with different handles. The type of a
class has the atom of the class alone, with its name behind it. No join of types
without that atom is the type of the class, whichever call it is part of, before
the class was declared or after. -/
theorem objects_nominal (calls : List Call)
    (htypes : (after calls new).typeCount ≤ UInt32.size)
    (hnames : (after calls new).names.size ≤ UInt32.size) :
    let u := after calls new
    (∀ name, (∃ id, u.lookup name = some id) ↔ .object name ∈ calls) ∧
    (∀ name id, u.lookup name = some id →
      (∀ earlier later, calls = earlier ++ .object name :: later →
        ((after earlier new).object name).1 = id) ∧
      (∀ more, (after more u).object name = (id, after more u)) ∧
      ∃ symbol, u.shape? id = some (.atom (.object symbol)) ∧ u.objectName symbol = .ok name ∧
        ∀ more w a b c v, (after more u).typeCount ≤ UInt32.size →
          new.Grows w → join a b w = .ok c v → v.Grows (after more u) →
          w.Issued a → ¬ w.HasAtom a (.object symbol) → ¬ w.HasAtom b (.object symbol) →
          c ≠ id) ∧
    ∀ earlier name later earlier' name' later', calls = earlier ++ .object name :: later →
      calls = earlier' ++ .object name' :: later' →
      (((after earlier new).object name).1 = ((after earlier' new).object name').1 ↔
        name = name') := by
  intro u
  refine ⟨fun name => ⟨?_, fun hmem => ?_⟩, fun name id hid => ⟨fun earlier later hcalls => ?_,
    fun more => ?_, ?_⟩, fun earlier name later earlier' name' later' hcalls hcalls' => ?_⟩
  · rintro ⟨id, hid⟩
    exact mem_of_lookup hid
  · obtain ⟨earlier, later, hcalls⟩ := List.append_of_mem hmem
    exact ⟨_, lookup_after_object hcalls⟩
  · exact Option.some.inj ((lookup_after_object hcalls).symm.trans hid)
  · obtain ⟨earlier, later, hcalls⟩ := List.append_of_mem (mem_of_lookup hid)
    rw [object_after_object hcalls more,
      Option.some.inj ((lookup_after_object hcalls).symm.trans hid)]
  · obtain ⟨symbol, hshape, hname⟩ := shape?_of_lookup htypes hnames hid
    refine ⟨symbol, hshape, hname, fun more w a b c v hfit hw hjoin hvu ha hna hnb => ?_⟩
    rintro rfl
    -- What was answered keeps its shape, so it had the atom when it was joined.
    have hatom : (after more u).HasAtom c (.object symbol) :=
      ⟨_, (grows_after more u).shape? hshape, AtomSet.mem_singleton.mpr rfl⟩
    rcases (hw.coherent coherent_new).hasAtom_of_join ha hjoin hvu hfit hatom with h | h
    · exact hna h
    · exact hnb h
  · have hlookup := lookup_after_object hcalls
    have hlookup' := lookup_after_object hcalls'
    constructor
    · intro heq
      rw [← heq] at hlookup'
      exact name_eq_of_lookup htypes hnames hlookup hlookup'
    · rintro rfl
      exact Option.some.inj (hlookup.symm.trans hlookup')

/-- A symbol is put into a type before it has a name. The second class gets that
symbol and with it that type, and a join made between the two declarations is
another one. -/
theorem objects_nominal_borrowed_symbol :
    let earlier : List Call := [.atom (.object ⟨1⟩), .object "Number"]
    let calls := earlier ++ [.join (.ofScalar .number) (.ofScalar .string), .object "String"]
    let u := after calls new
    u.typeCount ≤ UInt32.size ∧ u.names.size ≤ UInt32.size ∧ u.lookup "String" = some ⟨5⟩ ∧
    u.object "String" = (⟨5⟩, u) ∧
    (∃ symbol, u.shape? ⟨5⟩ = some (.atom (.object symbol)) ∧
      u.objectName symbol = .ok "String") ∧
    ∃ c v, join (.ofScalar .number) (.ofScalar .string) (after earlier new) = .ok c v ∧
      c ≠ ⟨5⟩ := by
  intro earlier calls u
  have htypes : (after calls new).typeCount ≤ UInt32.size := by cbv
  have hnames : (after calls new).names.size ≤ UInt32.size := by cbv
  have hlookup : (after calls new).lookup "String" = some ⟨5⟩ := by cbv
  have hjoin : join (.ofScalar .number) (.ofScalar .string) (after earlier new) =
      .ok ⟨7⟩ (leftBehind (join (.ofScalar .number) (.ofScalar .string) (after earlier new))) := by
    cbv
  obtain ⟨-, hclass, -⟩ := objects_nominal calls htypes hnames
  obtain ⟨-, hagain, symbol, hshape, hname, hnojoin⟩ := hclass "String" ⟨5⟩ hlookup
  have hrun : (Call.join (.ofScalar .number) (.ofScalar .string)).run (after earlier new) =
      .ok [⟨7⟩] _ := adaptExcept_of_ok (map_of_ok hjoin)
  have hgrows := grows_after [.object "String"]
    (leftBehind (join (.ofScalar .number) (.ofScalar .string) (after earlier new)))
  rw [← after_of_run hrun] at hgrows
  have hw := coherent_after earlier
  have hlacks : ∀ k : Scalar, ¬ (after earlier new).HasAtom (.ofScalar k) (.object symbol) := by
    intro k hatom
    rw [hasAtom_iff (hw.shape?_ofScalar k), AtomSet.mem_singleton] at hatom
    cases k with
    | number | string | boolean => cases hatom
  exact ⟨htypes, hnames, hlookup, hagain [], ⟨symbol, hshape, hname⟩, _, _, hjoin,
    hnojoin [] _ _ _ _ _ htypes (grows_after earlier new) hjoin hgrows (hw.issued_ofScalar .number)
      (hlacks .number) (hlacks .string)⟩

end BoxedTypes.UnionTypes
