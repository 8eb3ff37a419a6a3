import BoxedTypes.Proofs.History

/-!
# What becomes of a join of any two handles

A caller can pass any two handles, issued or not, and what a join makes of them
is decided in a fixed order: equal handles first, then a missing left one, then
a missing right one, and only then the shapes. The unknown type absorbs every
other type, but it does not absorb a handle that is missing. `join_outcome` goes
through the cases in that order, and through the same ones for a comparison.

Equal handles are answered without a look at them. Where the handle is issued
this only saves time, since its shape joined with itself is the same shape,
which has the same handle. Where it is not, the long way would have reported it.
So the two ways agree exactly on the issued handles.

A join that interns makes one type out of the next handle and leaves every other
handle as it was (`Adds`). For that there has to be a next handle, so one less
than all of them may be taken.
-/

namespace BoxedTypes

namespace Shape

/-- The order of shapes in terms of their atoms. -/
theorem isBelow_iff {s t : Shape} :
    s.IsBelow t ↔
      t = .unknown ∨ ∃ as bs, s = .union as ∧ t = .union bs ∧ ∀ x ∈ as, x ∈ bs := by
  cases t with
  | unknown => exact iff_of_true (isBelow_unknown s) (.inl rfl)
  | union bs =>
      cases s with
      | unknown =>
          refine iff_of_false (not_unknown_isBelow_union bs) ?_
          rintro (h | ⟨as, bs', h, -⟩) <;> cases h
      | union as =>
          rw [union_isBelow_union]
          constructor
          · intro h
            exact .inr ⟨as, bs, rfl, rfl, h⟩
          · rintro (h | ⟨as', bs', hs, ht, h⟩)
            · cases h
            · cases hs
              cases ht
              exact h

end Shape

namespace UnionTypes

/-- The second lattice is the first one with one more type, of a shape that none
of its types had. -/
structure Adds (u v : UnionTypes) (c : TypeId) (s : Shape) : Prop where
  fresh : ∀ id, u.shape? id ≠ some s
  next : c.index.toNat = u.typeCount
  shape? : v.shape? c = some s
  others : ∀ id, id ≠ c → v.shape? id = u.shape? id
  typeCount : v.typeCount = u.typeCount + 1
  names : v.names = u.names

variable {u : UnionTypes} {a b : TypeId} {s t : Shape}

theorem Coherent.adds_intern (hu : u.Coherent) (hroom : u.typeCount < UInt32.size)
    (hfresh : ∀ id, u.shape? id ≠ some s) :
    u.Adds (u.intern s).2 (u.intern s).1 s := by
  have hf : u.shapes.find? s = none :=
    hu.shapes.find?_eq_none (Nat.le_of_lt hroom) fun h => hfresh ⟨h⟩
  have hshape : ∀ id, (u.intern s).2.shape? id =
      if id.index = (u.shapes.intern s).1 then some s else u.shape? id :=
    fun id => Pool.get?_intern_of_fresh hroom hf id.index
  refine ⟨hfresh, ?_, ?_, fun id hid => ?_, Pool.size_intern_of_fresh hf, rfl⟩
  · exact (Pool.handle_intern_of_fresh hf).trans (Nat.mod_eq_of_lt hroom)
  · rw [hshape]
    exact if_pos rfl
  · rw [hshape]
    exact if_neg fun h => hid (congrArg TypeId.mk h)

/-- Interning answers with the only handle that reads the shape. -/
theorem Coherent.shape?_intern_iff (hu : u.Coherent) (hroom : u.typeCount < UInt32.size)
    {id : TypeId} : (u.intern s).2.shape? id = some s ↔ id = (u.intern s).1 := by
  have hfit : (u.intern s).2.typeCount ≤ UInt32.size :=
    Nat.le_trans (Pool.size_intern_le u.shapes s) hroom
  have hs := hu.shape?_intern hfit
  constructor
  · intro hid
    exact ((grows_intern u s).coherent hu).shape?_inj hid hs
  · rintro rfl
    exact hs

theorem shape?_of_not_issued (h : ¬ u.Issued a) : u.shape? a = none :=
  Option.not_isSome_iff_eq_none.mp h

/-- The two ways to an answer agree for a handle and itself exactly if it is
issued. -/
theorem Coherent.byShape_self_iff (hu : u.Coherent) (a : TypeId) :
    (joinByShape a a u = join a a u ↔ u.Issued a) ∧
      (u.isBelowByShape a a = u.isBelow a a ↔ u.Issued a) := by
  have hjoin : join a a u = .ok a u := if_pos rfl
  have hbelow : u.isBelow a a = .ok true := if_pos rfl
  cases ha : u.shape? a with
  | some s =>
      have hissued : u.Issued a := issued_iff.mpr ⟨s, ha⟩
      have hslow := hu.joinByShape_eq_intern ha ha
      rw [Shape.join_self, hu.intern_of_shape? ha] at hslow
      have hslow' := isBelowByShape_eq ha ha
      rw [decide_eq_true (Shape.isBelow_refl s)] at hslow'
      exact ⟨iff_of_true (hslow.trans hjoin.symm) hissued,
        iff_of_true (hslow'.trans hbelow.symm) hissued⟩
  | none =>
      have hmissing : ¬ u.Issued a := fun h => by
        obtain ⟨s, hs⟩ := issued_iff.mp h
        cases ha.symm.trans hs
      obtain ⟨hslow, hslow'⟩ := byShape_of_missing_left (b := a) ha
      rw [hjoin, hbelow, hslow, hslow']
      exact ⟨iff_of_false nofun hmissing, iff_of_false nofun hmissing⟩

/-- The join and the comparison of any two handles, after any history that
leaves room for a type. Equal handles are not looked at; a missing handle is
reported, the left one first, and the lattice is left as it was; and types are
joined and compared by their atoms, with the unknown type on top. Taking equal
handles the long way makes a difference exactly if they are not issued. -/
theorem join_outcome (calls : List Call) (hroom : (after calls new).typeCount < UInt32.size)
    (a b : TypeId) :
    let u := after calls new
    (a = b → join a b u = .ok a u ∧ u.isBelow a b = .ok true) ∧
    (a ≠ b → ¬ u.Issued a →
      join a b u = .error (.missingType a) u ∧ u.isBelow a b = .error (.missingType a)) ∧
    (a ≠ b → u.Issued a → ¬ u.Issued b →
      join a b u = .error (.missingType b) u ∧ u.isBelow a b = .error (.missingType b)) ∧
    (∀ s t, u.shape? a = some s → u.shape? b = some t →
      (∃ c v, join a b u = .ok c v ∧
        (s = .unknown ∨ t = .unknown → c = .unknown ∧ v = u) ∧
        ∀ as bs, s = .union as → t = .union bs →
          ∃ cs, (∀ x, x ∈ cs ↔ x ∈ as ∨ x ∈ bs) ∧
            (∀ id, v.shape? id = some (.union cs) ↔ id = c) ∧
            ((∃ id, u.shape? id = some (.union cs)) → v = u) ∧
            ((∀ id, u.shape? id ≠ some (.union cs)) → u.Adds v c (.union cs))) ∧
      ∃ x, u.isBelow a b = .ok x ∧
        (x = true ↔
          t = .unknown ∨ ∃ as bs, s = .union as ∧ t = .union bs ∧ ∀ y ∈ as, y ∈ bs)) ∧
    (a ≠ b → join a b u = joinByShape a b u ∧ u.isBelow a b = u.isBelowByShape a b) ∧
    (joinByShape a a u = join a a u ↔ u.Issued a) ∧
      (u.isBelowByShape a a = u.isBelow a a ↔ u.Issued a) := by
  intro u
  have hu : u.Coherent := coherent_after calls
  refine ⟨fun hab => ⟨if_pos hab, if_pos hab⟩, fun hab ha => ?_, fun hab ha hb => ?_,
    fun s t ha hb => ⟨?_, _, isBelow_eq ha hb, ?_⟩,
    fun hab => ⟨join_of_ne hab u, isBelow_of_ne hab u⟩, hu.byShape_self_iff a⟩
  · rw [join_of_ne hab, isBelow_of_ne hab]
    exact byShape_of_missing_left (shape?_of_not_issued ha)
  · obtain ⟨s, hs⟩ := issued_iff.mp ha
    rw [join_of_ne hab, isBelow_of_ne hab]
    exact byShape_of_missing_right hs (shape?_of_not_issued hb)
  · refine ⟨_, _, hu.join_eq_intern ha hb, fun hunknown => ?_, fun as bs hs ht => ?_⟩
    · have hst : s.join t = .unknown := by
        rcases hunknown with rfl | rfl
        · exact Shape.unknown_join t
        · exact Shape.join_unknown s
      rw [hst, hu.intern_of_shape? hu.shape?_unknown]
      exact ⟨rfl, rfl⟩
    · cases hs
      cases ht
      refine ⟨as ∪ bs, fun x => AtomSet.mem_union, fun id => hu.shape?_intern_iff hroom, ?_,
        hu.adds_intern hroom⟩
      rintro ⟨id, hid⟩
      exact congrArg Prod.snd (hu.intern_of_shape? hid)
  · rw [decide_eq_true_iff]
    exact Shape.isBelow_iff

/-- A missing handle is reported though the other type is unknown, and a join
adds a type after a call that broke off. -/
theorem join_outcome_with_missing_handle :
    let calls : List Call := [.object "Number", .union [⟨5⟩, ⟨9⟩]]
    let u := after calls new
    u.typeCount < UInt32.size ∧
    (u.Issued .unknown ∧ ¬ u.Issued ⟨9⟩ ∧ join .unknown ⟨9⟩ u = .error (.missingType ⟨9⟩) u) ∧
    ∃ c v cs, join (.ofScalar .number) ⟨5⟩ u = .ok c v ∧ u.Adds v c (.union cs) := by
  intro calls
  have hu : (after calls new).Coherent := coherent_after calls
  have hcount : (after calls new).typeCount = 6 := by cbv
  have hobject : (after calls new).shape? ⟨5⟩ = some (.union {.object ⟨0⟩}) := by cbv
  have hnone : (after calls new).shapes.find? (.union ({.number} ∪ {.object ⟨0⟩})) = none := by
    cbv
  have hroom : (after calls new).typeCount < UInt32.size := by
    rw [hcount]
    decide
  have hmissing : ¬ (after calls new).Issued ⟨9⟩ := by
    rw [issued_iff_lt, hcount]
    decide
  have hfresh : ∀ id, (after calls new).shape? id ≠
      some (.union ({.number} ∪ {.object ⟨0⟩})) := by
    intro id hid
    cases hnone.symm.trans (hu.shapes.find?_of_get? hid)
  obtain ⟨-, -, hright, -⟩ := join_outcome calls hroom .unknown ⟨9⟩
  obtain ⟨-, -, -, htypes, -⟩ := join_outcome calls hroom (.ofScalar .number) ⟨5⟩
  obtain ⟨⟨c, v, hjoin, -, hatoms⟩, -⟩ := htypes _ _ (hu.shape?_ofScalar .number) hobject
  obtain ⟨cs, hmem, -, -, hadds⟩ := hatoms _ _ rfl rfl
  obtain rfl : cs = {.number} ∪ {.object ⟨0⟩} :=
    AtomSet.ext_mem fun x => (hmem x).trans AtomSet.mem_union.symm
  exact ⟨hroom, ⟨hu.issued_unknown, hmissing,
    (hright (by decide) hu.issued_unknown hmissing).1⟩, c, v, _, hjoin, hadds hfresh⟩

end UnionTypes

end BoxedTypes
