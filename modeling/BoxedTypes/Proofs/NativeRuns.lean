import BoxedTypes.Proofs.DeclaredTypes
import BoxedTypes.Proofs.Groupings
import BoxedTypes.Proofs.Permanence
import BoxedTypes.Proofs.RegistryText

/-!
# A lattice never breaks on what it gave out itself

A breach means that a caller has mixed up lattices or has made up a handle or a
symbol. A run of calls is native if no call does that: each handle that is
passed was issued by then, and each symbol written into a shape or an atom
occurs in a type that was declared by name. In a native run nothing ends in a
breach, no call and no reading, whatever the order (`native_run_answers`).

Two invariants carry it. The lattice is coherent, so an issued handle has a
shape and a join of issued handles is an issued handle; this is what keeps a
union going from member to member and a freeze from composite to composite. And
each symbol in a type has a name (`Named`), so each type can be shown. There has
to be room for the types, because the checks of a freeze compare a composite
with its parts, and one whose handle was cut down to an earlier one can fail
them. The names need no room: a symbol that was cut down has an earlier name.
-/

namespace BoxedTypes

namespace UnionTypes

/-- The handles that a call is given. -/
def Call.handles : Call → List TypeId
  | .join a b => [a, b]
  | .union members => members
  | .freeze d => d.slots.toList.filterMap id
  | .ofDeclarations decls _ => decls.entries.map Prod.snd
  | _ => []

/-- A call leaves no slot of a registry empty. -/
def Call.Complete (u : UnionTypes) : Call → Prop
  | .freeze d => d.pending = []
  | .ofDeclarations decls c => ∀ k, ∃ ty, c.offer u decls k = some ty
  | _ => True

/-- The symbol occurs in a type that one of the calls got by declaring a
class. -/
def Declares (calls : List Call) (symbol : Symbol) : Prop :=
  ∃ earlier name later id v s, calls = earlier ++ .object name :: later ∧
    (Call.object name).run (after earlier new) = .ok [id] v ∧
    v.shape? id = some s ∧ s.Mentions symbol

/-- The call is given nothing but what the calls before it have got. -/
structure Call.IsNative (c : Call) (earlier : List Call) : Prop where
  handles : ∀ id ∈ c.handles, (after earlier new).Issued id
  symbols : ∀ symbol, c.Mentions symbol → Declares earlier symbol

/-- A run of native calls. -/
inductive Native : List Call → Prop
  | nil : Native []
  | snoc {calls : List Call} {c : Call} :
    Native calls → c.IsNative calls → Native (calls ++ [c])

variable {u v : UnionTypes} {calls : List Call} {c : Call}

/-! ## Calls -/

theorem Call.mem_handles_freeze {d : Draft TypeId} {k : Scalar} {id : TypeId}
    (h : d.slots.get k = some id) : id ∈ (Call.freeze d).handles :=
  List.mem_filterMap.mpr ⟨some id, h ▸ List.mem_map_of_mem k.mem_all, rfl⟩

theorem Coherent.exists_run (hu : u.Coherent) (hids : ∀ id ∈ c.handles, u.Issued id)
    (hc : c.Complete u) (hfit : (leftBehind (c.run u)).typeCount ≤ UInt32.size) :
    ∃ ids v, c.run u = .ok ids v := by
  cases c with
  | intern s | atom a | null | undefined | object name => exact ⟨_, _, rfl⟩
  | join a b =>
      obtain ⟨s, hs⟩ := issued_iff.mp (hids a (by simp [Call.handles]))
      obtain ⟨t, ht⟩ := issued_iff.mp (hids b (by simp [Call.handles]))
      obtain ⟨_, _, hjoin, -⟩ := hu.join_ok hs ht
      exact ⟨_, _, adaptExcept_of_ok (map_of_ok hjoin)⟩
  | union members =>
      rw [Call.run, leftBehind_adaptExcept, leftBehind_map] at hfit
      obtain ⟨_, _, _, hunion, -⟩ := (joins_union members).ok u hu hids hfit
      exact ⟨_, _, adaptExcept_of_ok (map_of_ok hunion)⟩
  | freeze d =>
      rw [Call.run, leftBehind_map] at hfit
      obtain ⟨boxed, hd⟩ := Draft.pending_eq_nil_iff.mp hc
      obtain ⟨_, _, hfreeze⟩ :=
        hu.exists_freeze hd (fun k => hids _ (Call.mem_handles_freeze (hd k))) hfit
      exact ⟨_, _, map_of_ok hfreeze⟩
  | ofDeclarations decls c =>
      rw [Call.run, leftBehind_map] at hfit
      obtain ⟨boxed, hboxed⟩ := PerScalar.exists_get hc
      obtain ⟨d, hslots, hfreeze⟩ :=
        Registry.ofDeclarations_of_offers fun k => Option.ne_none_iff_exists'.mpr (hc k)
      have hd : ∀ k, d.slots.get k = some (boxed.get k) := fun k => (hslots k).trans (hboxed k)
      rw [hfreeze] at hfit
      have hissued : ∀ k, u.Issued (boxed.get k) := by
        intro k
        rcases Settings.offer_cases (hboxed k) with hmem | hunknown
        · exact hids _ hmem
        · rw [hunknown]
          exact hu.issued_unknown
      obtain ⟨_, _, hok⟩ := hu.exists_freeze hd hissued hfit
      exact ⟨_, _, map_of_ok (hfreeze.trans hok)⟩

/-- What a call can still be refused for is an empty slot, and then it changes
nothing. -/
theorem run_of_not_complete (hc : ¬ c.Complete u) : ∃ e, c.run u = .error (.slot e) u := by
  cases c with
  | intern _ | atom _ | null | undefined | object _ | join _ _ | union _ => exact absurd trivial hc
  | freeze d =>
      obtain ⟨k, hk⟩ : ∃ k, d.pending.head? = some k := by
        cases hpending : d.pending with
        | nil => exact absurd hpending hc
        | cons k ks => exact ⟨k, rfl⟩
      exact ⟨_, map_of_error (Draft.freeze_of_pending hk)⟩
  | ofDeclarations decls c =>
      obtain ⟨l, hl⟩ := not_forall.mp hc
      obtain ⟨k, hk⟩ := Scalar.exists_isFirst (P := fun k => c.offer u decls k = none)
        (Option.eq_none_iff_forall_ne_some.mpr (not_exists.mp hl))
      exact ⟨_, map_of_error (Registry.ofDeclarations_of_isFirst hk)⟩

/-! ## Readings -/

/-- The lattice answers every reading of the types that it has issued, and each
symbol in them has a name. -/
structure Serves (u : UnionTypes) : Prop where
  isBelow : ∀ a b, u.Issued a → u.Issued b → ∃ x, u.isBelow a b = .ok x
  display : ∀ id, u.Issued id → ∃ text, u.display id = .ok text
  objectName : ∀ id s symbol, u.shape? id = some s → s.Mentions symbol →
    ∃ name, u.objectName symbol = .ok name
  admits : ∀ r : Registry TypeId, (∀ id ∈ r.types, u.Issued id) →
    ∀ k ty, u.Issued ty → ∃ x, r.admits u k ty = .ok x
  admitsNumberOrString : ∀ r : Registry TypeId, (∀ id ∈ r.types, u.Issued id) →
    ∀ ty, u.Issued ty → ∃ x, r.admitsNumberOrString u ty = .ok x
  dump : ∀ r : Registry TypeId, (∀ id ∈ r.types, u.Issued id) → ∃ text, r.dump u = .ok text

theorem exists_isBelow {a b : TypeId} (ha : u.Issued a) (hb : u.Issued b) :
    ∃ x, u.isBelow a b = .ok x := by
  obtain ⟨s, hs⟩ := issued_iff.mp ha
  obtain ⟨t, ht⟩ := issued_iff.mp hb
  exact ⟨_, isBelow_eq hs ht⟩

theorem exists_objectName {symbol : Symbol} (h : u.names.Knows symbol) :
    ∃ name, u.objectName symbol = .ok name := by
  obtain ⟨name, hname⟩ := Option.isSome_iff_exists.mp h
  exact ⟨name, Names.resolve_eq_ok_iff.mpr hname⟩

theorem exists_dump {r : Registry TypeId}
    (h : ∀ id ∈ r.types, ∃ text, u.display id = .ok text) : ∃ text, r.dump u = .ok text := by
  obtain ⟨_, hshown⟩ := Registry.exists_shownBy (s := u) h
  exact ⟨_, hshown.dump⟩

theorem Named.serves (hu : u.Named) : u.Serves where
  isBelow _ _ := exists_isBelow
  display _ := hu.exists_display
  objectName id s symbol hs hm := exists_objectName (hu.knows id s symbol hs hm)
  admits r hr k _ hty := exists_isBelow hty (hr _ (r.composite_mem_types k))
  admitsNumberOrString r hr _ hty := exists_isBelow hty (hr _ r.numberOrString_mem_types)
  dump _ hr := exists_dump fun id hid => hu.exists_display (hr id hid)

/-! ## Native runs -/

theorem Declares.knows {symbol : Symbol} (h : Declares calls symbol)
    (hu : (after calls new).Named) : (after calls new).names.Knows symbol := by
  obtain ⟨earlier, name, later, id, v, s, hcalls, hrun, hs, hm⟩ := h
  exact hu.knows id s symbol ((grows_of_run hcalls hrun).shape? hs) hm

namespace Native

theorem named (h : Native calls) : (after calls new).Named := by
  induction h with
  | nil => exact named_new
  | snoc _ hc ih =>
      rw [after_append]
      exact ih.run fun symbol hsymbol => (hc.symbols symbol hsymbol).knows ih

theorem isNative (h : Native calls) {earlier later : List Call}
    (hcalls : calls = earlier ++ c :: later) : c.IsNative earlier := by
  induction h generalizing later with
  | nil => simp at hcalls
  | @snoc calls c' _ hc ih =>
      rcases List.eq_nil_or_concat later with rfl | ⟨later, last, rfl⟩
      · obtain ⟨rfl, hlast⟩ := List.append_inj' hcalls rfl
        cases hlast
        exact hc
      · rw [List.concat_eq_append, ← List.cons_append, ← List.append_assoc] at hcalls
        exact ih (List.append_inj' hcalls rfl).1

theorem issued_of_run (h : Native calls) (hfit : (after calls new).typeCount ≤ UInt32.size)
    {earlier later : List Call} (hcalls : calls = earlier ++ c :: later) {ids : List TypeId}
    (hrun : c.run (after earlier new) = .ok ids v) : ∀ id ∈ ids, (after calls new).Issued id := by
  intro id hid
  rcases issued_of_history hfit hcalls hrun id hid with hissued | ⟨rfl, hnot⟩
  · exact (grows_of_run hcalls hrun).issued hissued
  · exact absurd ((h.isNative hcalls).handles id List.mem_cons_self) hnot

end Native

/-- In a native run every call answers, with handles that can be passed on, or
is refused for an empty slot. The lattice answers every reading of its types,
and each symbol that a declaration brought in has a name. -/
theorem native_run_answers (calls : List Call) (hnative : Native calls)
    (hfit : (after calls new).typeCount ≤ UInt32.size) :
    let u := after calls new
    u.Serves ∧
    (∀ symbol, Declares calls symbol → ∃ name, u.objectName symbol = .ok name) ∧
    ∀ earlier c later, calls = earlier ++ c :: later →
      (c.Complete (after earlier new) →
        ∃ ids v, c.run (after earlier new) = .ok ids v ∧ ∀ id ∈ ids, u.Issued id) ∧
      (¬ c.Complete (after earlier new) →
        ∃ e, c.run (after earlier new) = .error (.slot e) (after earlier new)) := by
  refine ⟨hnative.named.serves, fun symbol hsymbol => ?_, fun earlier c later hcalls => ?_⟩
  · exact exists_objectName (hsymbol.knows hnative.named)
  · refine ⟨fun hc => ?_, run_of_not_complete⟩
    have hgrows : (leftBehind (c.run (after earlier new))).Grows (after calls new) := by
      rw [hcalls, after_append, after_cons]
      exact grows_after later _
    obtain ⟨ids, v, hrun⟩ := (coherent_after earlier).exists_run
      (hnative.isNative hcalls).handles hc (Nat.le_trans hgrows.typeCount_le hfit)
    exact ⟨ids, v, hrun, hnative.issued_of_run hfit hcalls hrun⟩

/-- A symbol is taken from a declared class into a shape, a union interns types
on its way, and a freeze is given what came of it. -/
theorem native_run_answers_with_borrowed_symbol :
    let d : Draft TypeId := ⟨⟨some ⟨5⟩, some ⟨8⟩, some .unknown⟩⟩
    let earlier : List Call :=
      [.object "Number", .intern (.union (.ofList [.object ⟨0⟩, .null])),
        .union [⟨5⟩, .ofScalar .string, ⟨6⟩]]
    let calls := earlier ++ [.freeze d]
    Native calls ∧ (after calls new).typeCount ≤ UInt32.size ∧ (after calls new).Serves ∧
      ∃ ids v, (Call.freeze d).run (after earlier new) = .ok ids v := by
  intro d earlier calls
  have hobject : Call.IsNative (.object "Number") [] :=
    ⟨fun _ h => absurd h List.not_mem_nil, fun _ h => h.elim⟩
  have hintern : Call.IsNative (.intern (.union (.ofList [.object ⟨0⟩, .null])))
      [.object "Number"] := by
    refine ⟨fun _ h => absurd h List.not_mem_nil, fun symbol hsymbol => ?_⟩
    obtain ⟨as, has, hmem⟩ := hsymbol
    cases has
    rcases List.mem_cons.mp (AtomSet.mem_ofList.mp hmem) with hfirst | hnull
    · cases hfirst
      exact ⟨[], "Number", [], ⟨5⟩, leftBehind ((Call.object "Number").run new),
        .atom (.object ⟨0⟩), rfl, by cbv, by cbv, _, rfl, AtomSet.mem_singleton.mpr rfl⟩
    · cases List.mem_singleton.mp hnull
  have hunion : Call.IsNative (.union [⟨5⟩, .ofScalar .string, ⟨6⟩])
      [.object "Number", .intern (.union (.ofList [.object ⟨0⟩, .null]))] := by
    refine ⟨List.forall_mem_cons.mpr ⟨by cbv, List.forall_mem_cons.mpr ⟨?_,
      List.forall_mem_singleton.mpr (by cbv)⟩⟩, fun _ h => h.elim⟩
    exact (coherent_after _).issued_ofScalar .string
  have hfreeze : Call.IsNative (.freeze d) earlier := by
    refine ⟨List.forall_mem_cons.mpr ⟨by cbv, List.forall_mem_cons.mpr ⟨by cbv,
      List.forall_mem_singleton.mpr ?_⟩⟩, fun _ h => h.elim⟩
    exact (coherent_after _).issued_unknown
  have hnative : Native calls :=
    (((Native.nil.snoc hobject).snoc hintern).snoc hunion).snoc hfreeze
  have hfit : (after calls new).typeCount ≤ UInt32.size := by cbv
  obtain ⟨hserves, -, hcalls⟩ := native_run_answers calls hnative hfit
  obtain ⟨ids, v, hrun, -⟩ := (hcalls earlier (.freeze d) [] rfl).1 rfl
  exact ⟨hnative, hfit, hserves, ids, v, hrun⟩

end UnionTypes

end BoxedTypes
