import BoxedTypes.Proofs.JoinShapes

/-!
# Histories of a lattice

A `Call` is one of the operations that can change a lattice, with its arguments.
Nothing is asked of the arguments: handles and symbols may come from anywhere,
and a call that fails is part of a history like any other, with what it left
behind as the lattice for the next one. `after` is the lattice at the end of a
history.

Each call only grows the lattice, so every lattice with a history is coherent
(`coherent_after`), and a lattice later in a history has all that an earlier one
had (`grows_after`). It also has no fewer types: a bound on the number of types
at the end of a history is a bound throughout.

The second half is about the handles that calls answer with. A join looks at
both its handles unless they are equal, so with that one exception an answer is
an issued handle (`Call.issued_of_run`). A union never meets the exception,
because it starts at the bottom type, and a freeze does not either, because it
starts at the scalars.
-/

namespace BoxedTypes

namespace Registry

variable {τ : Type}

/-- All types that a registry holds. -/
def types (r : Registry τ) : List τ :=
  r.boxed.toList ++ r.composites.toList ++ [r.numberOrString]

theorem boxed_mem_types (r : Registry τ) (k : Scalar) : r.boxed.get k ∈ r.types :=
  List.mem_append_left _ (List.mem_append_left _ (List.mem_map_of_mem k.mem_all))

theorem composite_mem_types (r : Registry τ) (k : Scalar) : r.composites.get k ∈ r.types :=
  List.mem_append_left _ (List.mem_append_right _ (List.mem_map_of_mem k.mem_all))

theorem numberOrString_mem_types (r : Registry τ) : r.numberOrString ∈ r.types :=
  List.mem_append_right _ List.mem_cons_self

end Registry

namespace UnionTypes

/-- An operation that can change a lattice. -/
inductive Call where
  | intern (s : Shape)
  | atom (a : Atom)
  | null
  | undefined
  | object (name : String)
  | join (a b : TypeId)
  | union (members : List TypeId)
  | freeze (d : Draft TypeId)
  | ofDeclarations (decls : Declarations TypeId) (c : Settings)

/-- An operation that never fails, answering with one handle. -/
def answering (f : UnionTypes → TypeId × UnionTypes) :
    EStateM FreezeError UnionTypes (List TypeId) := fun u =>
  let (id, u) := f u
  .ok [id] u

/-- Makes a call, for all the handles that it answers with. -/
def Call.run : Call → EStateM FreezeError UnionTypes (List TypeId)
  | .intern s => answering (·.intern s)
  | .atom a => answering (·.atom a)
  | .null => answering (·.null)
  | .undefined => answering (·.undefined)
  | .object name => answering (·.object name)
  | .join a b => EStateM.adaptExcept .breach (List.singleton <$> UnionTypes.join a b)
  | .union members =>
    EStateM.adaptExcept .breach (List.singleton <$> UnionTypes.union members)
  | .freeze d => Registry.types <$> d.freeze
  | .ofDeclarations decls c => Registry.types <$> Registry.ofDeclarations decls c

/-- The lattice at the end of a history. -/
def after (calls : List Call) (u : UnionTypes) : UnionTypes :=
  calls.foldl (fun u c => leftBehind (c.run u)) u

theorem after_cons (c : Call) (calls : List Call) (u : UnionTypes) :
    after (c :: calls) u = after calls (leftBehind (c.run u)) := rfl

theorem after_append (earlier later : List Call) (u : UnionTypes) :
    after (earlier ++ later) u = after later (after earlier u) :=
  List.foldl_append

theorem after_of_run {c : Call} {earlier later : List Call} {u v : UnionTypes}
    {ids : List TypeId} (h : c.run (after earlier u) = .ok ids v) :
    after (earlier ++ c :: later) u = after later v := by
  rw [after_append, after_cons, h, leftBehind]

theorem onlyGrows_answering {f : UnionTypes → TypeId × UnionTypes}
    (hf : ∀ u : UnionTypes, u.Grows (f u).2) : OnlyGrows (answering f) := hf

theorem onlyGrows_run (c : Call) : OnlyGrows c.run := by
  cases c with
  | intern s => exact onlyGrows_answering fun u => grows_intern u s
  | atom a => exact onlyGrows_answering fun u => grows_intern u _
  | null => exact onlyGrows_answering fun u => grows_intern u _
  | undefined => exact onlyGrows_answering fun u => grows_intern u _
  | object name => exact onlyGrows_answering fun u => grows_object u name
  | join a b => exact ((onlyGrows_join a b).map _).adaptExcept _
  | union members => exact ((onlyGrows_union members).map _).adaptExcept _
  | freeze d => exact (onlyGrows_freeze d).map _
  | ofDeclarations decls c => exact (onlyGrows_ofDeclarations decls c).map _

theorem grows_after (calls : List Call) (u : UnionTypes) : u.Grows (after calls u) := by
  induction calls generalizing u with
  | nil => exact Grows.refl u
  | cons c calls ih =>
      rw [after_cons]
      exact (onlyGrows_run c u).trans (ih _)

/-- What an answered call leaves behind grows into the lattice at the end. -/
theorem grows_of_run {c : Call} {calls earlier later : List Call} {u v : UnionTypes}
    {ids : List TypeId} (hcalls : calls = earlier ++ c :: later)
    (h : c.run (after earlier u) = .ok ids v) : v.Grows (after calls u) := by
  rw [hcalls, after_of_run h]
  exact grows_after later v

theorem coherent_after (calls : List Call) : (after calls new).Coherent :=
  (grows_after calls new).coherent coherent_new

/-! ## The handles in the answers -/

section Answers

variable {u v : UnionTypes} {a b c : TypeId}

theorem Coherent.issued_of_join (hu : u.Coherent) (hab : a ≠ b ∨ u.Issued a)
    (h : join a b u = .ok c v) (hfit : v.typeCount ≤ UInt32.size) : v.Issued c := by
  rcases hu.join_ok_cases h with ⟨rfl, hnone, rfl, rfl⟩ | ⟨s, t, -, -, hint⟩
  · rcases hab with hne | hc
    · exact absurd rfl hne
    · exact hc
  · have hissued := hu.issued_intern (s := s.join t)
    rw [hint] at hissued
    exact hissued hfit

theorem Coherent.issued_right_of_join (hu : u.Coherent) (ha : u.Issued a)
    (h : join a b u = .ok c v) : u.Issued b := by
  rcases hu.join_ok_cases h with ⟨rfl, -, -, -⟩ | ⟨s, t, -, hb, -⟩
  · exact ha
  · exact issued_iff.mpr ⟨t, hb⟩

/-- The induction goes along the members: what has been joined so far is an
issued type, so the next join is not the exception. -/
theorem Coherent.issued_of_foldlM_join (hu : u.Coherent) {members : List TypeId}
    (ha : u.Issued a) (h : members.foldlM join a u = .ok c v)
    (hfit : v.typeCount ≤ UInt32.size) : v.Issued c := by
  induction members generalizing a u with
  | nil =>
      cases h
      exact ha
  | cons m members ih =>
      rw [List.foldlM_cons] at h
      obtain ⟨b, w, hjoin, hrest⟩ := bind_ok_cases h
      have hw := (OnlyGrows.foldlM onlyGrows_join members b).of_ok hrest
      have huw := (onlyGrows_join a m).of_ok hjoin
      have hb : w.Issued b :=
        hu.issued_of_join (.inr ha) hjoin (Nat.le_trans hw.typeCount_le hfit)
      exact ih (huw.coherent hu) hb hrest

theorem Coherent.issued_of_composite (hu : u.Coherent) {k : Scalar} {boxed : TypeId}
    (h : Registry.composite k boxed u = .ok c v) (hfit : v.typeCount ≤ UInt32.size) :
    v.Issued boxed ∧ v.Issued c := by
  have hk : u.Issued (.ofScalar k) := hu.issued_ofScalar k
  unfold Registry.composite at h
  split at h
  · next hunknown =>
      cases h
      have hboxed : boxed = .unknown := of_decide_eq_true hunknown
      rw [hboxed]
      exact ⟨hu.issued_unknown, hk⟩
  · change join (.ofScalar k) boxed u = .ok c v at h
    have huv := (onlyGrows_join _ _).of_ok h
    exact ⟨huv.issued (hu.issued_right_of_join hk h),
      hu.issued_of_join (.inr hk) h hfit⟩

theorem Coherent.issued_of_derive (hu : u.Coherent) {boxed : PerScalar TypeId}
    {r : Registry TypeId} (h : Registry.derive boxed u = .ok r v)
    (hfit : v.typeCount ≤ UInt32.size) : ∀ id ∈ r.types, v.Issued id := by
  unfold Registry.derive at h
  obtain ⟨number, u₁, h₁, h⟩ := bind_ok_cases h
  obtain ⟨string, u₂, h₂, h⟩ := bind_ok_cases h
  obtain ⟨boolean, u₃, h₃, h⟩ := bind_ok_cases h
  obtain ⟨numberOrString, u₄, h₄, h⟩ := bind_ok_cases h
  cases h
  have g₁ := (onlyGrows_composite _ _).of_ok h₁
  have g₂ := (onlyGrows_composite _ _).of_ok h₂
  have g₃ := (onlyGrows_composite _ _).of_ok h₃
  have g₄ := (onlyGrows_join _ _).of_ok h₄
  have hu₁ := g₁.coherent hu
  have hu₂ := g₂.coherent hu₁
  have hu₃ := g₃.coherent hu₂
  have fit₃ := Nat.le_trans g₄.typeCount_le hfit
  have fit₂ := Nat.le_trans g₃.typeCount_le fit₃
  have fit₁ := Nat.le_trans g₂.typeCount_le fit₂
  obtain ⟨hnb, hn⟩ := hu.issued_of_composite h₁ fit₁
  obtain ⟨hsb, hs⟩ := hu₁.issued_of_composite h₂ fit₂
  obtain ⟨hbb, hb⟩ := hu₂.issued_of_composite h₃ fit₃
  have hns : v.Issued numberOrString :=
    hu₃.issued_of_join (.inr (g₃.issued (g₂.issued hn))) h₄ hfit
  have g₂₄ := g₃.trans g₄
  have g₁₄ := g₂.trans g₂₄
  simp only [Registry.types, PerScalar.toList, Scalar.all, PerScalar.get, List.map_cons,
    List.map_nil, List.cons_append, List.nil_append, List.forall_mem_cons,
    List.not_mem_nil, false_implies, implies_true, and_true]
  exact ⟨g₁₄.issued hnb, g₂₄.issued hsb, g₄.issued hbb,
    g₁₄.issued hn, g₂₄.issued hs, g₄.issued hb, hns⟩

theorem Coherent.issued_of_freeze (hu : u.Coherent) {d : Draft TypeId}
    {r : Registry TypeId} (h : d.freeze u = .ok r v) (hfit : v.typeCount ≤ UInt32.size) :
    ∀ id ∈ r.types, v.Issued id := by
  obtain ⟨boxed, -, hderive, -⟩ := Draft.freeze_eq_ok_iff.mp h
  exact hu.issued_of_derive hderive hfit

theorem ofDeclarations_ok_cases {decls : Declarations TypeId} {c : Settings}
    {r : Registry TypeId} (h : Registry.ofDeclarations decls c u = .ok r v) :
    ∃ d : Draft TypeId, d.freeze u = .ok r v := by
  unfold Registry.ofDeclarations at h
  split at h
  · cases h
  · next d _ => exact ⟨d, h⟩

/-- Every handle in an answer is issued, but for the join of a handle that is
not issued with itself. -/
theorem Coherent.issued_of_run (hu : u.Coherent) {call : Call} {ids : List TypeId}
    (h : call.run u = .ok ids v) (hfit : v.typeCount ≤ UInt32.size) :
    ∀ id ∈ ids, v.Issued id ∨ (call = .join id id ∧ ¬ u.Issued id) := by
  intro id hid
  have hintern : ∀ {w : UnionTypes} {s : Shape}, w.Coherent →
      (w.intern s).2.typeCount ≤ UInt32.size → id ∈ [(w.intern s).1] →
      (w.intern s).2.Issued id := by
    intro w s hw hw' hmem
    rw [List.mem_singleton.mp hmem]
    exact hw.issued_intern hw'
  cases call with
  | intern s | atom a | null | undefined =>
      cases h
      exact .inl (hintern hu hfit hid)
  | object name =>
      cases h
      have hw : UnionTypes.Coherent { u with names := (u.names.declare name).2 } :=
        ⟨hu.shapes, hu.starts⟩
      exact .inl (hintern hw hfit hid)
  | join a b =>
      obtain ⟨c, hjoin, rfl⟩ := map_ok_cases (adaptExcept_ok_cases h)
      rw [List.mem_singleton.mp hid]
      by_cases hab : a ≠ b ∨ u.Issued a
      · exact .inl (hu.issued_of_join hab hjoin hfit)
      · obtain ⟨hne, ha⟩ := not_or.mp hab
        obtain rfl := Decidable.not_not.mp hne
        rw [UnionTypes.join, if_pos rfl] at hjoin
        cases hjoin
        exact .inr ⟨rfl, ha⟩
  | union members =>
      obtain ⟨c, hunion, rfl⟩ := map_ok_cases (adaptExcept_ok_cases h)
      rw [List.mem_singleton.mp hid]
      exact .inl (hu.issued_of_foldlM_join hu.issued_bottom hunion hfit)
  | freeze d =>
      obtain ⟨r, hfreeze, rfl⟩ := map_ok_cases h
      exact .inl (hu.issued_of_freeze hfreeze hfit id hid)
  | ofDeclarations decls c =>
      obtain ⟨r, hr, rfl⟩ := map_ok_cases h
      obtain ⟨d, hfreeze⟩ := ofDeclarations_ok_cases hr
      exact .inl (hu.issued_of_freeze hfreeze hfit id hid)

end Answers

/-! ## The invariant of interning -/

theorem issued_of_history {calls earlier later : List Call} {call : Call}
    (hfit : (after calls new).typeCount ≤ UInt32.size) (hcalls : calls = earlier ++ call :: later)
    {ids : List TypeId} {v : UnionTypes} (hrun : call.run (after earlier new) = .ok ids v) :
    ∀ id ∈ ids, v.Issued id ∨ (call = .join id id ∧ ¬ (after earlier new).Issued id) := by
  exact (coherent_after earlier).issued_of_run hrun
    (Nat.le_trans (grows_of_run hcalls hrun).typeCount_le hfit)

/-- After any history, with no more types than handles, the two containers are
inverse to each other on exactly the handles below the number of types, the
first five are the built-in types, and every answer given on the way was a
handle issued by then. -/
theorem interning_invariant (calls : List Call)
    (hfit : (after calls new).typeCount ≤ UInt32.size) :
    let u := after calls new
    (∀ i, i < u.typeCount ↔ ∃ id, id.index.toNat = i ∧ u.Issued id) ∧
    (∀ id, u.Issued id ↔ ∃ s, u.intern s = (id, u)) ∧
    (∀ s id, u.shapes.find? s = some id.index ↔ u.shape? id = some s) ∧
    (∀ id id', u.Issued id → u.shape? id = u.shape? id' → id = id') ∧
    (u.shape? ⟨0⟩ = some .unknown ∧ u.shape? ⟨1⟩ = some (.union ∅) ∧
      u.shape? ⟨2⟩ = some (.union {.number}) ∧ u.shape? ⟨3⟩ = some (.union {.string}) ∧
      u.shape? ⟨4⟩ = some (.union {.boolean})) ∧
    (∀ id, id.isBuiltin = true ↔
      u.shape? id ∈ [Shape.unknown, .union ∅, .union {.number}, .union {.string},
        .union {.boolean}].map some) ∧
    (∀ earlier call later ids v, calls = earlier ++ call :: later →
      call.run (after earlier new) = .ok ids v →
      ∀ id ∈ ids, v.Issued id ∨
        (call = .join id id ∧ ¬ (after earlier new).Issued id)) ∧
    ∀ id, (Call.join id id).run u = .ok [id] u := by
  intro u
  have hu : u.Coherent := coherent_after calls
  refine ⟨lt_typeCount_iff hfit, fun id => hu.issued_iff_intern hfit,
    fun s id => hu.find?_eq_some_iff hfit, fun id id' hid heq => ?_,
    ⟨hu.shape?_unknown, hu.shape?_bottom, hu.shape?_ofScalar .number,
      hu.shape?_ofScalar .string, hu.shape?_ofScalar .boolean⟩,
    fun id => ?_, fun _ _ _ _ _ hcalls hrun => issued_of_history hfit hcalls hrun,
    fun id => ?_⟩
  · obtain ⟨s, hs⟩ := issued_iff.mp hid
    exact hu.shape?_inj hs (heq ▸ hs)
  · rw [hu.isBuiltin_iff]
    constructor
    · rintro ⟨s, hs, hid⟩
      rw [hid]
      exact List.mem_map_of_mem hs
    · intro hmem
      obtain ⟨s, hs, hid⟩ := List.mem_map.mp hmem
      exact ⟨s, hs, hid.symm⟩
  · have hjoin : UnionTypes.join id id u = .ok id u := if_pos rfl
    exact adaptExcept_of_ok (map_of_ok hjoin)

/-- A union that fails at its third member leaves the join of the first two
behind, interned like any other type. -/
theorem interning_invariant_after_failed_union :
    let u := after [.object "Number", .union [⟨2⟩, ⟨5⟩, ⟨99⟩]] new
    u.typeCount ≤ UInt32.size ∧
      ∀ s id, u.shapes.find? s = some id.index ↔ u.shape? id = some s :=
  ⟨by cbv, (interning_invariant [.object "Number", .union [⟨2⟩, ⟨5⟩, ⟨99⟩]] (by cbv)).2.2.1⟩

end UnionTypes

end BoxedTypes
