import BoxedTypes.Pool

/-!
# The two containers of a pool agree

A pool answers from two containers, and neither is ever rebuilt from the other.
What ties them together is `Coherent`: the values stand at distinct places, and
the handle kept for a value is its place taken as a 32-bit word. Both halves
hold of a pool of any size, also of one that has outgrown its handles, because
they speak of places and not of handles.

The bound `2 ^ 32` enters only when a handle is read back. Up to it a place is
its own handle, and from there the containers are inverse to each other
(`find?_eq_some_iff`): handles stand for values, and equal handles are equal
values. In the other direction nothing needs the bound. A value that some handle
reads is found again under that very handle (`intern_of_get?`), since the place
that it reads is the only one that the value has.

`Grows` is the one way in which a pool changes: by interning. Every operation
above a pool is a run of such steps, so whatever one step keeps is kept by all
of them.
-/

namespace BoxedTypes.Pool

variable {α : Type} [BEq α] [Hashable α] {p : Pool α} {a : α}

/-- Each value has one place, and the handle kept for it is that place. -/
structure Coherent (p : Pool α) : Prop where
  find?_iff : ∀ a h,
    p.find? a = some h ↔ ∃ i : Nat, p.values[i]? = some a ∧ h = UInt32.ofNat i
  distinct : ∀ (i j : Nat) a,
    p.values[i]? = some a → p.values[j]? = some a → i = j

theorem coherent_empty [LawfulBEq α] : (empty : Pool α).Coherent := by
  refine ⟨fun a h => ?_, fun i j a hi _ => ?_⟩
  · simp [empty, find?]
  · simp [empty] at hi

theorem get?_eq_some_iff {h : UInt32} :
    p.get? h = some a ↔ p.values[h.toNat]? = some a := Iff.rfl

theorem lt_size_of_getElem? {i : Nat} (h : p.values[i]? = some a) : i < p.size :=
  (Array.getElem?_eq_some_iff.mp h).1

theorem isSome_get?_iff {h : UInt32} : (p.get? h).isSome ↔ h.toNat < p.size := by
  rw [get?, size, isSome_getElem?]

theorem getElem?_intern_of_fresh (hf : p.find? a = none) (i : Nat) :
    (p.intern a).2.values[i]? = if i = p.size then some a else p.values[i]? := by
  rw [intern_of_fresh hf, Array.getElem?_push]
  rfl

theorem getElem?_intern {b : α} {i : Nat} (a : α) (hb : p.values[i]? = some b) :
    (p.intern a).2.values[i]? = some b := by
  cases hf : p.find? a with
  | some h => rw [intern_of_find?_eq_some hf]; exact hb
  | none =>
      have hlt := lt_size_of_getElem? hb
      rw [getElem?_intern_of_fresh hf, if_neg (by omega)]
      exact hb

theorem size_intern_le (p : Pool α) (a : α) : (p.intern a).2.size ≤ p.size + 1 := by
  cases hf : p.find? a with
  | some h =>
      rw [intern_of_find?_eq_some hf]
      exact Nat.le_succ _
  | none => exact Nat.le_of_eq (size_intern_of_fresh hf)

theorem Coherent.not_mem_of_fresh (hp : p.Coherent) (hf : p.find? a = none) (i : Nat) :
    p.values[i]? ≠ some a := by
  intro hi
  have := (hp.find?_iff a _).mpr ⟨i, hi, rfl⟩
  rw [hf] at this
  cases this

theorem Coherent.find?_eq_none_iff (hp : p.Coherent) : p.find? a = none ↔ a ∉ p.values := by
  rw [Array.mem_iff_getElem?]
  constructor
  · intro hf h
    obtain ⟨i, hi⟩ := h
    exact hp.not_mem_of_fresh hf i hi
  · intro h
    cases hf : p.find? a with
    | none => rfl
    | some k =>
        obtain ⟨i, hi, -⟩ := (hp.find?_iff a k).mp hf
        exact absurd ⟨i, hi⟩ h

theorem Coherent.intern [LawfulBEq α] (hp : p.Coherent) (a : α) :
    (p.intern a).2.Coherent := by
  cases hf : p.find? a with
  | some h => rw [intern_of_find?_eq_some hf]; exact hp
  | none =>
      refine ⟨fun b h => ?_, fun i j b hi hj => ?_⟩
      · rw [find?_intern_of_fresh hf]
        simp only [getElem?_intern_of_fresh hf]
        by_cases hab : a = b
        · -- The new value: its only place is the end.
          subst hab
          rw [if_pos (beq_self_eq_true a)]
          constructor
          · intro he
            cases he
            exact ⟨p.size, by rw [if_pos rfl], rfl⟩
          · rintro ⟨i, hi, rfl⟩
            split at hi
            · next he => rw [he]
            · exact absurd hi (hp.not_mem_of_fresh hf i)
        · rw [if_neg (by simpa using hab), hp.find?_iff]
          constructor
          · rintro ⟨i, hi, rfl⟩
            have hlt := lt_size_of_getElem? hi
            exact ⟨i, by rw [if_neg (by omega)]; exact hi, rfl⟩
          · rintro ⟨i, hi, rfl⟩
            split at hi
            · exact absurd (Option.some.inj hi) hab
            · exact ⟨i, hi, rfl⟩
      · rw [getElem?_intern_of_fresh hf] at hi hj
        split at hi <;> split at hj
        · next hie hje => rw [hie, hje]
        · cases hi
          exact absurd hj (hp.not_mem_of_fresh hf j)
        · cases hj
          exact absurd hi (hp.not_mem_of_fresh hf i)
        · exact hp.distinct i j b hi hj

/-! ## Handles and values -/

/-- A value that a handle reads is interned under that handle already. -/
theorem Coherent.find?_of_get? (hp : p.Coherent) {h : UInt32} (ha : p.get? h = some a) :
    p.find? a = some h :=
  (hp.find?_iff a h).mpr ⟨h.toNat, ha, UInt32.ofNat_toNat.symm⟩

theorem Coherent.intern_of_get? (hp : p.Coherent) {h : UInt32} (ha : p.get? h = some a) :
    p.intern a = (h, p) :=
  intern_of_find?_eq_some (hp.find?_of_get? ha)

theorem Coherent.get?_inj (hp : p.Coherent) {h k : UInt32} (hh : p.get? h = some a)
    (hk : p.get? k = some a) : h = k :=
  UInt32.toNat_inj.mp (hp.distinct _ _ a hh hk)

/-- Up to the limit of the handles the two containers are inverse to each
other. -/
theorem Coherent.find?_eq_some_iff (hp : p.Coherent) (hfit : p.size ≤ UInt32.size)
    {h : UInt32} : p.find? a = some h ↔ p.get? h = some a := by
  refine ⟨fun hf => ?_, hp.find?_of_get?⟩
  obtain ⟨i, hi, rfl⟩ := (hp.find?_iff a h).mp hf
  have hlt := lt_size_of_getElem? hi
  rw [get?_eq_some_iff, UInt32.toNat_ofNat_of_lt' (by omega)]
  exact hi

theorem find?_intern [LawfulBEq α] (p : Pool α) (a : α) :
    (p.intern a).2.find? a = some (p.intern a).1 := by
  cases hf : p.find? a with
  | some h => rw [intern_of_find?_eq_some hf]; exact hf
  | none =>
      rw [find?_intern_of_fresh hf, if_pos (beq_self_eq_true a), intern_of_fresh hf]

theorem isSome_find?_intern [LawfulBEq α] (p : Pool α) (a b : α) :
    ((p.intern a).2.find? b).isSome ↔ (p.find? b).isSome ∨ b = a := by
  by_cases hab : b = a
  · subst hab
    rw [find?_intern]
    exact iff_of_true rfl (.inr rfl)
  · cases hf : p.find? a with
    | some h => rw [intern_of_find?_eq_some hf, or_iff_left hab]
    | none => rw [find?_intern_of_fresh hf, if_neg (by simpa using Ne.symm hab), or_iff_left hab]

/-- Within the limit the handle that interning answers with reads the value. -/
theorem Coherent.get?_intern [LawfulBEq α] (hp : p.Coherent)
    (hfit : (p.intern a).2.size ≤ UInt32.size) :
    (p.intern a).2.get? (p.intern a).1 = some a :=
  ((hp.intern a).find?_eq_some_iff hfit).mp (find?_intern p a)

/-- Within the limit a value that no handle reads has not been interned. -/
theorem Coherent.find?_eq_none (hp : p.Coherent) (hfit : p.size ≤ UInt32.size)
    (ha : ∀ h, p.get? h ≠ some a) : p.find? a = none := by
  cases hf : p.find? a with
  | none => rfl
  | some h => exact absurd ((hp.find?_eq_some_iff hfit).mp hf) (ha h)

/-- While there is room a new value is read by its own handle and no other
handle is affected. -/
theorem get?_intern_of_fresh (hroom : p.size < UInt32.size) (hf : p.find? a = none)
    (h : UInt32) :
    (p.intern a).2.get? h = if h = (p.intern a).1 then some a else p.get? h := by
  have hnext : (p.intern a).1.toNat = p.size := by
    rw [handle_intern_of_fresh hf, Nat.mod_eq_of_lt hroom]
  rw [get?, getElem?_intern_of_fresh hf]
  by_cases hh : h = (p.intern a).1
  · rw [if_pos hh, if_pos (by rw [hh, hnext])]
  · have hne : h.toNat ≠ p.size := fun heq => hh (UInt32.toNat_inj.mp (heq.trans hnext.symm))
    rw [if_neg hh, if_neg hne, get?]

/-! ## Growth -/

/-- The second pool comes from the first by interning some values. -/
inductive Grows (p : Pool α) : Pool α → Prop where
  | refl : Grows p p
  | intern {q : Pool α} (a : α) : Grows p q → Grows p (q.intern a).2

namespace Grows

variable {q r : Pool α}

theorem trans (hpq : p.Grows q) (hqr : q.Grows r) : p.Grows r := by
  induction hqr with
  | refl => exact hpq
  | intern a _ ih => exact ih.intern a

theorem size_le (h : p.Grows q) : p.size ≤ q.size := by
  induction h with
  | refl => exact Nat.le_refl _
  | intern a _ ih => exact Nat.le_trans ih (size_le_size_intern _ a)

theorem getElem? (h : p.Grows q) {i : Nat} {a : α} (ha : p.values[i]? = some a) :
    q.values[i]? = some a := by
  induction h with
  | refl => exact ha
  | intern b _ ih => exact getElem?_intern b ih

theorem get? (h : p.Grows q) {k : UInt32} {a : α} (ha : p.get? k = some a) :
    q.get? k = some a := h.getElem? ha

theorem find? [LawfulBEq α] (h : p.Grows q) {a : α} {k : UInt32} (ha : p.find? a = some k) :
    q.find? a = some k := by
  induction h with
  | refl => exact ha
  | @intern q b _ ih =>
      cases hf : q.find? b with
      | some _ => rw [intern_of_find?_eq_some hf]; exact ih
      | none =>
          have hne : ¬ (b == a) = true := by
            intro hba
            rw [eq_of_beq hba, ih] at hf
            cases hf
          rw [find?_intern_of_fresh hf, if_neg hne]
          exact ih

theorem coherent [LawfulBEq α] (h : p.Grows q) (hp : p.Coherent) : q.Coherent := by
  induction h with
  | refl => exact hp
  | intern a _ ih => exact ih.intern a

end Grows

end BoxedTypes.Pool
