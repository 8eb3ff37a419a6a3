import BoxedTypes.Proofs.FreezeSteps

/-!
# A slot keeps the first type that it is offered

Offers to a draft come from any part of a checker, in any order, and many of
them are refused. What the draft holds after all of them can still be told
without following it through: a slot holds the first type that was offered to
its kind, and nothing if only absences were (`get_slots_after`).

One equation for one offer carries this (`get_slots_set`). It needs no case for
the two refusals, because a slot is never changed by one: a filled slot keeps
what it has, an empty slot takes what it is offered, and an absent type is
nothing to take. `Option.or` is exactly that, and it is associative, so a run of
offers does to a slot what the first type among them would do alone.

An offer to one kind does not touch the slots of the others. So the draft
depends on the offers to each kind in their order and not on how the kinds take
turns, and neither does the registry that is frozen from it.
-/

namespace BoxedTypes.Draft

variable {τ : Type}

/-- A call that offers something to a slot, with its arguments. -/
inductive SetCall (τ : Type) where
  | set (k : Scalar) (offer : Option τ)
  | setNumber (ty : τ)
  | setString (ty : τ)
  | setBoolean (ty : τ)

namespace SetCall

/-- The kind whose slot is offered something. -/
def kind : SetCall τ → Scalar
  | .set k _ => k
  | .setNumber _ => .number
  | .setString _ => .string
  | .setBoolean _ => .boolean

/-- What is offered, if it is there. -/
def offer : SetCall τ → Option τ
  | .set _ offer => offer
  | .setNumber ty => some ty
  | .setString ty => some ty
  | .setBoolean ty => some ty

def run : SetCall τ → EStateM SlotError (Draft τ) Unit
  | .set k offer => Draft.set k offer
  | .setNumber ty => Draft.setNumber ty
  | .setString ty => Draft.setString ty
  | .setBoolean ty => Draft.setBoolean ty

theorem run_eq (c : SetCall τ) : c.run = Draft.set c.kind c.offer := by cases c <;> rfl

end SetCall

/-- The draft after some calls, refused ones included. -/
def after (calls : List (SetCall τ)) (d : Draft τ) : Draft τ :=
  calls.foldl (fun d c => leftBehind (c.run d)) d

/-- All that the calls offer to the slot of a kind, in order. -/
def offersTo (k : Scalar) (calls : List (SetCall τ)) : List (Option τ) :=
  (calls.filter (·.kind = k)).map SetCall.offer

variable {d : Draft τ} {k : Scalar} {offer : Option τ}

theorem after_cons (c : SetCall τ) (calls : List (SetCall τ)) (d : Draft τ) :
    after (c :: calls) d = after calls (leftBehind (c.run d)) := rfl

/-! ## One offer -/

theorem isSet_eq_false_iff : d.isSet k = false ↔ d.slots.get k = none := by
  rw [isSet, Option.isSome_eq_false_iff, Option.isNone_iff_eq_none]

theorem isSet_iff : d.isSet k = true ↔ ∃ ty, d.slots.get k = some ty :=
  Option.isSome_iff_exists

/-- A second offer is refused before it is looked at. -/
theorem set_of_isSet (h : d.isSet k = true) :
    set k offer d = .error (.alreadySet k) d := by
  obtain ⟨ty, hty⟩ := isSet_iff.mp h
  simp only [set, hty]

theorem set_absent (h : d.isSet k = false) :
    set k none d = .error (.absentInstance k) d := by
  simp only [set, isSet_eq_false_iff.mp h]

theorem set_present (h : d.isSet k = false) (ty : τ) :
    set k (some ty) d = .ok () ⟨d.slots.set k (some ty)⟩ := by
  simp only [set, isSet_eq_false_iff.mp h]

theorem set_ok_cases {d' : Draft τ}
    (h : set k offer d = .ok () d') :
    ∃ ty, offer = some ty ∧ d.slots.get k = none ∧ d' = ⟨d.slots.set k (some ty)⟩ := by
  unfold set at h
  split at h
  · cases h
  · cases h
  · next ty hslot =>
      cases h
      exact ⟨ty, rfl, hslot, rfl⟩

/-- A slot keeps what it has, and takes what it is offered if it has nothing. -/
theorem get_slots_set (k l : Scalar) (offer : Option τ) (d : Draft τ) :
    (leftBehind (set k offer d)).slots.get l =
      (d.slots.get l).or (if l = k then offer else none) := by
  cases hk : d.isSet k with
  | true =>
      rw [set_of_isSet hk, leftBehind]
      split
      · next hl =>
          obtain ⟨ty, hty⟩ := isSet_iff.mp hk
          rw [hl, hty, Option.some_or]
      · rw [Option.or_none]
  | false =>
      cases offer with
      | none => rw [set_absent hk, leftBehind, ite_self, Option.or_none]
      | some ty =>
          rw [set_present hk, leftBehind, PerScalar.get_set]
          split
          · next hl => rw [hl, isSet_eq_false_iff.mp hk, Option.none_or]
          · rw [Option.or_none]

/-! ## Many offers -/

theorem offersTo_cons (k : Scalar) (c : SetCall τ) (calls : List (SetCall τ)) :
    offersTo k (c :: calls) =
      if c.kind = k then c.offer :: offersTo k calls else offersTo k calls := by
  by_cases h : c.kind = k <;> simp [offersTo, h]

/-- A slot that is empty at first ends up with the first type that is offered to
its kind. -/
theorem get_slots_after (calls : List (SetCall τ)) (d : Draft τ) (k : Scalar) :
    (after calls d).slots.get k = (d.slots.get k).or ((offersTo k calls).findSome? id) := by
  induction calls generalizing d with
  | nil => exact (Option.or_none).symm
  | cons c calls ih =>
      rw [after_cons, ih, c.run_eq, get_slots_set, offersTo_cons, Option.or_assoc]
      congr 1
      by_cases h : c.kind = k
      · rw [if_pos h, if_pos h.symm, List.findSome?_cons]
        cases c.offer <;> rfl
      · rw [if_neg h, if_neg (Ne.symm h), Option.none_or]

theorem get_slots_after_new (calls : List (SetCall τ)) (k : Scalar) :
    (after calls new).slots.get k = (offersTo k calls).findSome? id := by
  rw [get_slots_after, new, PerScalar.get_const, Option.none_or]

theorem isSet_after_new (calls : List (SetCall τ)) (k : Scalar) :
    (after calls new).isSet k = true ↔ ∃ ty, some ty ∈ offersTo k calls := by
  rw [isSet_iff, get_slots_after_new]
  constructor
  · rintro ⟨ty, hty⟩
    obtain ⟨offer, hmem, hoffer⟩ := List.exists_of_findSome?_eq_some hty
    exact ⟨ty, hoffer ▸ hmem⟩
  · rintro ⟨ty, hmem⟩
    exact Option.isSome_iff_exists.mp (List.findSome?_isSome_iff.mpr ⟨some ty, hmem, rfl⟩)

/-- A filled slot stays as it is. -/
theorem get_slots_after_of_isSet (h : d.isSet k = true) (calls : List (SetCall τ)) :
    (after calls d).slots.get k = d.slots.get k := by
  obtain ⟨ty, hty⟩ := isSet_iff.mp h
  rw [get_slots_after, hty, Option.some_or]

theorem mem_pending : k ∈ d.pending ↔ d.isSet k = false := by
  rw [pending, List.mem_filter, Bool.not_eq_true']
  exact and_iff_right k.mem_all

theorem sorted_pending (d : Draft τ) : d.pending.Pairwise (·.index < ·.index) := by
  have hall : Scalar.all.Pairwise (·.index < ·.index) := by decide
  exact hall.filter _

/-- A call succeeds exactly if it brings a type to an empty slot. -/
theorem run_ok_iff {c : SetCall τ} :
    (∃ d', c.run d = .ok () d') ↔ d.isSet c.kind = false ∧ ∃ ty, c.offer = some ty := by
  rw [c.run_eq]
  constructor
  · rintro ⟨d', h⟩
    obtain ⟨ty, hoffer, hslot, -⟩ := set_ok_cases h
    exact ⟨isSet_eq_false_iff.mpr hslot, ty, hoffer⟩
  · rintro ⟨hunset, ty, hoffer⟩
    rw [hoffer]
    exact ⟨_, set_present hunset ty⟩

/-- What is offered to each kind, in its order, is all that matters. -/
theorem after_eq_of_offersTo {calls calls' : List (SetCall τ)}
    (h : ∀ k, offersTo k calls' = offersTo k calls) (d : Draft τ) :
    after calls' d = after calls d := by
  refine ext_slots fun k => ?_
  rw [get_slots_after, get_slots_after, h k]

/-- After any calls on a new draft each slot holds the first type that was
offered to its kind, and the next call is answered by what its slot holds. Calls
that offer the same to each kind in the same order end in the same draft, and in
the same freeze. -/
theorem first_offer_kept (calls : List (SetCall τ)) :
    let d := after calls new
    (∀ k, d.slots.get k = (offersTo k calls).findSome? id) ∧
    (∀ c : SetCall τ,
      ((∃ d', c.run d = .ok () d') ↔ d.isSet c.kind = false ∧ ∃ ty, c.offer = some ty) ∧
      (d.isSet c.kind = true → c.run d = .error (.alreadySet c.kind) d) ∧
      (d.isSet c.kind = false → c.offer = none →
        c.run d = .error (.absentInstance c.kind) d)) ∧
    (∀ k, d.isSet k = true ↔ ∃ ty, some ty ∈ offersTo k calls) ∧
    (∀ more k, d.isSet k = true →
      (after more d).isSet k = true ∧ (after more d).slots.get k = d.slots.get k) ∧
    (d.pending.Pairwise (·.index < ·.index) ∧ ∀ k, k ∈ d.pending ↔ d.isSet k = false) ∧
    ∀ calls', (∀ k, offersTo k calls' = offersTo k calls) →
      after calls' new = d ∧
      ∀ (σ : Type) [TypeSystem σ τ] (s : σ), (after calls' new).freeze s = d.freeze s := by
  intro d
  refine ⟨get_slots_after_new calls, fun c => ⟨run_ok_iff, fun hset => ?_, fun hunset hoffer => ?_⟩,
    isSet_after_new calls, fun more k hset => ?_, ⟨sorted_pending d, fun k => mem_pending⟩,
    fun calls' h => ?_⟩
  · rw [c.run_eq]
    exact set_of_isSet hset
  · rw [c.run_eq, hoffer]
    exact set_absent hunset
  · have hkept := get_slots_after_of_isSet hset more
    exact ⟨by rw [isSet, hkept]; exact hset, hkept⟩
  · have hsame : after calls' new = d := after_eq_of_offersTo h new
    exact ⟨hsame, fun σ _ s => by rw [hsame]⟩

/-- Strings are offered something before numbers are, or after; an absence comes
first or comes too late, and the last type offered is in its slot already. -/
theorem first_offer_kept_in_two_orders :
    let calls : List (SetCall Nat) :=
      [.setString 7, .set .number none, .setNumber 1, .set .number (some 2),
        .set .string none, .setBoolean 3]
    let calls' : List (SetCall Nat) :=
      [.set .number none, .setBoolean 3, .setNumber 1, .setString 7,
        .set .number (some 2), .set .string none]
    let d := after calls new
    (∀ k, offersTo k calls' = offersTo k calls) ∧
    d.slots.get .number = some 1 ∧ after calls' new = d ∧
    d.isSet .string = true ∧
      (SetCall.setString 7).run d = .error (.alreadySet .string) d := by
  intro calls calls' d
  have hoffers : ∀ k, offersTo k calls' = offersTo k calls := by
    intro k
    cases k <;> rfl
  have hset : d.isSet .string = true := rfl
  obtain ⟨hslots, hcalls, -, -, -, hsame⟩ := first_offer_kept calls
  exact ⟨hoffers, hslots .number, (hsame calls' hoffers).1, hset,
    (hcalls (.setString 7)).2.1 hset⟩

end BoxedTypes.Draft
