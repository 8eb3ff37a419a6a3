import BoxedTypes.Proofs.History

/-!
# The types of a lattice are ordered, and join is their least upper bound

The shapes form a lattice with no handles in sight. This file carries its laws
over to the handles of a `UnionTypes`, where two things are different. Equality
is equality of handles, so antisymmetry rests on every shape having one handle.
And a join changes the lattice that it is asked of, so it cannot be compared
with the order before it: `IsLeastUpperBound` speaks of the lattice after the
join and, as far as the bounds above both types go, of every lattice that comes
after that one, because a bound may be interned only then.

The order itself holds in a lattice of any size. Only the join needs room: the
handle of a shape that was just interned has to be read back.
-/

namespace BoxedTypes.UnionTypes

/-- The subtype test answers on all types of the lattice, and its answers are a
partial order with a least and a greatest type. -/
structure IsOrdered (u : UnionTypes) : Prop where
  total : ∀ a b, u.Issued a → u.Issued b → ∃ x, u.isBelow a b = .ok x
  refl : ∀ a, u.Issued a → u.isBelow a a = .ok true
  trans : ∀ a b c, u.Issued a → u.Issued b → u.Issued c →
    u.isBelow a b = .ok true → u.isBelow b c = .ok true → u.isBelow a c = .ok true
  antisymm : ∀ a b, u.Issued a → u.Issued b →
    u.isBelow a b = .ok true → u.isBelow b a = .ok true → a = b
  bottom_least : ∀ a, u.Issued a → u.isBelow .bottom a = .ok true
  unknown_greatest : ∀ a, u.Issued a → u.isBelow a .unknown = .ok true

/-- One type is above two others, and below every type that is above both now or
after any further calls. -/
structure IsLeastUpperBound (u : UnionTypes) (a b c : TypeId) : Prop where
  issued : u.Issued c
  left : u.isBelow a c = .ok true
  right : u.isBelow b c = .ok true
  least : ∀ calls d, (after calls u).Issued d →
    (after calls u).isBelow a d = .ok true → (after calls u).isBelow b d = .ok true →
    (after calls u).isBelow c d = .ok true

variable {u : UnionTypes}

theorem Coherent.isOrdered (hu : u.Coherent) : u.IsOrdered := by
  refine ⟨fun a b ha hb => ?_, fun a _ => if_pos rfl, fun a b c ha hb hc hab hbc => ?_,
    fun a b ha hb hab hba => ?_, fun a ha => ?_, fun a ha => ?_⟩
  · obtain ⟨s, hs⟩ := issued_iff.mp ha
    obtain ⟨t, ht⟩ := issued_iff.mp hb
    exact ⟨_, isBelow_eq hs ht⟩
  · obtain ⟨s, hs⟩ := issued_iff.mp ha
    obtain ⟨t, ht⟩ := issued_iff.mp hb
    obtain ⟨r, hr⟩ := issued_iff.mp hc
    rw [isBelow_eq_true_iff hs ht] at hab
    rw [isBelow_eq_true_iff ht hr] at hbc
    exact (isBelow_eq_true_iff hs hr).mpr (hab.trans hbc)
  · obtain ⟨s, hs⟩ := issued_iff.mp ha
    obtain ⟨t, ht⟩ := issued_iff.mp hb
    rw [isBelow_eq_true_iff hs ht] at hab
    rw [isBelow_eq_true_iff ht hs] at hba
    obtain rfl := hab.antisymm hba
    exact hu.shape?_inj hs ht
  · obtain ⟨s, hs⟩ := issued_iff.mp ha
    rw [isBelow_eq_true_iff hu.shape?_bottom hs]
    exact Shape.bottom_isBelow s
  · obtain ⟨s, hs⟩ := issued_iff.mp ha
    rw [isBelow_eq_true_iff hs hu.shape?_unknown]
    exact Shape.isBelow_unknown s

/-- A type whose shape is the join of two shapes is the least upper bound of the
types with those shapes. -/
theorem isLeastUpperBound_of_shape? {a b c : TypeId} {s t : Shape}
    (ha : u.shape? a = some s) (hb : u.shape? b = some t)
    (hc : u.shape? c = some (s.join t)) : u.IsLeastUpperBound a b c := by
  refine ⟨issued_iff.mpr ⟨_, hc⟩, ?_, ?_, fun calls d hd had hbd => ?_⟩
  · exact (isBelow_eq_true_iff ha hc).mpr (Shape.isBelow_join_left s t)
  · exact (isBelow_eq_true_iff hb hc).mpr (Shape.isBelow_join_right s t)
  · have hgrows := grows_after calls u
    obtain ⟨r, hr⟩ := issued_iff.mp hd
    rw [isBelow_eq_true_iff (hgrows.shape? ha) hr] at had
    rw [isBelow_eq_true_iff (hgrows.shape? hb) hr] at hbd
    exact (isBelow_eq_true_iff (hgrows.shape? hc) hr).mpr
      (Shape.join_isBelow_iff.mpr ⟨had, hbd⟩)

/-- After any history the types are ordered. The join of two of them is their
least upper bound, and it is the second of them, with nothing interned, exactly
if the first is below it. -/
theorem lattice_laws (calls : List Call) :
    let u := after calls new
    u.IsOrdered ∧
    ∀ a b, u.Issued a → u.Issued b → (leftBehind (join a b u)).typeCount ≤ UInt32.size →
      ∃ c v, join a b u = .ok c v ∧ v.IsLeastUpperBound a b c ∧
        (u.isBelow a b = .ok true ↔ c = b) ∧ (c = b → v = u) := by
  intro u
  have hu : u.Coherent := coherent_after calls
  refine ⟨hu.isOrdered, fun a b ha hb hfit => ?_⟩
  obtain ⟨s, hs⟩ := issued_iff.mp ha
  obtain ⟨t, ht⟩ := issued_iff.mp hb
  have hjoin := hu.join_eq_intern hs ht
  rw [hjoin] at hfit
  have hgrows := grows_intern u (s.join t)
  have hc := hu.shape?_intern hfit
  have hbelow : s.IsBelow t ↔ (u.intern (s.join t)).1 = b := by
    rw [← Shape.join_eq_right_iff]
    constructor
    · intro h
      rw [h, hu.intern_of_shape? ht]
    · intro h
      rw [h] at hc
      exact Option.some.inj (hc.symm.trans (hgrows.shape? ht))
  refine ⟨_, _, hjoin, isLeastUpperBound_of_shape? (hgrows.shape? hs) (hgrows.shape? ht) hc,
    (isBelow_eq_true_iff hs ht).trans hbelow, fun h => ?_⟩
  rw [Shape.join_eq_right_iff.mpr (hbelow.mpr h), hu.intern_of_shape? ht]

/-- A join that interns a type after a call that broke off. -/
theorem lattice_laws_after_failed_union :
    let u := after [.object "Number", .union [.ofScalar .number, ⟨9⟩]] new
    u.Issued (.ofScalar .number) ∧ u.Issued ⟨5⟩ ∧
    ∃ c v, join (.ofScalar .number) ⟨5⟩ u = .ok c v ∧
      v.IsLeastUpperBound (.ofScalar .number) ⟨5⟩ c :=
  have hn : (after [.object "Number", .union [.ofScalar .number, ⟨9⟩]] new).Issued
      (.ofScalar .number) := (coherent_after _).issued_ofScalar _
  have ho : (after [.object "Number", .union [.ofScalar .number, ⟨9⟩]] new).Issued ⟨5⟩ := by
    cbv
  have ⟨c, v, hjoin, hlub, _⟩ := (lattice_laws _).2 _ _ hn ho (by cbv)
  ⟨hn, ho, c, v, hjoin, hlub⟩

end BoxedTypes.UnionTypes
