import BoxedTypes.Proofs.Consistency

/-!
# Freezing over a lawful table

A lawful table is ordered, and its join is a least upper bound. Nothing is said
of its unknown types: they need not be at the top, and there may be any number
of them. That the join is an upper bound makes every comparison of a freeze
hold, so no complete draft over a lawful table is refused
(`checkLaws_of_lawful`). For an unknown boxed type that rests on reflexivity,
because its composite is the bare scalar.

That the join is the least one makes the tests of the registry ideals. A test
asks whether a type is below a bound, and a join is below a bound exactly if
both its operands are (`Lawful.isBelow_join_iff`). So a value that comes from
two places passes a test exactly if what comes from each place passes it.
-/

namespace BoxedTypes

/-- The order is reflexive and transitive, and the join of two types is the
least type above both. -/
structure LatticeTable.Lawful {τ : Type} (t : LatticeTable τ) : Prop where
  refl : ∀ a, t.isBelow a a = true
  trans : ∀ a b c, t.isBelow a b = true → t.isBelow b c = true → t.isBelow a c = true
  isBelow_join_left : ∀ a b, t.isBelow a (t.join a b) = true
  isBelow_join_right : ∀ a b, t.isBelow b (t.join a b) = true
  join_isBelow : ∀ a b c, t.isBelow a c = true → t.isBelow b c = true →
    t.isBelow (t.join a b) c = true

/-- A test that always answers, is passed by some type and by all that is below
a type that passes it, and is passed by a join exactly if both operands pass
it. -/
structure TypeSystem.IsIdeal {σ τ : Type} [TypeSystem σ τ] (s : σ)
    (test : σ → τ → Except Breach Bool) : Prop where
  answers : ∀ a, ∃ x, test s a = .ok x
  inhabited : ∃ a, test s a = .ok true
  below : ∀ a b, TypeSystem.isBelow s a b = .ok true → test s b = .ok true →
    test s a = .ok true
  join : ∀ a b, ∃ c s', TypeSystem.join a b s = .ok c s' ∧
    (test s' c = .ok true ↔ test s a = .ok true ∧ test s b = .ok true)

namespace LatticeTable.Lawful

variable {τ : Type} {t : LatticeTable τ}

theorem isBelow_join_iff (ht : t.Lawful) {a b c : τ} :
    t.isBelow (t.join a b) c = true ↔ t.isBelow a c = true ∧ t.isBelow b c = true := by
  constructor
  · intro h
    exact ⟨ht.trans _ _ _ (ht.isBelow_join_left a b) h,
      ht.trans _ _ _ (ht.isBelow_join_right a b) h⟩
  · rintro ⟨ha, hb⟩
    exact ht.join_isBelow a b c ha hb

variable {boxed : PerScalar τ}

theorem scalar_isBelow_composite (ht : t.Lawful) (k : Scalar) :
    t.isBelow (t.scalar k) (t.composite boxed k) = true := by
  unfold composite
  split
  · exact ht.refl _
  · exact ht.isBelow_join_left _ _

theorem boxed_isBelow_composite (ht : t.Lawful) {k : Scalar}
    (hk : t.isUnknown (boxed.get k) = false) :
    t.isBelow (boxed.get k) (t.composite boxed k) = true := by
  rw [composite, hk, if_neg Bool.false_ne_true]
  exact ht.isBelow_join_right _ _

/-- The composite of a known boxed type is the least type above it and the
scalar. -/
theorem composite_isBelow (ht : t.Lawful) {k : Scalar} {ty : τ}
    (hk : t.isUnknown (boxed.get k) = false) (hscalar : t.isBelow (t.scalar k) ty = true)
    (hboxed : t.isBelow (boxed.get k) ty = true) :
    t.isBelow (t.composite boxed k) ty = true := by
  rw [composite, hk, if_neg Bool.false_ne_true]
  exact ht.join_isBelow _ _ ty hscalar hboxed

end LatticeTable.Lawful

namespace Consulted

variable {τ : Type} {c : Consulted τ} {boxed : PerScalar τ}

theorem checkLaws_of_lawful (ht : c.table.Lawful) :
    (c.table.registry boxed).checkLaws c = .ok () := by
  refine Registry.checkLaws_eq_ok_iff.mpr ⟨fun k => ?_, fun k hk => ?_,
    List.forall_mem_cons.mpr ⟨?_, List.forall_mem_singleton.mpr ?_⟩⟩
  · rw [LatticeTable.get_composites, isBelow_eq_true_iff]
    exact ht.scalar_isBelow_composite k
  · rw [LatticeTable.get_composites, isBelow_eq_true_iff]
    exact ht.boxed_isBelow_composite hk
  · exact isBelow_eq_true_iff.mpr (ht.isBelow_join_left _ _)
  · exact isBelow_eq_true_iff.mpr (ht.isBelow_join_right _ _)

/-- What is below a fixed type is an ideal. -/
theorem isIdeal_isBelow (ht : c.table.Lawful) (bound : τ) :
    TypeSystem.IsIdeal c fun s ty => TypeSystem.isBelow s ty bound := by
  refine ⟨fun a => ⟨_, rfl⟩, ⟨bound, isBelow_eq_true_iff.mpr (ht.refl bound)⟩,
    fun a b hab hb => ?_, fun a b => ⟨_, _, rfl, ?_⟩⟩
  · rw [isBelow_eq_true_iff] at hab hb ⊢
    exact ht.trans a b bound hab hb
  · simp only [isBelow_eq_true_iff]
    exact ht.isBelow_join_iff

/-- Over a lawful table every complete draft is frozen, each composite of a
known boxed type is the least one possible, and the tests of the registry are
ideals for good. -/
theorem freeze_lawful (c : Consulted τ) (ht : c.table.Lawful) (d : Draft τ)
    (boxed : PerScalar τ) (hd : ∀ k, d.slots.get k = some (boxed.get k)) :
    ∃ r v, d.freeze c = .ok r v ∧ r.boxed = boxed ∧
      (∀ k ty, c.table.isUnknown (boxed.get k) = false →
        c.table.isBelow (c.table.scalar k) ty = true →
        c.table.isBelow (boxed.get k) ty = true →
        c.table.isBelow (r.composites.get k) ty = true) ∧
      ∀ later : Consulted τ, later.table = c.table →
        (∀ k, TypeSystem.IsIdeal later fun s ty => r.admits s k ty) ∧
        TypeSystem.IsIdeal later fun s ty => r.admitsNumberOrString s ty := by
  have hlaws : (c.table.registry boxed).checkLaws (c.recording (c.table.asked boxed)) = .ok () :=
    checkLaws_of_lawful (c := c.recording (c.table.asked boxed)) ht
  refine ⟨_, _, freeze_of_checkLaws hd hlaws, rfl, fun k ty hk hscalar hboxed => ?_,
    fun later hlater => ?_⟩
  · rw [LatticeTable.get_composites]
    exact ht.composite_isBelow hk hscalar hboxed
  · have ht' : later.table.Lawful := by
      rw [hlater]
      exact ht
    exact ⟨fun k => isIdeal_isBelow ht' _, isIdeal_isBelow ht' _⟩

/-- Numbers ordered by divisibility, with zero at the top. One boxed type is
unknown and the two others have a factor in common. -/
theorem freeze_lawful_divisibility :
    let t : LatticeTable Nat :=
      ⟨(⟨2, 3, 5⟩ : PerScalar Nat).get, 0, (· == 0), Nat.lcm, fun a b => decide (a ∣ b),
        toString⟩
    let d : Draft Nat := ⟨⟨some 14, some 0, some 6⟩⟩
    t.Lawful ∧ (∀ k, d.slots.get k = some ((⟨14, 0, 6⟩ : PerScalar Nat).get k)) ∧
    ∃ r v, d.freeze (new t) = .ok r v ∧ r.boxed = ⟨14, 0, 6⟩ ∧
      ∀ later : Consulted Nat, later.table = t →
        TypeSystem.IsIdeal later fun s ty => r.admitsNumberOrString s ty := by
  intro t d
  have ht : t.Lawful := by
    refine ⟨fun a => ?_, fun a b c hab hbc => ?_, fun a b => ?_, fun a b => ?_,
      fun a b c hac hbc => ?_⟩
    all_goals simp only [t, decide_eq_true_eq] at *
    · exact Nat.dvd_refl a
    · exact Nat.dvd_trans hab hbc
    · exact Nat.dvd_lcm_left a b
    · exact Nat.dvd_lcm_right a b
    · exact Nat.lcm_dvd hac hbc
  have hd : ∀ k, d.slots.get k = some ((⟨14, 0, 6⟩ : PerScalar Nat).get k) := by
    intro k
    cases k <;> rfl
  obtain ⟨r, v, hfreeze, hboxed, -, hideal⟩ := freeze_lawful (new t) ht d ⟨14, 0, 6⟩ hd
  exact ⟨ht, hd, r, v, hfreeze, hboxed, fun later hlater => (hideal later hlater).2⟩

end Consulted

end BoxedTypes
