import BoxedTypes.Proofs.FreezeTable

/-!
# A registry that passed its checks is consistent

The tests of a registry have to agree with each other and with the order of the
types, whatever lattice they were frozen from: a number is number-or-string,
what is below a number is a number, and the scalars and the known boxed types
are found where they belong. `Registry.Consistent` is that agreement. It speaks
of the tests and the order alone, and says nothing of joins.

The checks of a freeze ask for less, one comparison for each fact and none for
each type. Transitivity makes up the difference (`consistent_of_checkLaws`), and
it is all that has to be known of the lattice. Its join may be wrong and its
order may leave types incomparable to themselves. In the other direction
reflexivity is enough: then each comparison is itself one of the tests
(`checkLaws_of_consistent`), so over an order that is both the checks let
through the consistent registries and no others.
-/

namespace BoxedTypes

namespace Registry

variable {σ τ : Type} [TypeSystem σ τ]

/-- The tests of a registry agree with each other and with the order of
types. -/
structure Consistent (r : Registry τ) (s : σ) : Prop where
  admitsNumberOrString : ∀ k ∈ [Scalar.number, .string], ∀ ty,
    r.admits s k ty = .ok true → r.admitsNumberOrString s ty = .ok true
  admits_below : ∀ k a b, TypeSystem.isBelow s a b = .ok true →
    r.admits s k b = .ok true → r.admits s k a = .ok true
  admitsNumberOrString_below : ∀ a b, TypeSystem.isBelow s a b = .ok true →
    r.admitsNumberOrString s b = .ok true → r.admitsNumberOrString s a = .ok true
  admits_scalar : ∀ k, r.admits s k (TypeSystem.scalar s k) = .ok true
  admitsNumberOrString_scalar : ∀ k ∈ [Scalar.number, .string],
    r.admitsNumberOrString s (TypeSystem.scalar s k) = .ok true
  admits_boxed : ∀ k, TypeSystem.isUnknown s (r.boxed.get k) = false →
    r.admits s k (r.boxed.get k) = .ok true

variable {r : Registry τ} {s : σ}

theorem consistent_of_checkLaws
    (htrans : ∀ a b c : τ, TypeSystem.isBelow s a b = .ok true →
      TypeSystem.isBelow s b c = .ok true → TypeSystem.isBelow s a c = .ok true)
    (h : r.checkLaws s = .ok ()) : r.Consistent s := by
  obtain ⟨hscalar, hboxed, hunion⟩ := checkLaws_eq_ok_iff.mp h
  exact {
    admitsNumberOrString := fun k hk ty hty => htrans ty _ _ hty (hunion k hk)
    admits_below := fun k a b hab hb => htrans a b _ hab hb
    admitsNumberOrString_below := fun a b hab hb => htrans a b _ hab hb
    admits_scalar := hscalar
    admitsNumberOrString_scalar := fun k hk => htrans _ _ _ (hscalar k) (hunion k hk)
    admits_boxed := hboxed }

/-- A composite that is below itself passes the test of its own kind, and so it
passes the wider one. -/
theorem checkLaws_of_consistent (hrefl : ∀ a : τ, TypeSystem.isBelow s a a = .ok true)
    (h : r.Consistent s) : r.checkLaws s = .ok () :=
  checkLaws_eq_ok_iff.mpr ⟨h.admits_scalar, h.admits_boxed,
    fun k hk => h.admitsNumberOrString k hk _ (hrefl _)⟩

end Registry

/-! ## Over a table -/

namespace Consulted

variable {τ : Type} {c : Consulted τ} {d : Draft τ} {r : Registry τ}

/-- The joins on record have no part in the tests. -/
theorem consistent_of_table_eq {later : Consulted τ} (h : later.table = c.table)
    (hr : r.Consistent c) : r.Consistent later := by
  obtain ⟨t, joins⟩ := c
  obtain ⟨t', joins'⟩ := later
  cases h
  exact { hr with }

theorem isBelow_eq_true_iff {a b : τ} :
    TypeSystem.isBelow c a b = .ok true ↔ c.table.isBelow a b = true :=
  ⟨fun h => Except.ok.inj h, fun h => congrArg Except.ok h⟩

/-- A freeze over a table derives the registry of the table, and succeeds if
that passes the checks. -/
theorem freeze_eq_ok_iff {v : Consulted τ} {boxed : PerScalar τ}
    (hd : ∀ k, d.slots.get k = some (boxed.get k)) :
    d.freeze c = .ok r v ↔
      r = c.table.registry boxed ∧ v = c.recording (c.table.asked boxed) ∧
        r.checkLaws v = .ok () := by
  rw [Draft.freeze_eq_ok_iff]
  constructor
  · rintro ⟨boxed', hboxed', hderive, hlaws⟩
    cases (Draft.complete_of_slots hd).symm.trans hboxed'
    cases (derive_eq c boxed).symm.trans hderive
    exact ⟨rfl, rfl, hlaws⟩
  · rintro ⟨rfl, rfl, hlaws⟩
    exact ⟨boxed, Draft.complete_of_slots hd, derive_eq c boxed, hlaws⟩

/-- The table is a transitive order. Nothing else is asked of it. -/
theorem consistent_of_transitive
    (htrans : ∀ x y z, c.table.isBelow x y = true → c.table.isBelow y z = true →
      c.table.isBelow x z = true)
    (h : r.checkLaws c = .ok ()) : r.Consistent c := by
  refine Registry.consistent_of_checkLaws (fun x y z hxy hyz => ?_) h
  rw [isBelow_eq_true_iff] at hxy hyz ⊢
  exact htrans x y z hxy hyz

/-- Over a transitive table every registry that a freeze hands out is consistent
and stays so. If the registry that is derived is not, the freeze ends in a
breach; and where the order is reflexive too it ends in a breach for no other
reason. -/
theorem freeze_consistent (c : Consulted τ)
    (htrans : ∀ x y z, c.table.isBelow x y = true → c.table.isBelow y z = true →
      c.table.isBelow x z = true) (d : Draft τ) :
    (∀ r v, d.freeze c = .ok r v →
      ∀ later : Consulted τ, later.table = c.table → r.Consistent later) ∧
    ∀ boxed : PerScalar τ, (∀ k, d.slots.get k = some (boxed.get k)) →
      let r := c.table.registry boxed
      let joined := c.recording (c.table.asked boxed)
      (¬ r.Consistent c → ∃ b, d.freeze c = .error (.breach b) joined) ∧
      ((∀ x, c.table.isBelow x x = true) →
        (d.freeze c = .ok r joined ↔ r.Consistent c)) := by
  refine ⟨fun r v h later hlater => ?_, fun boxed hd => ?_⟩
  · obtain ⟨boxed, hboxed, -, -⟩ := Draft.freeze_eq_ok_iff.mp h
    obtain ⟨rfl, rfl, hlaws⟩ := (freeze_eq_ok_iff (Draft.slots_of_complete hboxed)).mp h
    exact consistent_of_table_eq hlater (consistent_of_transitive htrans hlaws)
  · intro r joined
    have hpassed : r.checkLaws joined = .ok () → r.Consistent c := fun hlaws =>
      consistent_of_table_eq (c := joined) rfl (consistent_of_transitive htrans hlaws)
    refine ⟨fun hnot => ?_, fun hrefl => ⟨fun h => ?_, fun hr => ?_⟩⟩
    · cases hlaws : r.checkLaws joined with
      | ok _ => exact absurd (hpassed hlaws) hnot
      | error b => exact ⟨b, freeze_of_checkLaws hd hlaws⟩
    · exact hpassed ((freeze_eq_ok_iff hd).mp h).2.2
    · have hjoined : r.Consistent joined := consistent_of_table_eq (c := c) rfl hr
      have hlaws : r.checkLaws joined = .ok () :=
        Registry.checkLaws_of_consistent (fun x => isBelow_eq_true_iff.mpr (hrefl x)) hjoined
      exact (freeze_eq_ok_iff hd).mpr ⟨rfl, rfl, hlaws⟩

/-- Nothing is below itself here, and the join of a type with itself is another
type. -/
theorem freeze_consistent_strict :
    let t : LatticeTable Nat :=
      ⟨fun k => k.index + 2, 0, (· == 0), fun a b => a + b + 1, fun a b => decide (a < b), toString⟩
    let d : Draft Nat := ⟨⟨some 9, some 7, some 12⟩⟩
    (∀ x y z, t.isBelow x y = true → t.isBelow y z = true → t.isBelow x z = true) ∧
    ∃ r v, d.freeze (new t) = .ok r v ∧ r.numberOrString = 24 ∧
      ∀ later : Consulted Nat, later.table = t → r.Consistent later := by
  intro t d
  have htrans : ∀ x y z, t.isBelow x y = true → t.isBelow y z = true →
      t.isBelow x z = true := by
    intro x y z hxy hyz
    rw [decide_eq_true_iff] at hxy hyz ⊢
    exact Nat.lt_trans hxy hyz
  have hfreeze : d.freeze (new t) =
      .ok (t.registry ⟨9, 7, 12⟩) ⟨t, t.asked ⟨9, 7, 12⟩⟩ := by rfl
  exact ⟨htrans, _, _, hfreeze, rfl, (freeze_consistent (new t) htrans d).1 _ _ hfreeze⟩

end Consulted

end BoxedTypes
