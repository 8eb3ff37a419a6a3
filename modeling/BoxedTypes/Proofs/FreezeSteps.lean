import BoxedTypes.Proofs.Actions
import BoxedTypes.Proofs.Readings
import BoxedTypes.Registry.Seeding

/-!
# The steps of a freeze

A freeze reads the slots, derives the composites and checks them. The lemmas
here take the first and the last step apart, over any lattice, so that what is
proved about freezing over a particular one is about its joins and its order
only.

The slots are complete or there is a first empty one, and `complete` reports
which. The checks pass exactly when each comparison passes, and the comparison
of a boxed type is left out when nothing is known of the type. Whatever the
joins of a lattice preserve, a freeze over it preserves.
-/

namespace BoxedTypes

namespace Draft

variable {σ τ : Type} {d : Draft τ} {boxed : PerScalar τ} {k : Scalar}

theorem ext_slots {d' : Draft τ} (h : ∀ k, d.slots.get k = d'.slots.get k) : d = d' :=
  congrArg Draft.mk (PerScalar.ext_get h)

theorem complete_of_slots (h : ∀ k, d.slots.get k = some (boxed.get k)) :
    d.complete = .ok boxed := by
  have hn := h .number
  have hs := h .string
  have hb := h .boolean
  simp only [complete, filled, hn, hs, hb]
  rfl

theorem slots_of_complete (h : d.complete = .ok boxed) (k : Scalar) :
    d.slots.get k = some (boxed.get k) := by
  obtain ⟨⟨_ | n, _ | s, _ | b⟩⟩ := d
  case some.some.some =>
    cases h
    cases k <;> rfl
  all_goals cases h

theorem complete_of_pending (h : d.pending.head? = some k) :
    d.complete = .error (.unset k) := by
  obtain ⟨⟨number, string, boolean⟩⟩ := d
  cases number with
  | none =>
      cases h
      rfl
  | some n =>
      cases string with
      | none =>
          cases h
          rfl
      | some s =>
          cases boolean with
          | none =>
              cases h
              rfl
          | some b => cases h

/-- The first kind whose slot is empty heads the pending ones. -/
theorem head?_pending (hk : d.slots.get k = none)
    (hbefore : ∀ l : Scalar, l.index < k.index → d.slots.get l ≠ none) :
    d.pending.head? = some k := by
  have hset : ∀ l : Scalar, l.index < k.index → d.isSet l = true :=
    fun l hl => Option.isSome_iff_ne_none.mpr (hbefore l hl)
  have hunset : d.isSet k = false := by rw [isSet, hk]; rfl
  cases k with
  | number => simp [pending, Scalar.all, hunset]
  | string =>
      have hn := hset .number (by decide)
      simp [pending, Scalar.all, hn, hunset]
  | boolean =>
      have hn := hset .number (by decide)
      have hs := hset .string (by decide)
      simp [pending, Scalar.all, hn, hs, hunset]

theorem pending_eq_nil_iff :
    d.pending = [] ↔ ∃ boxed : PerScalar τ, ∀ k, d.slots.get k = some (boxed.get k) := by
  have hset : d.pending = [] ↔ ∀ k, ∃ ty, d.slots.get k = some ty := by
    simp only [pending, List.filter_eq_nil_iff, Scalar.mem_all, isSet, true_implies,
      Bool.not_eq_true', Bool.not_eq_false, Option.isSome_iff_exists]
  rw [hset]
  constructor
  · exact PerScalar.exists_get
  · rintro ⟨boxed, h⟩ k
    exact ⟨_, h k⟩

theorem freeze_of_pending [TypeSystem σ τ] {s : σ} (h : d.pending.head? = some k) :
    d.freeze s = .error (.slot (.unset k)) s := by
  rw [freeze, complete_of_pending h]
  rfl

theorem freeze_of_slots [TypeSystem σ τ] {s : σ}
    (h : ∀ k, d.slots.get k = some (boxed.get k)) :
    d.freeze s =
      EStateM.adaptExcept .breach (Registry.derive boxed >>= fun r =>
        TypeSystem.reading r.checkLaws >>= fun _ => pure r) s := by
  rw [freeze, complete_of_slots h]

theorem freeze_of_derive_error [TypeSystem σ τ] {s s' : σ} {b : Breach}
    (hd : ∀ k, d.slots.get k = some (boxed.get k))
    (h : Registry.derive boxed s = .error b s') : d.freeze s = .error (.breach b) s' := by
  rw [freeze_of_slots hd]
  exact adaptExcept_of_error (bind_of_error h)

/-- All that a freeze does to the lattice, it does by deriving the registry. -/
theorem freeze_of_derive_eq [TypeSystem σ τ] {s s' : σ}
    (hd : ∀ k, d.slots.get k = some (boxed.get k))
    (h : Registry.derive boxed s = Registry.derive boxed s') : d.freeze s = d.freeze s' := by
  rw [freeze_of_slots hd, freeze_of_slots hd]
  exact adaptExcept_eq_of_eq (bind_eq_of_eq h)

/-- The freeze of a draft with no empty slot can only end in a breach. -/
theorem freeze_error_cases [TypeSystem σ τ] {s s' : σ} {e : FreezeError}
    (hd : ∀ k, ∃ ty, d.slots.get k = some ty) (h : d.freeze s = .error e s') :
    ∃ b, e = .breach b := by
  obtain ⟨boxed, hboxed⟩ := PerScalar.exists_get hd
  rw [freeze_of_slots hboxed] at h
  obtain ⟨b, -, rfl⟩ := adaptExcept_error_cases h
  exact ⟨b, rfl⟩

/-- A freeze succeeds exactly if the draft is complete, its registry can be
derived, and the registry passes the checks in the lattice left by the joins. -/
theorem freeze_eq_ok_iff [TypeSystem σ τ] {s s' : σ} {r : Registry τ} :
    d.freeze s = .ok r s' ↔
      ∃ boxed, d.complete = .ok boxed ∧ Registry.derive boxed s = .ok r s' ∧
        r.checkLaws s' = .ok () := by
  constructor
  · intro h
    unfold freeze at h
    cases hboxed : d.complete with
    | error e =>
        rw [hboxed] at h
        cases h
    | ok boxed =>
        rw [hboxed] at h
        obtain ⟨r', t, hderive, hrest⟩ := bind_ok_cases (adaptExcept_ok_cases h)
        obtain ⟨_, t', hread, hpure⟩ := bind_ok_cases hrest
        obtain ⟨hlaws, rfl⟩ := reading_ok_cases hread
        cases hpure
        exact ⟨boxed, rfl, hderive, hlaws⟩
  · rintro ⟨boxed, hboxed, hderive, hlaws⟩
    rw [freeze, hboxed]
    refine adaptExcept_of_ok ?_
    rw [bind_of_ok hderive, bind_of_ok (reading_of_ok hlaws)]
    rfl

end Draft

namespace Registry

variable {σ τ : Type} [TypeSystem σ τ] {r : Registry τ} {s s' : σ}

theorem boxed_of_derive {boxed : PerScalar τ} (h : derive boxed s = .ok r s') :
    r.boxed = boxed := by
  unfold derive at h
  obtain ⟨number, s₁, -, h⟩ := bind_ok_cases h
  obtain ⟨string, s₂, -, h⟩ := bind_ok_cases h
  obtain ⟨boolean, s₃, -, h⟩ := bind_ok_cases h
  obtain ⟨numberOrString, s₄, -, h⟩ := bind_ok_cases h
  cases h
  rfl

theorem slots_of_freeze {d : Draft τ} (h : d.freeze s = .ok r s') (k : Scalar) :
    d.slots.get k = some (r.boxed.get k) := by
  obtain ⟨boxed, hboxed, hderive, -⟩ := Draft.freeze_eq_ok_iff.mp h
  rw [boxed_of_derive hderive]
  exact Draft.slots_of_complete hboxed k

/-! ## The checks -/

theorem check_eq_ok_iff {lower upper : τ} {blame : Except Breach Breach} :
    check s lower upper blame = .ok () ↔ TypeSystem.isBelow s lower upper = .ok true := by
  unfold check
  cases hx : TypeSystem.isBelow s lower upper with
  | error e => exact iff_of_false nofun nofun
  | ok x =>
      cases x with
      | true => exact iff_of_true rfl rfl
      | false => cases blame <;> exact iff_of_false nofun nofun

theorem checkKind_eq_ok_iff {k : Scalar} :
    r.checkKind s k = .ok () ↔
      TypeSystem.isBelow s (TypeSystem.scalar s k) (r.composites.get k) = .ok true ∧
        (TypeSystem.isUnknown s (r.boxed.get k) = false →
          TypeSystem.isBelow s (r.boxed.get k) (r.composites.get k) = .ok true) := by
  unfold checkKind
  rw [seq_eq_ok_iff, check_eq_ok_iff]
  refine and_congr_right fun _ => ?_
  cases TypeSystem.isUnknown s (r.boxed.get k) with
  | true => exact iff_of_true rfl nofun
  | false => exact check_eq_ok_iff.trans (imp_iff_right rfl).symm

/-- The checks pass exactly if every scalar and every known boxed type is below
its composite and the first two composites are below their union. -/
theorem checkLaws_eq_ok_iff :
    r.checkLaws s = .ok () ↔
      (∀ k, TypeSystem.isBelow s (TypeSystem.scalar s k) (r.composites.get k) = .ok true) ∧
      (∀ k, TypeSystem.isUnknown s (r.boxed.get k) = false →
        TypeSystem.isBelow s (r.boxed.get k) (r.composites.get k) = .ok true) ∧
      ∀ k ∈ [Scalar.number, .string],
        TypeSystem.isBelow s (r.composites.get k) r.numberOrString = .ok true := by
  rw [checkLaws, seq_eq_ok_iff, forM_eq_ok_iff, forM_eq_ok_iff]
  simp only [checkKind_eq_ok_iff, Scalar.mem_all, true_implies, forall_and, and_assoc]
  refine and_congr_right fun _ => and_congr_right fun _ => forall₂_congr fun k _ => ?_
  exact check_eq_ok_iff

end Registry

/-! ## What a freeze preserves -/

section Preserves

variable {σ τ : Type} [TypeSystem σ τ] {P : σ → Prop}
  (hjoin : ∀ a b : τ, Preserves P (TypeSystem.join a b : EStateM Breach σ τ))

include hjoin

theorem Registry.preserves_composite (k : Scalar) (boxed : τ) :
    Preserves P (Registry.composite k boxed : EStateM Breach σ τ) := by
  intro s hs
  unfold Registry.composite
  split
  · exact hs
  · exact hjoin _ boxed s hs

theorem Registry.preserves_derive (boxed : PerScalar τ) :
    Preserves P (Registry.derive boxed : EStateM Breach σ (Registry τ)) := by
  unfold Registry.derive
  refine (preserves_composite hjoin _ _).bind fun number => ?_
  refine (preserves_composite hjoin _ _).bind fun string => ?_
  refine (preserves_composite hjoin _ _).bind fun boolean => ?_
  exact (hjoin number string).bind fun _ => Preserves.pure _

theorem Draft.preserves_freeze (d : Draft τ) :
    Preserves P (d.freeze : EStateM FreezeError σ (Registry τ)) := by
  unfold Draft.freeze
  split
  · exact Preserves.throw _
  · next boxed _ =>
      refine Preserves.adaptExcept ((Registry.preserves_derive hjoin boxed).bind fun r => ?_) _
      exact (Preserves.reading r.checkLaws).bind fun _ => Preserves.pure r

theorem Registry.preserves_ofDeclarations (decls : Declarations τ) (c : Settings) :
    Preserves P (Registry.ofDeclarations decls c : EStateM FreezeError σ (Registry τ)) := by
  intro s hs
  unfold Registry.ofDeclarations
  split
  · exact hs
  · next d _ => exact d.preserves_freeze hjoin s hs

end Preserves

end BoxedTypes
