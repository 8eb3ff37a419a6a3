import BoxedTypes.Proofs.FreezeSteps
import BoxedTypes.Proofs.History

/-!
# Freezing interns the composites

Over a lattice of interned types a freeze is four internings, one after the
other: the composite of each kind in slot order, and the join of the first two.
`Shape.composite` is the shape of a composite, read off the shape of the boxed
type alone, so what a registry holds does not depend on the history of the
lattice that it was frozen from (`Coherent.freeze_ok`).

The shape of a composite is never the unknown one. That is why the unknown boxed
type is exempt: the join of a scalar with it would be unknown, and every type is
below that.

The check at the end of a freeze compares a shape with a join of it each time.
As long as the handles of the registry have the shapes they were interned for,
it passes (`Coherent.checkLaws_of_holds`), and a freeze that leaves it out ends
with the same registry and the same lattice.
-/

namespace BoxedTypes

namespace Shape

/-- The atoms of a scalar kind and of its boxed type; of an unknown boxed type
no atoms are known. -/
def composite (k : Scalar) : Shape → Shape
  | .unknown => .atom (.ofScalar k)
  | .union as => .union ({Atom.ofScalar k} ∪ as)

theorem composite_of_ne_unknown {s : Shape} (k : Scalar) (hs : s ≠ .unknown) :
    s.composite k = (Shape.atom (.ofScalar k)).join s := by
  cases s with
  | unknown => exact absurd rfl hs
  | union as => rfl

theorem scalar_isBelow_composite (k : Scalar) (s : Shape) :
    (Shape.atom (.ofScalar k)).IsBelow (s.composite k) := by
  cases s with
  | unknown => exact isBelow_refl _
  | union as => exact isBelow_join_left (.atom (.ofScalar k)) (.union as)

theorem isBelow_composite {s : Shape} (k : Scalar) (hs : s ≠ .unknown) :
    s.IsBelow (s.composite k) := by
  rw [composite_of_ne_unknown k hs]
  exact isBelow_join_right _ s

end Shape

namespace UnionTypes

variable {u v : UnionTypes}

theorem Coherent.eq_unknown_iff (hu : u.Coherent) {id : TypeId} {s : Shape}
    (hs : u.shape? id = some s) : id = .unknown ↔ s = .unknown := by
  constructor
  · rintro rfl
    exact Option.some.inj (hs.symm.trans hu.shape?_unknown)
  · rintro rfl
    exact hu.shape?_inj hs hu.shape?_unknown

theorem composite_eq (k : Scalar) (boxed : TypeId) (u : UnionTypes) :
    Registry.composite k boxed u =
      if boxed = .unknown then .ok (.ofScalar k) u else join (.ofScalar k) boxed u := by
  show (if decide (boxed = .unknown) = true then
    EStateM.Result.ok (TypeId.ofScalar k) u else join (.ofScalar k) boxed u) = _
  simp only [decide_eq_true_eq]

theorem Coherent.composite_eq_intern (hu : u.Coherent) (k : Scalar) {boxed : TypeId}
    {s : Shape} (hs : u.shape? boxed = some s) :
    Registry.composite k boxed u =
      .ok (u.intern (s.composite k)).1 (u.intern (s.composite k)).2 := by
  rw [composite_eq]
  by_cases hb : boxed = .unknown
  · rw [if_pos hb, (hu.eq_unknown_iff hs).mp hb, Shape.composite,
      hu.intern_of_shape? (hu.shape?_ofScalar k)]
  · have hne : s ≠ .unknown := fun h => hb ((hu.eq_unknown_iff hs).mpr h)
    rw [if_neg hb, Shape.composite_of_ne_unknown k hne]
    exact hu.join_eq_intern (hu.shape?_ofScalar k) hs

theorem Coherent.composite_ok (hu : u.Coherent) (k : Scalar) {boxed : TypeId} {s : Shape}
    (hs : u.shape? boxed = some s) :
    ∃ c v, Registry.composite k boxed u = .ok c v ∧ u.Grows v ∧
      (v.typeCount ≤ UInt32.size → v.shape? c = some (s.composite k)) :=
  ⟨_, _, hu.composite_eq_intern k hs, grows_intern u _, hu.shape?_intern⟩

/-- What a registry holds, by shape. -/
structure Holds (v : UnionTypes) (r : Registry TypeId) (shapes : PerScalar Shape) : Prop where
  boxed : ∀ k, v.shape? (r.boxed.get k) = some (shapes.get k)
  composites : ∀ k, v.shape? (r.composites.get k) = some ((shapes.get k).composite k)
  numberOrString : v.shape? r.numberOrString =
    some ((shapes.number.composite .number).join (shapes.string.composite .string))

theorem Grows.holds (h : u.Grows v) {r : Registry TypeId} {shapes : PerScalar Shape}
    (hr : u.Holds r shapes) : v.Holds r shapes :=
  ⟨fun k => h.shape? (hr.boxed k), fun k => h.shape? (hr.composites k),
    h.shape? hr.numberOrString⟩

/-- The composites are interned one after the other, so what one join needs of
the earlier ones is there when its turn comes. -/
theorem Coherent.derive_ok (hu : u.Coherent) {boxed : PerScalar TypeId}
    {shapes : PerScalar Shape} (hs : ∀ k, u.shape? (boxed.get k) = some (shapes.get k))
    (hfit : (leftBehind (Registry.derive boxed u)).typeCount ≤ UInt32.size) :
    ∃ r v, Registry.derive boxed u = .ok r v ∧ r.boxed = boxed ∧ u.Grows v ∧
      v.Holds r shapes := by
  have hbn : u.shape? boxed.number = some shapes.number := hs .number
  have hbs : u.shape? boxed.string = some shapes.string := hs .string
  have hbb : u.shape? boxed.boolean = some shapes.boolean := hs .boolean
  obtain ⟨number, u₁, h₁, g₁, hn⟩ := hu.composite_ok .number hbn
  have hu₁ := g₁.coherent hu
  obtain ⟨string, u₂, h₂, g₂, hs₂⟩ := hu₁.composite_ok .string (g₁.shape? hbs)
  have hu₂ := g₂.coherent hu₁
  obtain ⟨boolean, u₃, h₃, g₃, hb⟩ := hu₂.composite_ok .boolean (g₂.shape? (g₁.shape? hbb))
  have hu₃ := g₃.coherent hu₂
  have hderive : Registry.derive boxed u =
      (join number string >>= fun numberOrString =>
        pure ⟨boxed, ⟨number, string, boolean⟩, numberOrString⟩) u₃ := by
    unfold Registry.derive
    rw [bind_of_ok h₁, bind_of_ok h₂, bind_of_ok h₃]
    rfl
  -- The last join needs the shapes of its operands, and for that the room so
  -- far.
  have hjoinFit : (leftBehind (join number string u₃)).typeCount ≤ UInt32.size := by
    rw [hderive] at hfit
    exact typeCount_le_of_bind (fun _ => OnlyGrows.pure _) hfit
  have fit₃ := Nat.le_trans (onlyGrows_join _ _ _).typeCount_le hjoinFit
  have fit₂ := Nat.le_trans g₃.typeCount_le fit₃
  have fit₁ := Nat.le_trans g₂.typeCount_le fit₂
  have g₂₃ := g₂.trans g₃
  obtain ⟨numberOrString, v, h₄, g₄, hns⟩ :=
    hu₃.join_ok (g₂₃.shape? (hn fit₁)) (g₃.shape? (hs₂ fit₂))
  rw [h₄] at hjoinFit
  have g := (g₁.trans g₂₃).trans g₄
  refine ⟨_, v, by rw [hderive, bind_of_ok h₄]; rfl, rfl, g,
    ⟨fun k => g.shape? (hs k), fun k => ?_, hns hjoinFit⟩⟩
  cases k with
  | number => exact (g₂₃.trans g₄).shape? (hn fit₁)
  | string => exact (g₃.trans g₄).shape? (hs₂ fit₂)
  | boolean => exact g₄.shape? (hb fit₃)

theorem Coherent.checkLaws_of_holds (hv : v.Coherent) {r : Registry TypeId}
    {shapes : PerScalar Shape} (hr : v.Holds r shapes) : r.checkLaws v = .ok () := by
  refine Registry.checkLaws_eq_ok_iff.mpr ⟨fun k => ?_, fun k hunknown => ?_,
    List.forall_mem_cons.mpr ⟨?_, List.forall_mem_singleton.mpr ?_⟩⟩
  · exact (isBelow_eq_true_iff (hv.shape?_ofScalar k) (hr.composites k)).mpr
      (Shape.scalar_isBelow_composite k _)
  · have hne : r.boxed.get k ≠ .unknown := of_decide_eq_false hunknown
    have hs : shapes.get k ≠ .unknown :=
      fun h => hne ((hv.eq_unknown_iff (hr.boxed k)).mpr h)
    exact (isBelow_eq_true_iff (hr.boxed k) (hr.composites k)).mpr
      (Shape.isBelow_composite k hs)
  · exact (isBelow_eq_true_iff (hr.composites .number) hr.numberOrString).mpr
      (Shape.isBelow_join_left _ _)
  · exact (isBelow_eq_true_iff (hr.composites .string) hr.numberOrString).mpr
      (Shape.isBelow_join_right _ _)

/-- A draft filled with types of the lattice is frozen, and the registry holds
the composites of their shapes. -/
theorem Coherent.freeze_ok (hu : u.Coherent) {d : Draft TypeId} {boxed : PerScalar TypeId}
    {shapes : PerScalar Shape} (hd : ∀ k, d.slots.get k = some (boxed.get k))
    (hs : ∀ k, u.shape? (boxed.get k) = some (shapes.get k))
    (hfit : (leftBehind (d.freeze u)).typeCount ≤ UInt32.size) :
    ∃ r v, d.freeze u = .ok r v ∧ r.boxed = boxed ∧ u.Grows v ∧ v.Holds r shapes := by
  rw [Draft.freeze_of_slots hd] at hfit ⊢
  rw [leftBehind_adaptExcept] at hfit
  have hchecks : ∀ r : Registry TypeId, OnlyGrows
      (TypeSystem.reading r.checkLaws >>= fun _ => pure r : EStateM Breach UnionTypes _) :=
    fun r => (OnlyGrows.reading r.checkLaws).bind fun _ => OnlyGrows.pure r
  obtain ⟨r, v, hderive, hboxed, hgrows, hholds⟩ :=
    hu.derive_ok hs (typeCount_le_of_bind hchecks hfit)
  have hlaws := (hgrows.coherent hu).checkLaws_of_holds hholds
  refine ⟨r, v, adaptExcept_of_ok ?_, hboxed, hgrows, hholds⟩
  rw [bind_of_ok hderive, bind_of_ok (reading_of_ok hlaws)]
  rfl

theorem Coherent.exists_freeze (hu : u.Coherent) {d : Draft TypeId} {boxed : PerScalar TypeId}
    (hd : ∀ k, d.slots.get k = some (boxed.get k)) (hissued : ∀ k, u.Issued (boxed.get k))
    (hfit : (leftBehind (d.freeze u)).typeCount ≤ UInt32.size) :
    ∃ r v, d.freeze u = .ok r v := by
  obtain ⟨shapes, hshapes⟩ := PerScalar.exists_get fun k => issued_iff.mp (hissued k)
  obtain ⟨r, v, hfreeze, -⟩ := hu.freeze_ok hd hshapes hfit
  exact ⟨r, v, hfreeze⟩

end UnionTypes

end BoxedTypes
