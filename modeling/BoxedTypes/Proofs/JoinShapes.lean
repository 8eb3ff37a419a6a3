import BoxedTypes.Proofs.Coherence

/-!
# Joining handles is joining shapes

`join` and `isBelow` have two ways to an answer: equal handles are answered at
once, different ones through their shapes. `joinByShape` and `isBelowByShape`
are the second way taken for all handles alike. On the types of a coherent
lattice the two ways agree, and there is one description for both. The join of
two types interns the join of their shapes (`join_eq_intern`), and the order of
two types is the order of their shapes (`isBelow_eq`).

That the unknown shape is answered without interning anything is no exception to
the first: the unknown shape stands in every lattice, so interning it changes
nothing. The same goes for equal handles, whose shapes have that very shape as
their join.

Read the other way (`join_ok_cases`), a join that succeeds either was of two
issued types or of one handle with itself.
-/

namespace BoxedTypes

namespace Shape

theorem unknown_join (t : Shape) : unknown.join t = .unknown := by cases t <;> rfl

theorem join_unknown (s : Shape) : s.join .unknown = .unknown := by cases s <;> rfl

theorem join_self (s : Shape) : s.join s = s := by
  have hle := join_isBelow_iff.mpr ⟨isBelow_refl s, isBelow_refl s⟩
  have hge := (join_isBelow_iff.mp (isBelow_refl (s.join s))).1
  exact hle.antisymm hge

theorem bottom_isBelow (s : Shape) : (union ∅).IsBelow s := by
  cases s with
  | unknown => exact isBelow_unknown _
  | union as => exact fun a ha => absurd ha (AtomSet.not_mem_empty a)

theorem isBelow_join_left (s t : Shape) : s.IsBelow (s.join t) :=
  (join_isBelow_iff.mp (isBelow_refl _)).1

theorem isBelow_join_right (s t : Shape) : t.IsBelow (s.join t) :=
  (join_isBelow_iff.mp (isBelow_refl _)).2

/-- The lower of two comparable shapes adds nothing to a join. -/
theorem join_eq_right_iff {s t : Shape} : s.join t = t ↔ s.IsBelow t := by
  constructor
  · intro h
    have hle := isBelow_join_left s t
    rwa [h] at hle
  · intro h
    have hle := join_isBelow_iff.mpr ⟨h, isBelow_refl t⟩
    exact hle.antisymm (isBelow_join_right s t)

end Shape

namespace UnionTypes

variable {u v : UnionTypes} {a b c : TypeId} {s t : Shape}

theorem shape_of_shape? (h : u.shape? a = some s) : u.shape a = .ok s :=
  shape_eq_ok_iff.mpr h

theorem shape_of_missing (h : u.shape? a = none) : u.shape a = .error (.missingType a) := by
  rw [shape, h]

/-! ## The way through the shapes -/

/-- The join of two handles by their shapes, equal or not. -/
def joinByShape (a b : TypeId) : EStateM Breach UnionTypes TypeId := fun u =>
  match u.shape a, u.shape b with
  | .error e, _ => .error e u
  | .ok _, .error e => .error e u
  | .ok (.union as), .ok (.union bs) =>
    let (id, u) := u.intern (.union (as ∪ bs))
    .ok id u
  | .ok _, .ok _ => .ok .unknown u

/-- Whether one handle is below another by their shapes, equal or not. -/
def isBelowByShape (u : UnionTypes) (a b : TypeId) : Except Breach Bool :=
  match u.shape a, u.shape b with
  | .error e, _ => .error e
  | .ok _, .error e => .error e
  | .ok s, .ok t => .ok (decide (s.IsBelow t))

theorem join_of_ne (hab : a ≠ b) (u : UnionTypes) : join a b u = joinByShape a b u :=
  if_neg hab

theorem isBelow_of_ne (hab : a ≠ b) (u : UnionTypes) :
    u.isBelow a b = u.isBelowByShape a b :=
  if_neg hab

/-- The left handle is looked at first. -/
theorem byShape_of_missing_left (ha : u.shape? a = none) :
    joinByShape a b u = .error (.missingType a) u ∧
      u.isBelowByShape a b = .error (.missingType a) := by
  rw [joinByShape, isBelowByShape, shape_of_missing ha]
  exact ⟨rfl, rfl⟩

theorem byShape_of_missing_right (ha : u.shape? a = some s) (hb : u.shape? b = none) :
    joinByShape a b u = .error (.missingType b) u ∧
      u.isBelowByShape a b = .error (.missingType b) := by
  rw [joinByShape, isBelowByShape, shape_of_shape? ha, shape_of_missing hb]
  exact ⟨rfl, rfl⟩

theorem Coherent.joinByShape_eq_intern (hu : u.Coherent) (ha : u.shape? a = some s)
    (hb : u.shape? b = some t) :
    joinByShape a b u = .ok (u.intern (s.join t)).1 (u.intern (s.join t)).2 := by
  rw [joinByShape, shape_of_shape? ha, shape_of_shape? hb]
  cases s with
  | unknown =>
      rw [Shape.unknown_join, hu.intern_of_shape? hu.shape?_unknown]
      cases t <;> rfl
  | union as =>
      cases t with
      | unknown => rw [Shape.join_unknown, hu.intern_of_shape? hu.shape?_unknown]
      | union bs => rfl

theorem isBelowByShape_eq (ha : u.shape? a = some s) (hb : u.shape? b = some t) :
    u.isBelowByShape a b = .ok (decide (s.IsBelow t)) := by
  rw [isBelowByShape, shape_of_shape? ha, shape_of_shape? hb]

/-! ## Joins and comparisons of types -/

/-- The join of two types is the type of the joined shapes. -/
theorem Coherent.join_eq_intern (hu : u.Coherent) (ha : u.shape? a = some s)
    (hb : u.shape? b = some t) :
    join a b u = .ok (u.intern (s.join t)).1 (u.intern (s.join t)).2 := by
  by_cases hab : a = b
  · subst hab
    cases ha.symm.trans hb
    rw [Shape.join_self, hu.intern_of_shape? ha, join, if_pos rfl]
  · rw [join_of_ne hab]
    exact hu.joinByShape_eq_intern ha hb

theorem Coherent.join_ok (hu : u.Coherent) (ha : u.shape? a = some s)
    (hb : u.shape? b = some t) :
    ∃ c v, join a b u = .ok c v ∧ u.Grows v ∧
      (v.typeCount ≤ UInt32.size → v.shape? c = some (s.join t)) :=
  ⟨_, _, hu.join_eq_intern ha hb, grows_intern u _, hu.shape?_intern⟩

/-- The order of two types is the order of their shapes. -/
theorem isBelow_eq (ha : u.shape? a = some s) (hb : u.shape? b = some t) :
    u.isBelow a b = .ok (decide (s.IsBelow t)) := by
  by_cases hab : a = b
  · subst hab
    cases ha.symm.trans hb
    rw [isBelow, if_pos rfl, decide_eq_true (Shape.isBelow_refl s)]
  · rw [isBelow_of_ne hab]
    exact isBelowByShape_eq ha hb

theorem isBelow_eq_true_iff (ha : u.shape? a = some s) (hb : u.shape? b = some t) :
    u.isBelow a b = .ok true ↔ s.IsBelow t := by
  rw [isBelow_eq ha hb]
  simp

/-- A join that succeeds was of two types of the lattice, or of one handle with
itself. -/
theorem Coherent.join_ok_cases (hu : u.Coherent) (h : join a b u = .ok c v) :
    (a = b ∧ u.shape? a = none ∧ c = a ∧ v = u) ∨
      ∃ s t, u.shape? a = some s ∧ u.shape? b = some t ∧
        u.intern (s.join t) = (c, v) := by
  by_cases hab : a = b
  · subst hab
    rw [join, if_pos rfl] at h
    cases h
    cases ha : u.shape? a with
    | none => exact .inl ⟨rfl, rfl, rfl, rfl⟩
    | some s =>
        refine .inr ⟨s, s, rfl, rfl, ?_⟩
        rw [Shape.join_self]
        exact hu.intern_of_shape? ha
  · cases ha : u.shape? a with
    | none =>
        rw [join_of_ne hab, (byShape_of_missing_left ha).1] at h
        cases h
    | some s =>
        cases hb : u.shape? b with
        | none =>
            rw [join_of_ne hab, (byShape_of_missing_right ha hb).1] at h
            cases h
        | some t =>
            rw [hu.join_eq_intern ha hb] at h
            cases h
            exact .inr ⟨s, t, rfl, rfl, rfl⟩

end UnionTypes

end BoxedTypes
