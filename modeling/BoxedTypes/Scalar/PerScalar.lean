import BoxedTypes.Scalar.Basic

/-!
# A value for each scalar kind

`PerScalar` keeps one value for each kind. It is a record and not a function, so
that two of them can be compared. `get_set` says all there is to say about `get`
and `set`, and `ext_get` that a record is known by what `get` gives.
-/

namespace BoxedTypes

/-- One value for each scalar kind. -/
structure PerScalar (α : Type) where
  number : α
  string : α
  boolean : α
  deriving DecidableEq, Repr, Inhabited

namespace PerScalar

variable {α : Type}

/-- The value for a kind. -/
def get (p : PerScalar α) : Scalar → α
  | .number => p.number
  | .string => p.string
  | .boolean => p.boolean

/-- The same values with another one for one kind. -/
def set (p : PerScalar α) (k : Scalar) (a : α) : PerScalar α :=
  match k with
  | .number => { p with number := a }
  | .string => { p with string := a }
  | .boolean => { p with boolean := a }

/-- The same value for every kind. -/
def const (a : α) : PerScalar α := ⟨a, a, a⟩

/-- The values in slot order. -/
def toList (p : PerScalar α) : List α := Scalar.all.map p.get

theorem get_set (p : PerScalar α) (k l : Scalar) (a : α) :
    (p.set k a).get l = if l = k then a else p.get l := by
  cases k <;> cases l <;> rfl

@[simp] theorem get_const (a : α) (k : Scalar) : (const a).get k = a := by cases k <;> rfl

theorem ext_get {p q : PerScalar α} (h : ∀ k, p.get k = q.get k) : p = q := by
  cases p; cases q
  have hn := h .number
  have hs := h .string
  have hb := h .boolean
  simp only [get] at hn hs hb
  subst hn hs hb
  rfl

/-- A choice for each kind is a record. -/
theorem exists_get {P : Scalar → α → Prop} (h : ∀ k, ∃ a, P k a) :
    ∃ p : PerScalar α, ∀ k, P k (p.get k) := by
  obtain ⟨n, hn⟩ := h .number
  obtain ⟨s, hs⟩ := h .string
  obtain ⟨b, hb⟩ := h .boolean
  refine ⟨⟨n, s, b⟩, fun k => ?_⟩
  cases k with
  | number => exact hn
  | string => exact hs
  | boolean => exact hb

end PerScalar

end BoxedTypes
