import BoxedTypes.AtomSet
import BoxedTypes.Scalar.Basic

/-!
# Shapes of types and their handles

A type is either the unknown type, about which nothing is known, or a union of
atoms. `Shape` is that structure; the union of no atoms is the bottom type. A
shape is compared and copied in time that grows with its atoms, so types are
passed around as a `TypeId`, the handle under which a pool has interned the
shape.

The shapes form a lattice: inclusion of atom sets with the unknown shape put on
top. `Shape.join` and `Shape.IsBelow` are that lattice, with no handles in
sight. The operations on handles in `BoxedTypes.UnionTypes` are these two read
through the pool.
-/

namespace BoxedTypes

namespace Atom

/-- The atom of a scalar kind. -/
def ofScalar : Scalar → Atom
  | .number => .number
  | .string => .string
  | .boolean => .boolean

end Atom

/-- What a type is. -/
inductive Shape where
  | unknown
  | union (atoms : AtomSet)
  deriving DecidableEq, Hashable

namespace Shape

instance : Inhabited Shape := ⟨.unknown⟩

/-- The type of one atom. -/
def atom (a : Atom) : Shape := .union {a}

/-- The least shape above two shapes. The unknown shape absorbs every other. -/
def join : Shape → Shape → Shape
  | .union as, .union bs => .union (as ∪ bs)
  | _, _ => .unknown

/-- The order of shapes: every shape is below the unknown one, and a union is
below the unions that have all its atoms. -/
def IsBelow : Shape → Shape → Prop
  | _, .unknown => True
  | .unknown, .union _ => False
  | .union as, .union bs => as ⊆ bs

instance (s t : Shape) : Decidable (s.IsBelow t) :=
  match s, t with
  | .unknown, .unknown => isTrue trivial
  | .union _, .unknown => isTrue trivial
  | .unknown, .union _ => isFalse id
  | .union as, .union bs => inferInstanceAs (Decidable (as ⊆ bs))

theorem isBelow_unknown (s : Shape) : s.IsBelow .unknown := by cases s <;> trivial

theorem not_unknown_isBelow_union (as : AtomSet) : ¬ unknown.IsBelow (.union as) := id

theorem union_isBelow_union {as bs : AtomSet} :
    (union as).IsBelow (.union bs) ↔ ∀ a ∈ as, a ∈ bs := Iff.rfl

theorem isBelow_refl (s : Shape) : s.IsBelow s := by
  cases s with
  | unknown => trivial
  | union as => exact fun _ h => h

theorem IsBelow.trans {s t r : Shape} (hst : s.IsBelow t) (htr : t.IsBelow r) : s.IsBelow r := by
  cases r with
  | unknown => exact isBelow_unknown s
  | union rs =>
    cases t with
    | unknown => exact absurd htr (not_unknown_isBelow_union rs)
    | union ts =>
      cases s with
      | unknown => exact absurd hst (not_unknown_isBelow_union ts)
      | union ss => exact fun a ha => htr a (hst a ha)

theorem IsBelow.antisymm {s t : Shape} (hst : s.IsBelow t) (hts : t.IsBelow s) : s = t := by
  cases s <;> cases t
  · rfl
  · exact absurd hst (not_unknown_isBelow_union _)
  · exact absurd hts (not_unknown_isBelow_union _)
  · exact congrArg union (AtomSet.ext_mem fun a => ⟨hst a, hts a⟩)

/-- The join is the least upper bound. -/
theorem join_isBelow_iff {s t r : Shape} : (s.join t).IsBelow r ↔ s.IsBelow r ∧ t.IsBelow r := by
  cases r with
  | unknown => simp [isBelow_unknown]
  | union rs =>
    cases s <;> cases t <;>
      simp only [join, not_unknown_isBelow_union, false_and, and_false, union_isBelow_union,
        AtomSet.mem_union]
    grind

theorem atom_injective {a b : Atom} (h : atom a = atom b) : a = b := by
  have hmem : a ∈ ({b} : AtomSet) := by
    rw [← union.inj h]
    exact AtomSet.mem_singleton.mpr rfl
  exact AtomSet.mem_singleton.mp hmem

end Shape

/-- The handle of an interned shape. -/
structure TypeId where
  index : UInt32
  deriving DecidableEq, Hashable, Repr

namespace TypeId

/-- The handle of the unknown type. -/
def unknown : TypeId := ⟨0⟩

/-- The handle of the bottom type, the union of no atoms. -/
def bottom : TypeId := ⟨1⟩

/-- The handle of the type of one scalar kind. -/
def ofScalar : Scalar → TypeId
  | .number => ⟨2⟩
  | .string => ⟨3⟩
  | .boolean => ⟨4⟩

/-- Whether a handle is one of the five that every lattice starts with. -/
def isBuiltin (id : TypeId) : Bool := id.index ≤ (ofScalar .boolean).index

end TypeId

end BoxedTypes
