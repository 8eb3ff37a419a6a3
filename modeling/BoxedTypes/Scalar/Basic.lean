/-!
# The three scalar kinds

A checked language has three scalars whose values a wrapper class can box:
numbers, strings and booleans. They have one fixed order, the slot order, in
which a registry is filled, frozen, checked and shown. `Scalar.all` is that
order, and everything that walks the kinds walks this list.
-/

namespace BoxedTypes

/-- A scalar kind of the checked language. -/
inductive Scalar where
  | number
  | string
  | boolean
  deriving DecidableEq, Repr, Inhabited

namespace Scalar

/-- All kinds, in slot order. -/
def all : List Scalar := [.number, .string, .boolean]

theorem mem_all (k : Scalar) : k ∈ all := by cases k <;> simp [all]

/-- The word for a kind, the same in messages and in documents. -/
def name : Scalar → String
  | .number => "number"
  | .string => "string"
  | .boolean => "boolean"

/-- The place of a kind in slot order. -/
def index : Scalar → Nat
  | .number => 0
  | .string => 1
  | .boolean => 2

theorem name_injective {k l : Scalar} (h : k.name = l.name) : k = l := by
  cases k <;> cases l <;> simp_all [name]

end Scalar

end BoxedTypes
