import BoxedTypes.TypeSystem

/-!
# Lattices given by tables

The order and the join of a small lattice can be written down as tables. A
`LatticeTable` is such a lattice, and it need not be lawful: its tables may
contradict each other, which makes it the place to see what a registry asks of a
lattice and what it does with wrong answers.

The tables never change. What changes is the record of the joins that were asked
for, with their results: `Consulted` pairs a table with that record, and it is
the state of this type system.
-/

namespace BoxedTypes

/-- A lattice with types `τ`, lawful or not, by its tables. -/
structure LatticeTable (τ : Type) where
  scalar : Scalar → τ
  unknown : τ
  isUnknown : τ → Bool
  join : τ → τ → τ
  isBelow : τ → τ → Bool
  display : τ → String

/-- A join that was asked for, and its answer. -/
structure JoinRecord (τ : Type) where
  left : τ
  right : τ
  result : τ
  deriving DecidableEq, Repr

/-- A table and the joins asked of it so far, the earliest first. -/
structure Consulted (τ : Type) where
  table : LatticeTable τ
  joins : List (JoinRecord τ)

namespace Consulted

variable {τ : Type}

/-- A table of which nothing was asked yet. -/
def new (table : LatticeTable τ) : Consulted τ := ⟨table, []⟩

/-- The union of two types by the table, entered into the record. -/
def join (a b : τ) : EStateM Breach (Consulted τ) τ := fun c =>
  let result := c.table.join a b
  .ok result { c with joins := c.joins ++ [⟨a, b, result⟩] }

instance : TypeSystem (Consulted τ) τ where
  scalar c := c.table.scalar
  unknown c := c.table.unknown
  isUnknown c := c.table.isUnknown
  join := join
  isBelow c a b := .ok (c.table.isBelow a b)
  display c a := .ok (c.table.display a)

end Consulted

end BoxedTypes
