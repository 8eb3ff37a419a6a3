import BoxedTypes.Breach

/-!
# What a registry needs of a lattice of types

A registry of boxed types is built over some lattice whose types it only holds
and hands back. Six operations are enough, and `TypeSystem σ τ` lists them for a
lattice with states `σ` and types `τ`.

Only `join` may change the state, because it may have to make room for a type
that was not there before. It is therefore an action that leaves a state behind
on success and on failure alike; the other operations read the state they are
given. `reading` turns such a reading into an action.

No law is part of the class. A freeze with its assertions on checks the few
comparisons that a registry depends on, so that a lattice whose join is wrong is
found out there. With the assertions off nothing is compared, and the lattice is
taken at its word.
-/

namespace BoxedTypes

class TypeSystem (σ : Type) (τ : outParam Type) where
  /-- The type of the bare values of a scalar kind. -/
  scalar : σ → Scalar → τ
  /-- The type that stands for a boxed type of which nothing is known. -/
  unknown : σ → τ
  /-- Whether nothing is known of a type. -/
  isUnknown : σ → τ → Bool
  /-- The union of two types. -/
  join : τ → τ → EStateM Breach σ τ
  /-- Whether the first type is a subtype of the second. -/
  isBelow : σ → τ → τ → Except Breach Bool
  /-- The text that shows a type. -/
  display : σ → τ → Except Breach String

namespace TypeSystem

variable {σ α : Type}

/-- A reading of the state, as an action that leaves the state alone. -/
def reading {ε : Type} (read : σ → Except ε α) : EStateM ε σ α := fun s =>
  match read s with
  | .ok a => .ok a s
  | .error e => .error e s

end TypeSystem

end BoxedTypes
