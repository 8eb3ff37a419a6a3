import BoxedTypes.Shape

/-!
# Broken contracts

Some failures are no answers to a question but signs that the caller or the
lattice broke a promise: a handle used with a lattice that never issued it, or a
join that is no upper bound of its operands. A `Breach` is such a failure, by
cause; `Breach.message` is its wording.

A breach ends the operation that meets it, but it takes nothing back: what the
operation had already put into the lattice stays there. That is why the
operations that can meet one are run in `EStateM`, whose results carry the state
left behind in either case.
-/

namespace BoxedTypes

inductive Breach where
  /-- The lattice has no type under this handle. -/
  | missingType (id : TypeId)
  /-- A symbol reaches beyond the names of its lattice. -/
  | unnamedSymbol (symbol : Symbol) (names : Nat)
  /-- The composite of a kind is not above the scalar of the kind. -/
  | scalarNotBelow (kind : Scalar) (composite : String)
  /-- The composite of a kind is not above the boxed type of the kind. -/
  | boxedNotBelow (kind : Scalar) (boxed composite : String)
  /-- The number-or-string type is not above the composite of a kind. -/
  | compositeNotBelow (kind : Scalar) (composite bound : String)
  deriving DecidableEq, Repr

namespace Breach

def message : Breach → String
  | .missingType id =>
    s!"UnionLattice: type id {id.index.toNat} not found " ++
      "(TypeIds are only valid for the lattice that issued them)"
  | .unnamedSymbol symbol names =>
    s!"index out of bounds: the len is {names} but the index is {symbol.index.toNat}"
  | .scalarNotBelow kind composite =>
    s!"CanonicalTypes: {kind.name} scalar is not below its composite {composite}"
  | .boxedNotBelow kind boxed composite =>
    s!"CanonicalTypes: {kind.name} instance {boxed} is not below its composite {composite}"
  | .compositeNotBelow kind composite bound =>
    s!"CanonicalTypes: {kind.name} composite {composite} is not below {bound}"

end Breach

end BoxedTypes
