import BoxedTypes.Scalar.PerScalar
import BoxedTypes.TypeSystem

/-!
# The registry of boxed types

A `Registry` holds, for each scalar kind, the type of the objects that box it
and the composite: the union of the scalar and its boxed type. It also holds the
union of the number and the string composites. Nothing in it ever changes, so
what it answers depends on the lattice alone.

To ask whether a value of some type is a number, boxed or not, is to ask whether
its type is below the number composite: `admits` is that test for each kind, and
`admitsNumberOrString` the one for the union of two. A type that mixes the two,
such as a bare number or a boxed string, passes the last test without passing
either of the others.
-/

namespace BoxedTypes

/-- The boxed types, their composites, and the union of the number and string
composites. -/
structure Registry (τ : Type) where
  boxed : PerScalar τ
  composites : PerScalar τ
  numberOrString : τ
  deriving DecidableEq, Repr

namespace Registry

variable {σ τ : Type} [TypeSystem σ τ]

/-- Whether the values of a type are scalars of a kind or objects that box
one. -/
def admits (r : Registry τ) (s : σ) (k : Scalar) (ty : τ) : Except Breach Bool :=
  TypeSystem.isBelow s ty (r.composites.get k)

/-- Whether the values of a type are numbers or strings, boxed or not. -/
def admitsNumberOrString (r : Registry τ) (s : σ) (ty : τ) : Except Breach Bool :=
  TypeSystem.isBelow s ty r.numberOrString

/-- The line that shows one kind. -/
def dumpKind (r : Registry τ) (s : σ) (k : Scalar) : Except Breach String := do
  let boxed ← TypeSystem.display s (r.boxed.get k)
  let composite ← TypeSystem.display s (r.composites.get k)
  return s!"{k.name}: {boxed} => {composite}\n"

/-- The registry as text: a line for each kind in slot order and one for the
number-or-string type. -/
def dump (r : Registry τ) (s : σ) : Except Breach String := do
  let kinds ← Scalar.all.mapM (r.dumpKind s)
  let numberOrString ← TypeSystem.display s r.numberOrString
  return String.join kinds ++ s!"num_or_str: {numberOrString}\n"

end Registry

end BoxedTypes
