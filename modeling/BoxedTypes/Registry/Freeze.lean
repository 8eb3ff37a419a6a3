import BoxedTypes.Registry.Basic
import BoxedTypes.Registry.Draft

/-!
# Freezing a draft

Freezing turns a draft into a registry: it reads the three slots, derives the
composites in slot order, joins the number and the string composites, and checks
the result.

* An empty slot is reported before anything is joined.
* The composite of a kind whose boxed type is unknown is the bare scalar.
  Joining it with the scalar would give the unknown type, of which every value
  is a member, and the kind could no longer be told from any other.
* The check asks for what a join should give anyway: each scalar and each known
  boxed type is below its composite, and the number and string composites are
  below their union. It reads the lattice as the joins have left it, and the
  first comparison that fails is the one reported.

`freeze` is an action on the lattice. When it fails, the joins that were made up
to then stay made.

The check is an assertion, and `freeze` is the freeze of a build that has its
assertions on. A build that has them off leaves the check out, and the registry
of a complete draft is there what `Registry.derive` answers with. What is logged
on the way is in neither: no event is recorded when a slot is filled, when a
wrapper class is found undeclared or when a draft is frozen, and the texts that
only an event would show are not asked for.
-/

namespace BoxedTypes

/-- Why a draft could not be frozen. -/
inductive FreezeError where
  | slot (e : SlotError)
  | breach (b : Breach)
  deriving DecidableEq, Repr

namespace FreezeError

def message : FreezeError → String
  | .slot e => e.message
  | .breach b => b.message

end FreezeError

namespace Registry

variable {σ τ : Type} [TypeSystem σ τ]

/-- The composite of a kind: the union of its scalar and its boxed type, or the
scalar alone if the boxed type is unknown. -/
def composite (k : Scalar) (boxed : τ) : EStateM Breach σ τ := fun s =>
  if TypeSystem.isUnknown s boxed then .ok (TypeSystem.scalar s k) s
  else TypeSystem.join (TypeSystem.scalar s k) boxed s

/-- The registry of three boxed types, unchecked. -/
def derive (boxed : PerScalar τ) : EStateM Breach σ (Registry τ) := do
  let number ← composite .number boxed.number
  let string ← composite .string boxed.string
  let boolean ← composite .boolean boxed.boolean
  let numberOrString ← TypeSystem.join number string
  return ⟨boxed, ⟨number, string, boolean⟩, numberOrString⟩

/-- Passes if the first type is below the second; otherwise fails with the
breach that the blame words, or with a failure to word it. -/
def check (s : σ) (lower upper : τ) (blame : Except Breach Breach) : Except Breach Unit := do
  if ← TypeSystem.isBelow s lower upper then return ()
  else throw (← blame)

/-- The scalar and the boxed type of a kind are below its composite. An unknown
boxed type is exempt, because its composite is the bare scalar. -/
def checkKind (r : Registry τ) (s : σ) (k : Scalar) : Except Breach Unit := do
  let boxed := r.boxed.get k
  let composite := r.composites.get k
  check s (TypeSystem.scalar s k) composite do
    return .scalarNotBelow k (← TypeSystem.display s composite)
  if TypeSystem.isUnknown s boxed then return ()
  else check s boxed composite do
    return .boxedNotBelow k (← TypeSystem.display s boxed) (← TypeSystem.display s composite)

/-- The composite of a kind is below the number-or-string type. -/
def checkNumberOrString (r : Registry τ) (s : σ) (k : Scalar) : Except Breach Unit :=
  let composite := r.composites.get k
  check s composite r.numberOrString do
    return .compositeNotBelow k (← TypeSystem.display s composite)
      (← TypeSystem.display s r.numberOrString)

/-- All comparisons that a registry relies on, in the order in which they are
made. -/
def checkLaws (r : Registry τ) (s : σ) : Except Breach Unit := do
  Scalar.all.forM (r.checkKind s)
  [Scalar.number, .string].forM (r.checkNumberOrString s)

end Registry

namespace Draft

variable {σ τ : Type} [TypeSystem σ τ]

/-- The registry of a complete draft, checked. -/
def freeze (d : Draft τ) : EStateM FreezeError σ (Registry τ) :=
  match d.complete with
  | .error e => throw (.slot e)
  | .ok boxed => EStateM.adaptExcept .breach do
    let r ← Registry.derive boxed
    TypeSystem.reading r.checkLaws
    return r

end Draft

end BoxedTypes
