import BoxedTypes.Scalar.PerScalar

/-!
# Drafts of a registry

A registry is filled before it is used. While it is being filled it is a
`Draft`: one slot for each scalar kind, empty at first, for the type of the
objects that box the scalar. A slot goes from empty to filled once and never
back, and it is not filled twice, not even with the same type: a second filling
means that two parts of a checker both believe the registry to be theirs.

`set` therefore looks at the slot before it looks at what it is given, so an
offer to a filled slot is refused as a second filling even when nothing was
offered. A refused offer leaves the draft as it was.
-/

namespace BoxedTypes

/-- Why a slot could not be filled or read. -/
inductive SlotError where
  | alreadySet (kind : Scalar)
  | absentInstance (kind : Scalar)
  | unset (kind : Scalar)
  deriving DecidableEq, Repr

namespace SlotError

def message : SlotError → String
  | .alreadySet kind => s!"{kind.name} instance is already set"
  | .absentInstance kind => s!"{kind.name} instance must not be absent"
  | .unset kind => s!"{kind.name} instance was never set"

end SlotError

/-- The slots of a registry that is being filled. -/
structure Draft (τ : Type) where
  slots : PerScalar (Option τ)
  deriving DecidableEq, Repr

namespace Draft

variable {τ : Type}

/-- All slots empty. -/
def new : Draft τ := ⟨.const none⟩

instance : Inhabited (Draft τ) := ⟨new⟩

/-- Offers a type, or nothing, to the slot of a kind. -/
def set (k : Scalar) (offer : Option τ) : EStateM SlotError (Draft τ) Unit := fun d =>
  match d.slots.get k, offer with
  | some _, _ => .error (.alreadySet k) d
  | none, none => .error (.absentInstance k) d
  | none, some ty => .ok () ⟨d.slots.set k (some ty)⟩

/-- Offers a type to the slot of numbers. -/
def setNumber (ty : τ) : EStateM SlotError (Draft τ) Unit := set .number (some ty)

/-- Offers a type to the slot of strings. -/
def setString (ty : τ) : EStateM SlotError (Draft τ) Unit := set .string (some ty)

/-- Offers a type to the slot of booleans. -/
def setBoolean (ty : τ) : EStateM SlotError (Draft τ) Unit := set .boolean (some ty)

def isSet (d : Draft τ) (k : Scalar) : Bool := (d.slots.get k).isSome

/-- The kinds whose slots are still empty, in slot order. -/
def pending (d : Draft τ) : List Scalar := Scalar.all.filter fun k => !d.isSet k

/-- The type in the slot of a kind that should be filled by now. -/
def filled (d : Draft τ) (k : Scalar) : Except SlotError τ :=
  match d.slots.get k with
  | some ty => .ok ty
  | none => .error (.unset k)

/-- The types in all slots; the first empty slot, in slot order, is reported. -/
def complete (d : Draft τ) : Except SlotError (PerScalar τ) := do
  return ⟨← d.filled .number, ← d.filled .string, ← d.filled .boolean⟩

end Draft

end BoxedTypes
