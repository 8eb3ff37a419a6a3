import BoxedTypes.Registry.Freeze
import BoxedTypes.Settings.Basic

/-!
# Seeding a draft from declarations

The declarations of a standard library give types to names. Seeding looks up the
wrapper class of each kind by its configured name, in slot order, and offers
what it finds to the slot of the kind. A name that is not declared is settled by
the policy: either the unknown type is offered or nothing is, and an offer of
nothing is refused. Seeding stops at the first refusal; the slots that it filled
before stay filled.
-/

namespace BoxedTypes

/-- The declared names with their types, in the order of first declaration, each
name once. -/
structure Declarations (τ : Type) where
  entries : List (String × τ)
  deriving Repr

namespace Declarations

variable {τ : Type}

def empty : Declarations τ := ⟨[]⟩

/-- The type of a name, if the name is declared. -/
def find? (d : Declarations τ) (name : String) : Option τ :=
  (d.entries.find? (·.1 = name)).map Prod.snd

/-- Replaces the entry of a name where it stands, or adds one at the end. -/
def put (name : String) (ty : τ) : List (String × τ) → List (String × τ)
  | [] => [(name, ty)]
  | e :: es => if e.1 = name then (name, ty) :: es else e :: put name ty es

/-- Declares a name. A name that was declared before keeps its place and gets
the new type. -/
def declare (d : Declarations τ) (name : String) (ty : τ) : Declarations τ :=
  ⟨put name ty d.entries⟩

/-- The declarations made one after another. -/
def ofList (entries : List (String × τ)) : Declarations τ :=
  entries.foldl (fun d e => d.declare e.1 e.2) empty

theorem find?_put (name other : String) (ty : τ) (es : List (String × τ)) :
    ((put name ty es).find? (·.1 = other)).map Prod.snd =
      if name = other then some ty else (es.find? (·.1 = other)).map Prod.snd := by
  induction es with
  | nil => by_cases h : name = other <;> simp [put, h]
  | cons e es ih => by_cases he : e.1 = name <;> by_cases h : name = other <;> grind [put]

theorem find?_declare (d : Declarations τ) (name other : String) (ty : τ) :
    (d.declare name ty).find? other = if name = other then some ty else d.find? other :=
  find?_put name other ty d.entries

end Declarations

namespace Settings

variable {σ τ : Type} [TypeSystem σ τ]

/-- What the declarations have to offer to the slot of a kind. -/
def offer (c : Settings) (s : σ) (decls : Declarations τ) (k : Scalar) : Option τ :=
  match decls.find? (c.wrappers.get k), c.missingWrapper with
  | some ty, _ => some ty
  | none, .unknown => some (TypeSystem.unknown s)
  | none, .reject => none

end Settings

namespace Draft

variable {σ τ : Type} [TypeSystem σ τ]

/-- Fills the slots from declarations, in slot order. -/
def seed (s : σ) (decls : Declarations τ) (c : Settings) : EStateM SlotError (Draft τ) Unit :=
  Scalar.all.forM fun k => set k (c.offer s decls k)

end Draft

namespace Registry

variable {σ τ : Type} [TypeSystem σ τ]

/-- The registry of a set of declarations. -/
def ofDeclarations (decls : Declarations τ) (c : Settings) : EStateM FreezeError σ (Registry τ) :=
  fun s =>
    match Draft.seed s decls c .new with
    | .error e _ => .error (.slot e) s
    | .ok () d => d.freeze s

end Registry

end BoxedTypes
