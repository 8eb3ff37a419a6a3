import BoxedTypes.Names
import BoxedTypes.TypeSystem

/-!
# The lattice of interned union types

`UnionTypes` holds the types and the class names that a checker has come across
so far, each in a pool. Types are spoken of by handle. Since a shape is interned
once, two types are the same type exactly if their handles are equal, and
comparing two types never has to look at their atoms.

An object type is declared by its name. The name is interned first and its
symbol then makes the atom; `lookup` goes the same way without interning
anything.

Nothing stops a caller from passing a handle or a symbol of another lattice. Two
equal handles are taken for the same type without looking them up. In every
other case both shapes are fetched, the left one first, before either is looked
at, so that a handle without a shape is reported even if the other type is
unknown and would have decided the answer.
-/

namespace BoxedTypes

/-- The types and the names interned so far. -/
structure UnionTypes where
  shapes : Pool Shape
  names : Names

namespace UnionTypes

/-- The handle of a shape, and the lattice with the shape in it. -/
def intern (u : UnionTypes) (s : Shape) : TypeId × UnionTypes :=
  let (h, shapes) := u.shapes.intern s
  (⟨h⟩, { u with shapes })

/-- The shapes every lattice starts with, in the order of their handles. -/
def builtins : List Shape :=
  .unknown :: .union ∅ :: Scalar.all.map fun k => .atom (.ofScalar k)

/-- The built-in types alone, and no names. -/
def new : UnionTypes :=
  builtins.foldl (fun u s => let (_, u) := u.intern s; u) ⟨.empty, .empty⟩

instance : Inhabited UnionTypes := ⟨new⟩

/-- How many types there are, the built-in ones included. -/
def typeCount (u : UnionTypes) : Nat := u.shapes.size

/-- The shape under a handle, if there is one. -/
def shape? (u : UnionTypes) (id : TypeId) : Option Shape := u.shapes.get? id.index

/-- The shape under a handle that the caller promises to have got from this
lattice. -/
def shape (u : UnionTypes) (id : TypeId) : Except Breach Shape :=
  match u.shape? id with
  | some s => .ok s
  | none => .error (.missingType id)

theorem shape_eq_ok_iff {u : UnionTypes} {id : TypeId} {s : Shape} :
    u.shape id = .ok s ↔ u.shape? id = some s := by
  unfold shape
  cases u.shape? id <;> simp

/-! ## Atoms and objects -/

/-- The type of one atom. -/
def atom (u : UnionTypes) (a : Atom) : TypeId × UnionTypes := u.intern (.atom a)

/-- The type of the null value. -/
def null (u : UnionTypes) : TypeId × UnionTypes := u.atom .null

/-- The type of the undefined value. -/
def undefined (u : UnionTypes) : TypeId × UnionTypes := u.atom .undefined

/-- The type of the objects of the class of a name, declared if it was not. -/
def object (u : UnionTypes) (name : String) : TypeId × UnionTypes :=
  let (symbol, names) := u.names.declare name
  { u with names }.atom (.object symbol)

/-- The type of the objects of the class of a name, if it was declared. -/
def lookup (u : UnionTypes) (name : String) : Option TypeId := do
  let symbol ← u.names.symbol? name
  let h ← u.shapes.find? (.atom (.object symbol))
  return ⟨h⟩

/-- The name behind a symbol that the caller promises to have got from this
lattice. -/
def objectName (u : UnionTypes) (symbol : Symbol) : Except Breach String := u.names.resolve symbol

/-! ## The lattice -/

/-- The union of two types. -/
def join (a b : TypeId) : EStateM Breach UnionTypes TypeId := fun u =>
  if a = b then .ok a u
  else
    match u.shape a, u.shape b with
    | .error e, _ => .error e u
    | .ok _, .error e => .error e u
    | .ok (.union as), .ok (.union bs) =>
      let (id, u) := u.intern (.union (as ∪ bs))
      .ok id u
    | .ok _, .ok _ => .ok .unknown u

/-- The union of any number of types, joined from the left; of none, the bottom
type. -/
def union (members : List TypeId) : EStateM Breach UnionTypes TypeId :=
  members.foldlM join .bottom

/-- Whether the first type is a subtype of the second. -/
def isBelow (u : UnionTypes) (a b : TypeId) : Except Breach Bool :=
  if a = b then .ok true
  else
    match u.shape a, u.shape b with
    | .error e, _ => .error e
    | .ok _, .error e => .error e
    | .ok s, .ok t => .ok (decide (s.IsBelow t))

/-! ## Display -/

/-- The word for an atom: its own for a built-in atom, the class name for an
object atom. -/
def atomName (u : UnionTypes) : Atom → Except Breach String
  | .number => .ok "number"
  | .string => .ok "string"
  | .boolean => .ok "boolean"
  | .null => .ok "null"
  | .undefined => .ok "undefined"
  | .object symbol => u.objectName symbol

/-- The text of a shape: the words of its atoms in their order, with a bar
between them. -/
def showShape (u : UnionTypes) : Shape → Except Breach String
  | .unknown => .ok "?"
  | .union as =>
    match as.toList with
    | [] => .ok "bottom"
    | atoms => (atoms.mapM u.atomName).map ("|".intercalate ·)

/-- The text that shows a type. -/
def display (u : UnionTypes) (id : TypeId) : Except Breach String := do
  u.showShape (← u.shape id)

instance : TypeSystem UnionTypes TypeId where
  scalar _ k := .ofScalar k
  unknown _ := .unknown
  isUnknown _ id := id = .unknown
  join := join
  isBelow := isBelow
  display := display

end UnionTypes

end BoxedTypes
