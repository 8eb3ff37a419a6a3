import BoxedTypes.Scalar.PerScalar

/-!
# Settings

The names under which the wrapper classes are declared differ between standard
libraries, and some libraries declare only some of them. `Settings` says which
names to look for and what to make of a name that is not declared.
-/

namespace BoxedTypes

/-- What to make of a wrapper class that is not declared. -/
inductive MissingWrapper where
  /-- Its objects have the unknown type. -/
  | unknown
  /-- Nothing is known to be there, and the slot cannot be filled. -/
  | reject
  deriving DecidableEq, Repr, Inhabited

namespace MissingWrapper

/-- Both policies. -/
def all : List MissingWrapper := [.unknown, .reject]

/-- The word for a policy in documents. -/
def name : MissingWrapper → String
  | .unknown => "unknown"
  | .reject => "reject"

end MissingWrapper

/-- The names of the wrapper classes, and what to do about one that is
missing. -/
structure Settings where
  wrappers : PerScalar String
  missingWrapper : MissingWrapper
  deriving DecidableEq, Repr

namespace Settings

/-- The names that the classes have in the language itself, and the lenient
policy. -/
def default : Settings := ⟨⟨"Number", "String", "Boolean"⟩, .unknown⟩

instance : Inhabited Settings := ⟨default⟩

/-- The same settings with another name for the wrapper class of a kind. -/
def withWrapper (c : Settings) (k : Scalar) (name : String) : Settings :=
  { c with wrappers := c.wrappers.set k name }

/-- The same settings with another policy. -/
def withMissingWrapper (c : Settings) (policy : MissingWrapper) : Settings :=
  { c with missingWrapper := policy }

end Settings

end BoxedTypes
