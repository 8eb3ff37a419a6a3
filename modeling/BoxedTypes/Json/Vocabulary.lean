import BoxedTypes.Json.Value

/-!
# Words of a closed vocabulary

A value of an enumeration is written by its word: as a string, or as an object
with that word for its only key and null for the value. A `Vocabulary` lists the
values of an enumeration with their words.
-/

namespace BoxedTypes.Json

/-- The values of an enumeration in order, and the word for each. -/
structure Vocabulary (α : Type) where
  values : List α
  word : α → String

namespace Vocabulary

variable {α : Type}

def words (v : Vocabulary α) : List String := v.values.map v.word

/-- The value of a word, if it has one. -/
def find? (v : Vocabulary α) (word : String) : Option α := v.values.find? (v.word · == word)

/-- Looks up a word that was read up to the rest of a text. -/
def select (v : Vocabulary α) (word : String) : Reader α := fun rest =>
  match v.find? word with
  | some value => .ok (value, rest)
  | none => .error (faultBefore (.unknownVariant word v.words) rest)

/-- Reads the closing brace behind the one member of an object. -/
def readClose (text : List Char) : Except Fault (List Char) :=
  match skipBlanks text with
  | '\x7d' :: rest => .ok rest
  | [] => .error (faultAtEnd .endInObject)
  | rest => .error (faultBefore .expectedValue rest)

/-- Reads the object form of a word from behind its opening brace. -/
def readMember (v : Vocabulary α) : Reader α := fun text => do
  let (word, rest) ← readString "variant identifier" text
  let (value, rest) ← v.select word rest
  let rest ← readColon rest
  let (_, rest) ← readNull rest
  let rest ← readClose rest
  return (value, rest)

/-- Reads a word in either of its forms. -/
def read (v : Vocabulary α) : Reader α := fun text =>
  match skipBlanks text with
  | [] => .error (faultAtEnd .endInValue)
  | '\x7b' :: rest => v.readMember rest
  | '"' :: rest =>
    match readBody rest with
    | .error f => .error f
    | .ok (word, rest) => v.select (String.ofList word) rest
  | rest => .error (faultWithin .expectedValue rest)

end Vocabulary

end BoxedTypes.Json
