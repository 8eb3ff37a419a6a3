import BoxedTypes.Decimal.Layout
import BoxedTypes.Text.Quoted

/-!
# Faults in a document

A document that cannot be read is refused with one `Fault`: what is wrong, and
where. The reason is a cause and not a text; `Reason.message` is the wording.

The place of a fault is kept as the number of bytes of the document that are
left behind it. A reader knows only the part of the document it still has to
read, so this is a number it can give, and it does not change when more text is
put in front. `Fault.place` turns it into a line and a column once the whole
document is at hand. A place may lie inside a character, because some faults are
found one byte into it; lines and columns are counted in bytes for the same
reason.
-/

namespace BoxedTypes.Json

/-- What was found where another kind of value was wanted. -/
inductive Found where
  | null
  | boolean (value : Bool)
  | integer (value : Int)
  | float (value : Float)
  | string (value : String)
  | sequence
  | map
  deriving Repr

namespace Found

def message : Found → String
  | .null => "null"
  | .boolean value => s!"boolean `{value}`"
  | .integer value => s!"integer `{value}`"
  | .float value => "floating point `" ++ Decimal.Layout.standard.renderFloat value ++ "`"
  | .string value => "string " ++ Text.quote value
  | .sequence => "sequence"
  | .map => "map"

end Found

/-- Names between backticks, as the ones to choose from. There is always at least
one. -/
def choice (names : List String) : String :=
  match names.map fun name => s!"`{name}`" with
  | [name] => name
  | [first, second] => s!"{first} or {second}"
  | names => "one of " ++ ", ".intercalate names

/-- Why a document was refused. -/
inductive Reason where
  | endInList
  | endInObject
  | endInString
  | endInValue
  | expectedColon
  | expectedCommaOrBracket
  | expectedCommaOrBrace
  | expectedIdent
  | expectedValue
  | invalidEscape
  | invalidNumber
  | numberOutOfRange
  | controlCharacter
  | keyMustBeString
  | loneSurrogate
  | trailingComma
  | trailingCharacters
  | endOfHexEscape
  | wrongType (found : Found) (wanted : String)
  | unknownField (name : String) (fields : List String)
  | unknownVariant (name : String) (variants : List String)
  | duplicateField (name : String)
  deriving Repr

namespace Reason

def message : Reason → String
  | .endInList => "EOF while parsing a list"
  | .endInObject => "EOF while parsing an object"
  | .endInString => "EOF while parsing a string"
  | .endInValue => "EOF while parsing a value"
  | .expectedColon => "expected `:`"
  | .expectedCommaOrBracket => "expected `,` or `]`"
  | .expectedCommaOrBrace => "expected `,` or `\x7d`"
  | .expectedIdent => "expected ident"
  | .expectedValue => "expected value"
  | .invalidEscape => "invalid escape"
  | .invalidNumber => "invalid number"
  | .numberOutOfRange => "number out of range"
  | .controlCharacter => "control character (\\u0000-\\u001F) found while parsing a string"
  | .keyMustBeString => "key must be a string"
  | .loneSurrogate => "lone leading surrogate in hex escape"
  | .trailingComma => "trailing comma"
  | .trailingCharacters => "trailing characters"
  | .endOfHexEscape => "unexpected end of hex escape"
  | .wrongType found wanted => s!"invalid type: {found.message}, expected {wanted}"
  | .unknownField name fields => s!"unknown field `{name}`, expected {choice fields}"
  | .unknownVariant name variants => s!"unknown variant `{name}`, expected {choice variants}"
  | .duplicateField name => s!"duplicate field `{name}`"

end Reason

/-- A reason to refuse a document, and the number of bytes behind the place
where it was found. -/
structure Fault where
  reason : Reason
  left : Nat
  deriving Repr

/-- A line and a column, in bytes. -/
structure Place where
  line : Nat
  column : Nat
  deriving DecidableEq, Repr

/-- The place behind some bytes. Lines are counted from one, columns from
zero. -/
def Place.after (bytes : List UInt8) : Place :=
  ⟨1 + bytes.count 10, (bytes.reverse.takeWhile (· ≠ 10)).length⟩

namespace Fault

/-- Where in a document the fault was found. -/
def place (f : Fault) (document : String) : Place :=
  .after (document.toUTF8.toList.take (document.utf8ByteSize - f.left))

def message (f : Fault) (document : String) : String :=
  let p := f.place document
  s!"{f.reason.message} at line {p.line} column {p.column}"

end Fault

/-- The number of bytes of a text. -/
def bytes (text : List Char) : Nat := (String.ofList text).utf8ByteSize

/-- A fault right in front of the rest of a document. -/
def faultBefore (reason : Reason) (rest : List Char) : Fault := ⟨reason, bytes rest⟩

/-- A fault one byte into the rest of a document, or at its end if there is no
rest. -/
def faultWithin (reason : Reason) (rest : List Char) : Fault := ⟨reason, bytes rest - 1⟩

/-- A fault at the end of a document. -/
def faultAtEnd (reason : Reason) : Fault := ⟨reason, 0⟩

/-- Takes a value off the front of a text, and gives the value and the rest. -/
abbrev Reader (α : Type) := List Char → Except Fault (α × List Char)

end BoxedTypes.Json
