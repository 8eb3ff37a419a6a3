import BoxedTypes.Json.Number
import BoxedTypes.Json.Strings

/-!
# Values in documents

A value may be preceded by blanks, and the first character behind them tells
what kind of value it is. A reader that wants another kind than the one it meets
refuses the document, and the refusal says what was found. To say that, a word,
a number or a string has to be read first, and if it is not well formed then
this is the fault that is reported; a sequence or a map is recognised by its
bracket alone.
-/

namespace BoxedTypes.Json

/-- Reads the rest of a word. -/
def readWord : List Char → List Char → Except Fault (List Char)
  | [], text => .ok text
  | _ :: _, [] => .error (faultAtEnd .endInValue)
  | w :: ws, c :: rest =>
    if c = w then readWord ws rest else .error (faultWithin .expectedIdent (c :: rest))

/-- Reads the value at the front of a text as far as is needed to say what it
is. -/
def readFound : Reader Found
  | 'n' :: rest => (readWord "ull".toList rest).map (.null, ·)
  | 't' :: rest => (readWord "rue".toList rest).map (.boolean true, ·)
  | 'f' :: rest => (readWord "alse".toList rest).map (.boolean false, ·)
  | '-' :: rest => (readNumber true rest).map fun (n, rest) => (n.found, rest)
  | '"' :: rest => (readBody rest).map fun (s, rest) => (.string (String.ofList s), rest)
  | '[' :: rest => .ok (.sequence, '[' :: rest)
  | '\x7b' :: rest => .ok (.map, '\x7b' :: rest)
  | text =>
    match text with
    | c :: _ =>
      if isDigit c then (readNumber false text).map fun (n, rest) => (n.found, rest)
      else .error (faultWithin .expectedValue text)
    | [] => .error (faultWithin .expectedValue text)

/-- The fault of a text that goes on with another kind of value than is
wanted. -/
def wrongType (wanted : String) (text : List Char) : Fault :=
  match readFound text with
  | .ok (found, rest) => faultBefore (.wrongType found wanted) rest
  | .error f => f

/-- Reads a string value; `wanted` is what to call it in a refusal. -/
def readString (wanted : String) : Reader String := fun text =>
  match skipBlanks text with
  | [] => .error (faultAtEnd .endInValue)
  | '"' :: rest => (readBody rest).map fun (s, rest) => (String.ofList s, rest)
  | rest => .error (wrongType wanted rest)

/-- Reads a null value. -/
def readNull : Reader Unit := fun text =>
  match skipBlanks text with
  | [] => .error (faultAtEnd .endInValue)
  | 'n' :: rest => (readWord "ull".toList rest).map ((), ·)
  | rest => .error (wrongType "unit" rest)

/-- Reads the colon between the name and the value of a member. -/
def readColon (text : List Char) : Except Fault (List Char) :=
  match skipBlanks text with
  | ':' :: rest => .ok rest
  | [] => .error (faultAtEnd .endInObject)
  | rest => .error (faultWithin .expectedColon rest)

end BoxedTypes.Json
