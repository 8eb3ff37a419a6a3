import BoxedTypes.Json.Strings

/-!
# Whole documents

A document is one value with nothing but blanks around it.
-/

namespace BoxedTypes.Json

/-- Reads a whole document. -/
def readDocument {α : Type} (read : Reader α) (document : String) : Except Fault α :=
  match read document.toList with
  | .error f => .error f
  | .ok (value, rest) =>
    match skipBlanks rest with
    | [] => .ok value
    | rest => .error (faultWithin .trailingCharacters rest)

end BoxedTypes.Json
