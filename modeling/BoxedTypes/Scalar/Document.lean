import BoxedTypes.Json.Document
import BoxedTypes.Json.Vocabulary
import BoxedTypes.Scalar.Basic

/-!
# Scalar kinds as documents

A kind is written by its word. Of the two forms in which a word can be read, the
string is the one that is written.
-/

namespace BoxedTypes.Scalar

/-- The words for the kinds. -/
def vocabulary : Json.Vocabulary Scalar := ⟨all, name⟩

theorem find?_vocabulary_name (k : Scalar) : vocabulary.find? k.name = some k := by
  cases k <;> decide

/-- The kind that a document writes. -/
def ofJson (document : String) : Except Json.Fault Scalar :=
  Json.readDocument vocabulary.read document

/-- The document for a kind. No word has a character that would have to be
escaped. -/
def toJson (k : Scalar) : String := "\"" ++ k.name ++ "\""

end BoxedTypes.Scalar
