import BoxedTypes.Json.Document
import BoxedTypes.Json.Record
import BoxedTypes.Json.Vocabulary
import BoxedTypes.Settings.Basic

/-!
# Settings as a document

Settings are written as a record with two fields: the wrapper names, themselves
a record with a field for each scalar kind, and the policy for missing wrappers,
a word. Whatever is left out is as in `Settings.default`.
-/

namespace BoxedTypes

/-- The words for the policies. -/
def MissingWrapper.vocabulary : Json.Vocabulary MissingWrapper := ⟨all, name⟩

theorem MissingWrapper.find?_vocabulary_name (p : MissingWrapper) :
    vocabulary.find? p.name = some p := by
  cases p <;> decide

namespace Settings

/-- The field for the wrapper name of a kind. -/
def wrapperField (k : Scalar) : Json.Field (PerScalar String) where
  name := k.name
  read names text :=
    (Json.readString "a string" text).map fun (name, rest) => (names.set k name, rest)

/-- The record of the wrapper names. -/
def wrapperRecord : Json.Record (PerScalar String) :=
  ⟨"struct WrapperNames", Scalar.all.map wrapperField, default.wrappers⟩

/-- The field for all wrapper names. -/
def wrappersField : Json.Field Settings where
  name := "wrappers"
  read c text := (wrapperRecord.read text).map fun (wrappers, rest) => ({ c with wrappers }, rest)

/-- The field for the policy. -/
def missingWrapperField : Json.Field Settings where
  name := "missing_wrapper"
  read c text :=
    (MissingWrapper.vocabulary.read text).map fun (missingWrapper, rest) =>
      ({ c with missingWrapper }, rest)

/-- The record of the settings. -/
def record : Json.Record Settings :=
  ⟨"struct Config", [wrappersField, missingWrapperField], default⟩

/-- The settings that a document writes. -/
def ofJson (document : String) : Except Json.Fault Settings :=
  Json.readDocument record.read document

/-- The message for a document that was refused as settings. -/
def faultMessage (f : Json.Fault) (document : String) : String :=
  s!"invalid registry configuration: {f.message document}"

end Settings

end BoxedTypes
