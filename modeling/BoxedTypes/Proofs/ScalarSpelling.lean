import BoxedTypes.Proofs.WordSpelling
import BoxedTypes.Scalar.Document

/-!
# How scalar kinds are spelled

A scalar kind is written by its word and by nothing else. `Written` are the
documents that write it, and `ofJson_eq_ok_iff` says that these are the
documents that are read for it. As every document is either read or refused, the
refused ones are known as well.

A word is compared letter by letter once its escapes are resolved. So a string
that differs from the words in the case of a letter is refused, however it is
spelled and whatever stands behind it. A kind is written as a plain string, one
of its spellings, and so what was read is read again from what is written for
it.
-/

namespace BoxedTypes.Scalar

open Json

/-- The document writes the kind by its word, as a string or as the one key of
an object, with nothing but blanks around it. -/
def Written (k : Scalar) (document : String) : Prop :=
  ∃ blanks text blanks', Blanks blanks ∧ vocabulary.Form k text ∧ Blanks blanks' ∧
    document.toList = blanks ++ (text ++ blanks')

variable {k : Scalar} {document : String}

theorem ofJson_eq_ok_iff : ofJson document = .ok k ↔ k.Written document := by
  rw [ofJson, (Vocabulary.takes_read find?_vocabulary_name).readDocument_eq_ok_iff]
  constructor
  · intro h
    obtain ⟨_, blanks', ⟨blanks, text, hblanks, hform, rfl⟩, hblanks', htext⟩ := h
    exact ⟨blanks, text, blanks', hblanks, hform, hblanks', by rw [htext, List.append_assoc]⟩
  · intro h
    obtain ⟨blanks, text, blanks', hblanks, hform, hblanks', htext⟩ := h
    exact ⟨blanks ++ text, blanks', ⟨blanks, text, hblanks, hform, rfl⟩, hblanks',
      by rw [htext, List.append_assoc]⟩

/-- Every other document is refused. -/
theorem exists_error_iff :
    (∃ f, ofJson document = .error f) ↔ ∀ k : Scalar, ¬ k.Written document := by
  simp only [← ofJson_eq_ok_iff]
  cases h : ofJson document with
  | error f => simp
  | ok k => simp

theorem find?_vocabulary_eq_none {word : String} (h : ∀ k : Scalar, k.name ≠ word) :
    vocabulary.find? word = none := by
  rw [Vocabulary.find?, List.find?_eq_none]
  intro k _ hk
  exact h k (eq_of_beq hk)

/-- A string that is no word of a kind is refused when it has been read. -/
theorem ofJson_of_other_word {word : String} (hword : ∀ k : Scalar, k.name ≠ word)
    {blanks quoted rest : List Char} (hblanks : Blanks blanks) (hquoted : Quoted word quoted)
    (htext : document.toList = blanks ++ (quoted ++ rest)) :
    ofJson document =
      .error (faultBefore (.unknownVariant word ["number", "string", "boolean"]) rest) := by
  obtain ⟨text, rfl⟩ := exists_mark hquoted
  have hbody : readBody (text ++ rest) = .ok (word.toList, rest) := readBody_of_quoted hquoted rfl
  have hread : vocabulary.read document.toList =
      .error (faultBefore (.unknownVariant word ["number", "string", "boolean"]) rest) := by
    rw [htext, List.cons_append, Vocabulary.read,
      skipBlanks_behind hblanks (rfl : isBlank '"' = false)]
    simp only [hbody, String.ofList_toList, Vocabulary.select, find?_vocabulary_eq_none hword]
    rfl
  rw [ofJson, readDocument, hread]

theorem plain_name (k : Scalar) : ∀ c ∈ k.name.toList, Plain c := by
  cases k <;> simp [name, Plain]

/-- What is written for a kind is one of its spellings. -/
theorem written_toJson (k : Scalar) : k.Written k.toJson :=
  ⟨[], _, [], .nil, .string (.raw k.plain_name), .nil, by simp [toJson, vocabulary]⟩

/-- A document is read for a kind if it writes that kind by its word and for
nothing if it writes none. A string that is no word is refused for that,
whatever stands behind it, and a word that differs in the case of a letter is
such a string. What was read is read again from what is written for it, which is
one more spelling of it. -/
theorem ofJson_outcome (document : String) :
    (∀ k, ofJson document = .ok k ↔ k.Written document) ∧
    ((∃ f, ofJson document = .error f) ↔ ∀ k : Scalar, ¬ k.Written document) ∧
    (∀ word blanks quoted rest, (∀ k : Scalar, k.name ≠ word) → Blanks blanks →
      Quoted word quoted → document.toList = blanks ++ (quoted ++ rest) →
      ofJson document =
        .error (faultBefore (.unknownVariant word ["number", "string", "boolean"]) rest)) ∧
    ∀ k, ofJson document = .ok k → k.Written k.toJson ∧ ofJson k.toJson = .ok k := by
  refine ⟨fun k => ofJson_eq_ok_iff, exists_error_iff, ?_, fun k _ => ?_⟩
  · intro word blanks quoted rest hword hblanks hquoted htext
    exact ofJson_of_other_word hword hblanks hquoted htext
  · exact ⟨k.written_toJson, ofJson_eq_ok_iff.mpr k.written_toJson⟩

/-- The word is the key of an object and has an escape, and there are blanks in
all places. With another first letter it is no word. -/
theorem ofJson_outcome_escaped :
    let document := "\t\x7b \"n\\u0075mber\"\n:null \x7d\r"
    number.Written document ∧ ofJson document = .ok .number ∧
    ofJson number.toJson = .ok .number ∧
    ofJson " \"Number\"," =
      .error ⟨.unknownVariant "Number" ["number", "string", "boolean"], 1⟩ := by
  intro document
  have hspace : Blanks [' '] := by decide
  have hline : Blanks ['\n'] := by decide
  have hword : Quoted "number" _ :=
    have hunit : HexUnit 'u'.toNat ['0', '0', '7', '5'] := hexUnit?_eq_some_iff.mp (by decide)
    .unit ['n'] 'u' ['m', 'b', 'e', 'r'] (by decide) (by simp [Plain]) (by simp [Plain]) hunit
  have hform : vocabulary.Form .number _ :=
    .member ⟨[' '], _, hspace, hword, rfl⟩ hline (.none .word) hspace
  have hwritten : number.Written document :=
    ⟨['\t'], _, ['\r'], by decide, hform, by decide, by decide⟩
  have hother : Quoted "Number" _ := .raw (by simp [Plain])
  have hcase : ∀ k : Scalar, k.name ≠ "Number" := by
    intro k
    cases k <;> decide
  obtain ⟨hread, -, -, hagain⟩ := ofJson_outcome document
  obtain ⟨-, -, hrefused, -⟩ := ofJson_outcome " \"Number\","
  have hnumber := (hread .number).mpr hwritten
  exact ⟨hwritten, hnumber, (hagain .number hnumber).2,
    hrefused "Number" [' '] _ [','] hcase hspace hother (by decide)⟩

end BoxedTypes.Scalar
