import BoxedTypes.Json.Document
import BoxedTypes.Json.Value
import BoxedTypes.Proofs.StringSpelling
import Mathlib.Data.List.TakeWhile

/-!
# How values are spelled

Blanks may stand in front of every token, and `Spaced` puts them in front of the
texts of a form. A reader skips them and then looks at one character to see what
it has, so it takes a spaced form if it takes the form from where the blanks end
(`takes_spaced`). That the form does not begin with a blank itself is what keeps
the two apart.

The last fact is about whole documents: what is read from one is what its text
is written for, with blanks on either side and nothing else.
-/

namespace BoxedTypes.Json

/-- Any number of the characters that may stand between tokens. -/
def Blanks (text : List Char) : Prop := ∀ c ∈ text, c ∈ [' ', '\n', '\t', '\r']

instance (text : List Char) : Decidable (Blanks text) :=
  List.decidableBAll _ text

theorem Blanks.nil : Blanks [] := nofun

/-- A text of the form behind any number of blanks. -/
def Spaced {α : Type} (form : α → List Char → Prop) (x : α) (text : List Char) : Prop :=
  ∃ blanks core, Blanks blanks ∧ form x core ∧ text = blanks ++ core

theorem Spaced.none {α : Type} {form : α → List Char → Prop} {x : α} {text : List Char}
    (h : form x text) : Spaced form x text :=
  ⟨[], text, .nil, h, rfl⟩

/-- The texts of the form begin as values do: with a mark, with an opening
bracket or brace, or with the word for null. -/
def Starts {α : Type} (form : α → List Char → Prop) : Prop :=
  ∀ x text, form x text → ∃ c rest, c ∈ ['"', '[', '\x7b', 'n'] ∧ text = c :: rest

theorem Starts.exists_head {α : Type} {form : α → List Char → Prop} (h : Starts form) {x : α}
    {text : List Char} (hx : form x text) :
    ∃ c rest, isBlank c = false ∧ c ≠ ']' ∧ text = c :: rest := by
  have hall : ∀ c ∈ ['"', '[', '\x7b', 'n'], isBlank c = false ∧ c ≠ ']' := by simp [isBlank]
  obtain ⟨c, rest, hc, htext⟩ := h x text hx
  exact ⟨c, rest, (hall c hc).1, (hall c hc).2, htext⟩

/-! ## Blanks -/

theorem isBlank_iff {c : Char} : isBlank c = true ↔ c ∈ [' ', '\n', '\t', '\r'] := by
  simp [isBlank, or_assoc]

theorem skipBlanks_append {blanks : List Char} (h : Blanks blanks) (text : List Char) :
    skipBlanks (blanks ++ text) = skipBlanks text :=
  List.dropWhile_append_of_pos fun c hc => isBlank_iff.mpr (h c hc)

theorem skipBlanks_eq_nil_iff {text : List Char} : skipBlanks text = [] ↔ Blanks text := by
  simp only [skipBlanks, List.dropWhile_eq_nil_iff, isBlank_iff, Blanks]

theorem exists_blanks (text : List Char) :
    ∃ blanks, Blanks blanks ∧ text = blanks ++ skipBlanks text :=
  ⟨text.takeWhile isBlank, fun _ hc => isBlank_iff.mp (List.mem_takeWhile_imp hc),
    List.takeWhile_append_dropWhile.symm⟩

/-- Behind blanks a text goes on with a character that is none. -/
theorem skipBlanks_eq_cons_iff {text rest : List Char} {c : Char} :
    skipBlanks text = c :: rest ↔
      isBlank c = false ∧ ∃ blanks, Blanks blanks ∧ text = blanks ++ c :: rest := by
  constructor
  · intro h
    have hc := List.head?_dropWhile_not isBlank text
    obtain ⟨blanks, hblanks, htext⟩ := exists_blanks text
    rw [show text.dropWhile isBlank = c :: rest from h] at hc
    rw [h] at htext
    exact ⟨hc, blanks, hblanks, htext⟩
  · rintro ⟨hc, blanks, hblanks, rfl⟩
    rw [skipBlanks_append hblanks, skipBlanks, List.dropWhile_cons_of_neg (by simp [hc])]

theorem skipBlanks_behind {blanks : List Char} (h : Blanks blanks) {c : Char}
    (hc : isBlank c = false) (rest : List Char) : skipBlanks (blanks ++ c :: rest) = c :: rest :=
  skipBlanks_eq_cons_iff.mpr ⟨hc, blanks, h, rfl⟩

/-! ## Values -/

/-- A reader that takes the texts of a form from behind the blanks takes them
together with the blanks. -/
theorem takes_spaced {α : Type} {read : Reader α} {form : α → List Char → Prop}
    (hstarts : Starts form)
    (hread : ∀ text x rest, read text = .ok (x, rest) ↔
      ∃ spelled, form x spelled ∧ skipBlanks text = spelled ++ rest) :
    Takes read (Spaced form) := by
  intro text x rest
  rw [hread]
  constructor
  · rintro ⟨spelled, hx, hskip⟩
    obtain ⟨c, spelled', -, -, rfl⟩ := hstarts.exists_head hx
    obtain ⟨-, blanks, hblanks, rfl⟩ := skipBlanks_eq_cons_iff.mp hskip
    exact ⟨_, ⟨blanks, _, hblanks, hx, rfl⟩, by simp⟩
  · rintro ⟨_, ⟨blanks, spelled, hblanks, hx, rfl⟩, rfl⟩
    obtain ⟨c, spelled', hc, -, rfl⟩ := hstarts.exists_head hx
    exact ⟨_, hx, skipBlanks_eq_cons_iff.mpr ⟨hc, blanks, hblanks, List.append_assoc ..⟩⟩

theorem exists_mark {s : String} {text : List Char} (h : Quoted s text) :
    ∃ rest, text = '"' :: rest := by
  obtain ⟨_⟩ := h
  exact ⟨_, rfl⟩

theorem starts_quoted : Starts Quoted := fun _ _ ⟨_⟩ => ⟨'"', _, by decide, rfl⟩

theorem takes_readString (wanted : String) : Takes (readString wanted) (Spaced Quoted) := by
  refine takes_spaced starts_quoted fun text s rest => ?_
  constructor
  · intro h
    unfold readString at h
    split at h
    · cases h
    · next text' hskip =>
        obtain ⟨⟨cs, rest'⟩, hbody, h⟩ := map_eq_ok_iff.mp h
        cases h
        rw [hskip]
        exact quoted_of_readBody hbody
    · cases h
  · rintro ⟨quoted, hquoted, hskip⟩
    obtain ⟨text', rfl⟩ := exists_mark hquoted
    have hbody : readBody (text' ++ rest) = .ok (s.toList, rest) :=
      readBody_of_quoted hquoted rfl
    simp only [readString, hskip, List.cons_append]
    exact map_eq_ok_iff.mpr ⟨_, hbody, by simp⟩

theorem readColon_eq_ok_iff {text rest : List Char} :
    readColon text = .ok rest ↔ ∃ blanks, Blanks blanks ∧ text = blanks ++ ':' :: rest := by
  have hskip := @skipBlanks_eq_cons_iff text rest ':'
  constructor
  · intro h
    unfold readColon at h
    split at h
    · next hcolon =>
        cases h
        exact (hskip.mp hcolon).2
    · cases h
    · cases h
  · intro h
    simp only [readColon, hskip.mpr ⟨rfl, h⟩]

/-- The word for null. -/
inductive Null : Unit → List Char → Prop
  | word : Null () ['n', 'u', 'l', 'l']

theorem readWord_eq_ok_iff {word text rest : List Char} :
    readWord word text = .ok rest ↔ text = word ++ rest := by
  induction word generalizing text with
  | nil => simp [readWord, eq_comm]
  | cons w word ih =>
      cases text with
      | nil => simp [readWord]
      | cons c text =>
          by_cases hc : c = w
          · simp [readWord, hc, ih]
          · simp [readWord, hc]

theorem takes_readNull : Takes readNull (Spaced Null) := by
  refine takes_spaced (fun _ _ ⟨⟩ => ⟨'n', _, by decide, rfl⟩) fun text x rest => ?_
  constructor
  · intro h
    unfold readNull at h
    split at h
    · cases h
    · next text' hskip =>
        obtain ⟨rest', hword, h⟩ := map_eq_ok_iff.mp h
        cases h
        rw [readWord_eq_ok_iff] at hword
        exact ⟨_, .word, by rw [hskip, hword]; rfl⟩
    · cases h
  · rintro ⟨_, ⟨⟩, hskip⟩
    have hword : readWord "ull".toList ("ull".toList ++ rest) = .ok rest :=
      readWord_eq_ok_iff.mpr rfl
    rw [readNull, hskip]
    exact map_eq_ok_iff.mpr ⟨rest, hword, rfl⟩

/-! ## Documents -/

/-- A whole document is read for a value if it is a text of the form for it with
nothing but blanks behind. -/
theorem Takes.readDocument_eq_ok_iff {α : Type} {read : Reader α} {form : α → List Char → Prop}
    (h : Takes read form) {document : String} {x : α} :
    readDocument read document = .ok x ↔
      ∃ text blanks, form x text ∧ Blanks blanks ∧ document.toList = text ++ blanks := by
  constructor
  · intro hx
    unfold readDocument at hx
    split at hx
    · cases hx
    · next hread =>
        obtain ⟨spelled, hform, htext⟩ := h.of_ok hread
        split at hx
        · next hskip =>
            cases hx
            exact ⟨spelled, _, hform, skipBlanks_eq_nil_iff.mp hskip, htext⟩
        · cases hx
  · rintro ⟨text, blanks, hform, hblanks, htext⟩
    simp only [readDocument, htext, h.reads hform, skipBlanks_eq_nil_iff.mpr hblanks]

end BoxedTypes.Json
