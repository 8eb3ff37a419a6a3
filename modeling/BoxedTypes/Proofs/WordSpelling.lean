import BoxedTypes.Json.Vocabulary
import BoxedTypes.Proofs.ValueSpelling

/-!
# How words are spelled

A value of an enumeration is written by its word, as a string or as the one key
of an object with the value null. The string can be spelled in all the ways in
which a string can be spelled, and blanks may stand in front of every token of
the object. `Vocabulary.Form` is this, and `takes_read` says that the reader of
a vocabulary takes it and nothing else.

All that is needed of the vocabulary is that looking up the word of a value
finds the value, so no two values share a word.
-/

namespace BoxedTypes.Json

namespace Vocabulary

variable {α : Type} {v : Vocabulary α}

/-- The ways to write a value by its word. -/
inductive Form (v : Vocabulary α) : α → List Char → Prop
  | string {x : α} {text : List Char} : Quoted (v.word x) text → v.Form x text
  | member {x : α} {key blanks null blanks' : List Char} :
    Spaced Quoted (v.word x) key → Blanks blanks → Spaced Null () null → Blanks blanks' →
    v.Form x ('\x7b' :: (key ++ (blanks ++ ':' :: (null ++ (blanks' ++ ['\x7d'])))))

theorem readClose_eq_ok_iff {text rest : List Char} :
    readClose text = .ok rest ↔ ∃ blanks, Blanks blanks ∧ text = blanks ++ '\x7d' :: rest := by
  have hskip := @skipBlanks_eq_cons_iff text rest '\x7d'
  constructor
  · intro h
    unfold readClose at h
    split at h
    · next hclose =>
        cases h
        exact (hskip.mp hclose).2
    · cases h
    · cases h
  · intro h
    simp only [readClose, hskip.mpr ⟨rfl, h⟩]

theorem word_of_find? {word : String} {x : α} (h : v.find? word = some x) : v.word x = word :=
  eq_of_beq (List.find?_some (p := fun x => v.word x == word) h)

theorem select_eq_ok_iff (hv : ∀ x, v.find? (v.word x) = some x) {word : String} {x : α}
    {text rest : List Char} :
    v.select word text = .ok (x, rest) ↔ word = v.word x ∧ text = rest := by
  constructor
  · intro h
    unfold select at h
    split at h
    · next x' hfind =>
        cases h
        exact ⟨(word_of_find? hfind).symm, rfl⟩
    · cases h
  · rintro ⟨rfl, rfl⟩
    rw [select, hv]

theorem starts_form : Starts v.Form := by
  intro x text h
  cases h with
  | string hquoted => exact starts_quoted _ _ hquoted
  | member => exact ⟨'\x7b', _, by decide, rfl⟩

theorem readMember_eq_ok_iff (hv : ∀ x, v.find? (v.word x) = some x) {x : α}
    {text rest : List Char} :
    v.readMember text = .ok (x, rest) ↔
      ∃ key blanks null blanks', Spaced Quoted (v.word x) key ∧ Blanks blanks ∧
        Spaced Null () null ∧ Blanks blanks' ∧
        text = key ++ (blanks ++ ':' :: (null ++ (blanks' ++ '\x7d' :: rest))) := by
  constructor
  · intro h
    simp only [readMember, bind_eq_ok_iff] at h
    obtain ⟨⟨word, r₁⟩, hkey, ⟨x', r₂⟩, hselect, r₃, hcolon, ⟨_, r₄⟩, hnull, r₅, hclose, h⟩ := h
    cases h
    obtain ⟨key, hword, rfl⟩ := (takes_readString _).of_ok hkey
    obtain ⟨rfl, rfl⟩ := (select_eq_ok_iff hv).mp hselect
    obtain ⟨blanks, hblanks, rfl⟩ := readColon_eq_ok_iff.mp hcolon
    obtain ⟨null, hform, rfl⟩ := takes_readNull.of_ok hnull
    obtain ⟨blanks', hblanks', rfl⟩ := readClose_eq_ok_iff.mp hclose
    exact ⟨key, blanks, null, blanks', hword, hblanks, hform, hblanks', rfl⟩
  · rintro ⟨key, blanks, null, blanks', hkey, hblanks, hnull, hblanks', rfl⟩
    simp only [readMember, bind_eq_ok_iff]
    exact ⟨_, (takes_readString _).reads hkey _, _, (select_eq_ok_iff hv).mpr ⟨rfl, rfl⟩,
      _, readColon_eq_ok_iff.mpr ⟨blanks, hblanks, rfl⟩, _, takes_readNull.reads hnull _,
      _, readClose_eq_ok_iff.mpr ⟨blanks', hblanks', rfl⟩, rfl⟩

/-- The reader of a vocabulary takes the texts of its values, and nothing
else. -/
theorem takes_read (hv : ∀ x, v.find? (v.word x) = some x) : Takes v.read (Spaced v.Form) := by
  refine takes_spaced starts_form fun text x rest => ?_
  constructor
  · intro h
    unfold read at h
    split at h
    · cases h
    · next text' hskip =>
        obtain ⟨key, blanks, null, blanks', hkey, hblanks, hnull, hblanks', rfl⟩ :=
          (readMember_eq_ok_iff hv).mp h
        exact ⟨_, .member hkey hblanks hnull hblanks', by simp [hskip]⟩
    · next text' hskip =>
        split at h
        · cases h
        · next cs rest' hbody =>
            obtain ⟨hword, rfl⟩ := (select_eq_ok_iff hv).mp h
            rw [hskip]
            obtain ⟨quoted, hquoted, htext⟩ := quoted_of_readBody hbody
            exact ⟨quoted, .string (hword ▸ hquoted), htext⟩
    · cases h
  · rintro ⟨spelled, hform, hskip⟩
    cases hform with
    | string hquoted =>
      obtain ⟨text', rfl⟩ := exists_mark hquoted
      have hbody : readBody (text' ++ rest) = .ok ((v.word x).toList, rest) :=
        readBody_of_quoted hquoted rfl
      have hselect : v.select (v.word x) rest = .ok (x, rest) :=
        (select_eq_ok_iff hv).mpr ⟨rfl, rfl⟩
      simp only [read, hskip, List.cons_append, hbody, String.ofList_toList, hselect]
    | member hkey hblanks hnull hblanks' =>
      have hmember := (@readMember_eq_ok_iff _ _ hv x _ rest).mpr
        ⟨_, _, _, _, hkey, hblanks, hnull, hblanks', rfl⟩
      simp only [List.cons_append, List.append_assoc, List.nil_append] at hskip
      simp only [read, hskip, hmember]

end Vocabulary

end BoxedTypes.Json
