import BoxedTypes.Json.Strings
import BoxedTypes.Proofs.Readings

/-!
# How strings are spelled

A string can be written in many ways. `Spelling` lists those of one character:
the character itself, a short escape, a hexadecimal escape or a pair of them,
with digits of either case. `Spelled` puts characters one after the other and
`Quoted` puts the marks around them.

A reader takes a value off the front of a text and leaves the rest. `Takes` says
that it does so exactly for the texts of some form, whatever the rest is: it
reads every text of the form, for the value of the form, and it reads nothing
else. Since a reader has one answer for a text, a form that some reader takes is
not ambiguous, and no text of it is the beginning of another. Both directions
for a reader that calls others follow from both directions for those.
-/

namespace BoxedTypes.Json

/-- A hexadecimal digit, in either case. -/
def HexDigit (v : Nat) (c : Char) : Prop :=
  "0123456789abcdef".toList[v]? = some c ∨ "0123456789ABCDEF".toList[v]? = some c

instance (v : Nat) (c : Char) : Decidable (HexDigit v c) :=
  inferInstanceAs (Decidable (_ ∨ _))

/-- The four hexadecimal digits of a 16-bit unit. -/
inductive HexUnit : Nat → List Char → Prop
  | digits {v₁ v₂ v₃ v₄ : Nat} {c₁ c₂ c₃ c₄ : Char} :
    HexDigit v₁ c₁ → HexDigit v₂ c₂ → HexDigit v₃ c₃ → HexDigit v₄ c₄ →
    HexUnit (((v₁ * 16 + v₂) * 16 + v₃) * 16 + v₄) [c₁, c₂, c₃, c₄]

/-- The signs that stand for a character behind a backslash. -/
def shortEscapes : List (Char × Char) :=
  [('"', '"'), ('\\', '\\'), ('/', '/'), ('b', '\x08'), ('f', '\x0c'), ('n', '\n'),
    ('r', '\r'), ('t', '\t')]

/-- A character that may stand for itself. -/
def Plain (c : Char) : Prop := 0x20 ≤ c.toNat ∧ c ≠ '"' ∧ c ≠ '\\'

/-- The ways to write a character. -/
inductive Spelling : Char → List Char → Prop
  | raw {c : Char} : Plain c → Spelling c [c]
  | short {sign c : Char} : (sign, c) ∈ shortEscapes → Spelling c ['\\', sign]
  | unit {c : Char} {digits : List Char} :
    HexUnit c.toNat digits → Spelling c ('\\' :: 'u' :: digits)
  | pair {c : Char} {high low : Nat} {digits digits' : List Char} :
    HexUnit high digits → HexUnit low digits' →
    0xD800 ≤ high → high ≤ 0xDBFF → 0xDC00 ≤ low → low ≤ 0xDFFF →
    c.toNat = 0x10000 + (high - 0xD800) * 0x400 + (low - 0xDC00) →
    Spelling c ('\\' :: 'u' :: (digits ++ '\\' :: 'u' :: digits'))

/-- The ways to write characters one after the other. -/
inductive Spelled : List Char → List Char → Prop
  | nil : Spelled [] []
  | cons {c : Char} {cs text rest : List Char} :
    Spelling c text → Spelled cs rest → Spelled (c :: cs) (text ++ rest)

/-- The ways to write a string value. -/
inductive Quoted : String → List Char → Prop
  | marks {s : String} {body : List Char} :
    Spelled s.toList body → Quoted s ('"' :: (body ++ ['"']))

/-- The reader takes the texts of a form off the front of a text, and nothing
else. -/
def Takes {α : Type} (read : Reader α) (form : α → List Char → Prop) : Prop :=
  ∀ text x rest, read text = .ok (x, rest) ↔
    ∃ spelled, form x spelled ∧ text = spelled ++ rest

namespace Takes

variable {α : Type} {read : Reader α} {form : α → List Char → Prop}

theorem reads {x : α} {spelled : List Char} (h : Takes read form) (hx : form x spelled)
    (rest : List Char) : read (spelled ++ rest) = .ok (x, rest) :=
  (h ..).mpr ⟨spelled, hx, rfl⟩

theorem of_ok {x : α} {text rest : List Char} (h : Takes read form)
    (hr : read text = .ok (x, rest)) : ∃ spelled, form x spelled ∧ text = spelled ++ rest :=
  (h ..).mp hr

theorem congr {form' : α → List Char → Prop} (h : Takes read form)
    (hform : ∀ x text, form x text ↔ form' x text) : Takes read form' := fun text x rest =>
  (h text x rest).trans (exists_congr fun spelled => and_congr_left fun _ => hform x spelled)

theorem map {β : Type} (h : Takes read form) (f : α → β) :
    Takes (fun text => (read text).map fun (x, rest) => (f x, rest))
      fun y text => ∃ x, form x text ∧ y = f x := by
  intro text y rest
  constructor
  · intro hy
    obtain ⟨⟨x, rest'⟩, hr, hy⟩ := map_eq_ok_iff.mp hy
    cases hy
    obtain ⟨spelled, hx, htext⟩ := h.of_ok hr
    exact ⟨spelled, ⟨x, hx, rfl⟩, htext⟩
  · rintro ⟨spelled, ⟨x, hx, rfl⟩, rfl⟩
    exact map_eq_ok_iff.mpr ⟨(x, rest), h.reads hx rest, rfl⟩

end Takes

/-! ## Digits -/

theorem lt_of_hexDigit {v : Nat} {c : Char} (h : HexDigit v c) : v < 16 := by
  rcases h with h | h <;> exact (List.getElem?_eq_some_iff.mp h).1

theorem hexValue?_of_hexDigit {v : Nat} {c : Char} (h : HexDigit v c) : hexValue? c = some v := by
  have hall : ∀ v < 16,
      ("0123456789abcdef".toList[v]?).all (hexValue? · == some v) = true ∧
      ("0123456789ABCDEF".toList[v]?).all (hexValue? · == some v) = true := by decide
  obtain ⟨hlower, hupper⟩ := hall v (lt_of_hexDigit h)
  rcases h with h | h
  · rw [h] at hlower
    exact eq_of_beq hlower
  · rw [h] at hupper
    exact eq_of_beq hupper

theorem lt_of_hexValue? {v : Nat} {c : Char} (h : hexValue? c = some v) : c.toNat < 128 := by
  simp only [hexValue?, Bool.and_eq_true, decide_eq_true_eq, Char.le_def,
    UInt32.le_iff_toNat_le] at h
  have hc : c.toNat = c.val.toNat := rfl
  have h9 : ('9' : Char).val.toNat = 57 := rfl
  have hf : ('f' : Char).val.toNat = 102 := rfl
  have hF : ('F' : Char).val.toNat = 70 := rfl
  split at h
  · omega
  · split at h
    · omega
    · split at h
      · omega
      · cases h

theorem hexDigit_of_hexValue? {v : Nat} {c : Char} (h : hexValue? c = some v) : HexDigit v c := by
  -- A digit is below 128, so there are only so many characters to go through.
  have hall : ∀ n < 128, (hexValue? (Char.ofNat n)).all (fun v =>
      "0123456789abcdef".toList[v]? == some (Char.ofNat n) ||
      "0123456789ABCDEF".toList[v]? == some (Char.ofNat n)) = true := by decide +kernel
  have hc := hall c.toNat (lt_of_hexValue? h)
  rw [Char.ofNat_toNat, h] at hc
  simpa [HexDigit] using hc

theorem lt_of_hexUnit {unit : Nat} {digits : List Char} (h : HexUnit unit digits) :
    unit < 0x10000 := by
  obtain ⟨h₁, h₂, h₃, h₄⟩ := h
  have := lt_of_hexDigit h₁
  have := lt_of_hexDigit h₂
  have := lt_of_hexDigit h₃
  have := lt_of_hexDigit h₄
  omega

theorem hexUnit?_eq_some_iff {unit : Nat} {a b c d : Char} :
    hexUnit? a b c d = some unit ↔ HexUnit unit [a, b, c, d] := by
  constructor
  · intro h
    simp only [hexUnit?, Option.bind_eq_bind, Option.bind_eq_some_iff, Option.pure_def,
      Option.some.injEq] at h
    obtain ⟨v₁, h₁, v₂, h₂, v₃, h₃, v₄, h₄, rfl⟩ := h
    exact .digits (hexDigit_of_hexValue? h₁) (hexDigit_of_hexValue? h₂)
      (hexDigit_of_hexValue? h₃) (hexDigit_of_hexValue? h₄)
  · rintro ⟨h₁, h₂, h₃, h₄⟩
    simp only [hexUnit?, hexValue?_of_hexDigit h₁, hexValue?_of_hexDigit h₂,
      hexValue?_of_hexDigit h₃, hexValue?_of_hexDigit h₄]
    rfl

theorem length_le_bytes (text : List Char) : text.length ≤ bytes text := by
  induction text with
  | nil => exact Nat.zero_le _
  | cons c text ih =>
      have hc := c.utf8Size_pos
      have hbytes : bytes (c :: text) = c.utf8Size + bytes text := by simp [bytes]
      rw [hbytes, List.length_cons]
      omega

theorem takes_readHexUnit : Takes readHexUnit HexUnit := by
  intro text unit rest
  constructor
  · intro h
    unfold readHexUnit at h
    split at h
    · cases h
    · split at h
      · next a b c d rest' =>
          split at h
          · next unit' hunit =>
              cases h
              exact ⟨_, hexUnit?_eq_some_iff.mp hunit, rfl⟩
          · cases h
      · cases h
  · rintro ⟨digits, hunit, rfl⟩
    cases hunit with
    | @digits v₁ v₂ v₃ v₄ c₁ c₂ c₃ c₄ h₁ h₂ h₃ h₄ =>
      have hlen : ¬bytes (([c₁, c₂, c₃, c₄] ++ rest).take 4) < 4 :=
        Nat.not_lt.mpr (length_le_bytes [c₁, c₂, c₃, c₄])
      have hdigits := hexUnit?_eq_some_iff.mpr (.digits h₁ h₂ h₃ h₄)
      unfold readHexUnit
      rw [if_neg hlen]
      dsimp only [List.cons_append, List.nil_append]
      rw [hdigits]

/-! ## Escapes -/

/-- A code point outside the surrogate range is the one of its character. -/
theorem toNat_ofNat {n : Nat} (hn : n < 0x110000) (hs : n < 0xD800 ∨ 0xDFFF < n) :
    (Char.ofNat n).toNat = n := by
  have hv : n.isValidChar := by
    simp only [Nat.isValidChar]
    omega
  rw [Char.ofNat, dif_pos hv]
  rfl

theorem toNat_ofNat_pairValue {high low : Nat} (hh : high ≤ 0xDBFF) (hl : low ≤ 0xDFFF) :
    (Char.ofNat (pairValue high low)).toNat = pairValue high low := by
  unfold pairValue
  exact toNat_ofNat (by omega) (.inr (by omega))

/-- No character has its code point in the surrogate range. -/
theorem toNat_not_surrogate (c : Char) : c.toNat < 0xD800 ∨ 0xDFFF < c.toNat := by
  have hv : c.toNat < 0xD800 ∨ 0xDFFF < c.toNat ∧ c.toNat < 0x110000 := c.valid
  omega

theorem isLowSurrogate_iff {unit : Nat} :
    isLowSurrogate unit = true ↔ 0xDC00 ≤ unit ∧ unit ≤ 0xDFFF := by
  simp [isLowSurrogate]

theorem isHighSurrogate_iff {unit : Nat} :
    isHighSurrogate unit = true ↔ 0xD800 ≤ unit ∧ unit ≤ 0xDBFF := by
  simp [isHighSurrogate]

/-- The low half of a pair, for the character that it completes. -/
inductive LowHalf (high : Nat) : Char → List Char → Prop
  | digits {low : Nat} {digits : List Char} :
    HexUnit low digits → 0xDC00 ≤ low → low ≤ 0xDFFF →
    LowHalf high (Char.ofNat (pairValue high low)) ('\\' :: 'u' :: digits)

theorem takes_readLowSurrogate (high : Nat) : Takes (readLowSurrogate high) (LowHalf high) := by
  intro text c rest
  constructor
  · intro h
    unfold readLowSurrogate at h
    split at h
    case h_3 text =>
      split at h
      · cases h
      · next low text' hlow =>
          split at h
          · next hrange =>
              simp only [Except.ok.injEq, Prod.mk.injEq] at h
              obtain ⟨rfl, rfl⟩ := h
              obtain ⟨digits, hunit, rfl⟩ := takes_readHexUnit.of_ok hlow
              obtain ⟨hl, hu⟩ := isLowSurrogate_iff.mp hrange
              exact ⟨_, .digits hunit hl hu, rfl⟩
          · cases h
    all_goals cases h
  · rintro ⟨spelled, hhalf, rfl⟩
    cases hhalf with
    | digits hunit hl hu =>
      have hread := takes_readHexUnit.reads hunit rest
      simp only [List.cons_append, readLowSurrogate, hread,
        isLowSurrogate_iff.mpr ⟨hl, hu⟩, if_true]

theorem takes_readUnicodeEscape :
    Takes readUnicodeEscape fun c text => Spelling c ('\\' :: 'u' :: text) := by
  intro text c rest
  constructor
  · intro h
    unfold readUnicodeEscape at h
    split at h
    · cases h
    · next unit text' hread =>
        obtain ⟨digits, hunit, rfl⟩ := takes_readHexUnit.of_ok hread
        have hlt := lt_of_hexUnit hunit
        split at h
        · cases h
        · next hlow =>
            rw [isLowSurrogate_iff] at hlow
            split at h
            · next hhigh =>
                obtain ⟨hl, hu⟩ := isHighSurrogate_iff.mp hhigh
                obtain ⟨half, hhalf, rfl⟩ := (takes_readLowSurrogate unit).of_ok h
                cases hhalf with
                | @digits low digits' hunit' hl' hu' =>
                  exact ⟨_, .pair hunit hunit' hl hu hl' hu' (toNat_ofNat_pairValue hu hu'),
                    (List.append_assoc ..).symm⟩
            · next hhigh =>
                -- Outside the surrogate range the unit is the code point
                -- itself.
                rw [isHighSurrogate_iff] at hhigh
                cases h
                refine ⟨digits, .unit ?_, rfl⟩
                rw [toNat_ofNat (by omega) (by omega)]
                exact hunit
  · rintro ⟨spelled, hspell, rfl⟩
    cases hspell with
    | short hmem => simp [shortEscapes] at hmem
    | unit hunit =>
      have hread := takes_readHexUnit.reads hunit rest
      have hrange := toNat_not_surrogate c
      have hlow : ¬isLowSurrogate c.toNat = true := by
        rw [isLowSurrogate_iff]
        omega
      have hhigh : ¬isHighSurrogate c.toNat = true := by
        rw [isHighSurrogate_iff]
        omega
      simp only [readUnicodeEscape, hread, if_neg hlow, if_neg hhigh, Char.ofNat_toNat]
    | @pair _ high low digits digits' hunit hunit' hl hu hl' hu' hc =>
      have hread := takes_readHexUnit.reads hunit ('\\' :: 'u' :: digits' ++ rest)
      have hlow : ¬isLowSurrogate high = true := by
        rw [isLowSurrogate_iff]
        omega
      have hhalf := (takes_readLowSurrogate high).reads (.digits hunit' hl' hu') rest
      have hchar : Char.ofNat (pairValue high low) = c := by
        unfold pairValue
        rw [← hc, Char.ofNat_toNat]
      rw [hchar] at hhalf
      rw [List.append_assoc]
      simp only [readUnicodeEscape, hread, if_neg hlow, isHighSurrogate_iff.mpr ⟨hl, hu⟩,
        if_true, hhalf]

theorem shortEscape?_eq_some_iff {sign c : Char} :
    shortEscape? sign = some c ↔ (sign, c) ∈ shortEscapes := by
  constructor
  · intro h
    unfold shortEscape? at h
    split at h <;> cases h <;> simp [shortEscapes]
  · have hall : ∀ p ∈ shortEscapes, shortEscape? p.1 = some p.2 := by decide
    exact fun hmem => hall (sign, c) hmem

theorem takes_readEscape : Takes readEscape fun c text => Spelling c ('\\' :: text) := by
  intro text c rest
  constructor
  · intro h
    unfold readEscape at h
    split at h
    · cases h
    · next sign text' =>
        split at h
        · next value hsign =>
            cases h
            exact ⟨[sign], .short (shortEscape?_eq_some_iff.mp hsign), rfl⟩
        · split at h
          · next hu =>
              subst hu
              obtain ⟨spelled, hspell, rfl⟩ := takes_readUnicodeEscape.of_ok h
              exact ⟨'u' :: spelled, hspell, rfl⟩
          · cases h
  · rintro ⟨spelled, hspell, rfl⟩
    have hu : ∀ {text}, Spelling c ('\\' :: 'u' :: text) →
        readEscape ('u' :: text ++ rest) = .ok (c, rest) :=
      fun hspell => takes_readUnicodeEscape.reads hspell rest
    cases hspell with
    | raw hplain => exact absurd rfl hplain.2.2
    | short hmem =>
      simp only [List.cons_append, readEscape, shortEscape?_eq_some_iff.mpr hmem, List.nil_append]
    | unit hunit => exact hu (.unit hunit)
    | pair hunit hunit' hl hu' hl' hu'' hc => exact hu (.pair hunit hunit' hl hu' hl' hu'' hc)

/-! ## Strings -/

theorem readBody_escaped {c : Char} {cs text rest rest' : List Char}
    (hescape : readEscape text = .ok (c, rest)) (hbody : readBody rest = .ok (cs, rest')) :
    readBody ('\\' :: text) = .ok (c :: cs, rest') := by
  rw [readBody]
  simp only [Char.reduceEq, if_false, if_true]
  split
  · next f hf => rw [hf] at hescape; cases hescape
  · next value text' h =>
      rw [h] at hescape
      cases hescape
      rw [hbody]

theorem readBody_of_spelled {cs body : List Char} (h : Spelled cs body) (rest : List Char) :
    readBody (body ++ '"' :: rest) = .ok (cs, rest) := by
  induction h with
  | nil => simp [readBody]
  | @cons c cs text body hspell hspelled ih =>
    rw [List.append_assoc]
    -- All spellings but the raw one are a backslash and something for
    -- `readEscape`.
    have hescaped : ∀ {text}, Spelling c ('\\' :: text) →
        readBody ('\\' :: text ++ (body ++ '"' :: rest)) = .ok (c :: cs, rest) :=
      fun hspell => readBody_escaped (takes_readEscape.reads hspell _) ih
    cases hspell with
    | raw hplain =>
      obtain ⟨hlt, hmark, hback⟩ := hplain
      rw [List.cons_append, readBody, if_neg hmark, if_neg hback, if_neg (Nat.not_lt.mpr hlt),
        List.nil_append, ih]
    | short hmem => exact hescaped (.short hmem)
    | unit hunit => exact hescaped (.unit hunit)
    | pair hunit hunit' hl hu hl' hu' hc =>
      exact hescaped (.pair hunit hunit' hl hu hl' hu' hc)

theorem spelled_of_readBody {text cs rest : List Char} (h : readBody text = .ok (cs, rest)) :
    ∃ body, Spelled cs body ∧ text = body ++ '"' :: rest := by
  fun_induction readBody text generalizing cs with
  | case2 rest' =>
    cases h
    exact ⟨[], .nil, rfl⟩
  | case5 text c text' hescape hlt values rest' hbody hne ih =>
    cases h
    obtain ⟨spelled, hspell, rfl⟩ := takes_readEscape.of_ok hescape
    obtain ⟨body, hspelled, rfl⟩ := ih hbody
    exact ⟨'\\' :: spelled ++ body, .cons hspell hspelled, by simp⟩
  | case8 c text hmark hback hlt values rest' hbody ih =>
    cases h
    obtain ⟨body, hspelled, rfl⟩ := ih hbody
    exact ⟨[c] ++ body, .cons (.raw ⟨Nat.not_lt.mp hlt, hmark, hback⟩) hspelled, rfl⟩
  | _ => cases h

theorem quoted_of_readBody {text cs rest : List Char} (h : readBody text = .ok (cs, rest)) :
    ∃ quoted, Quoted (String.ofList cs) quoted ∧ '"' :: text = quoted ++ rest := by
  obtain ⟨body, hspelled, rfl⟩ := spelled_of_readBody h
  rw [← String.toList_ofList (l := cs)] at hspelled
  exact ⟨_, .marks hspelled, by simp⟩

theorem readBody_of_quoted {s : String} {text quoted rest : List Char} (h : Quoted s quoted)
    (htext : '"' :: text = quoted ++ rest) : readBody text = .ok (s.toList, rest) := by
  obtain ⟨hspelled⟩ := h
  simp only [List.cons_append, List.append_assoc, List.nil_append, List.cons.injEq,
    true_and] at htext
  rw [htext]
  exact readBody_of_spelled hspelled rest

/-! ## Every string can be written -/

theorem Spelled.raw {cs : List Char} (h : ∀ c ∈ cs, Plain c) : Spelled cs cs := by
  induction cs with
  | nil => exact .nil
  | cons c cs ih =>
      obtain ⟨hc, hcs⟩ := List.forall_mem_cons.mp h
      exact .cons (.raw hc) (ih hcs)

theorem Spelled.append {cs cs' text text' : List Char} (h : Spelled cs text)
    (h' : Spelled cs' text') : Spelled (cs ++ cs') (text ++ text') := by
  induction h with
  | nil => exact h'
  | cons hspell _ ih =>
    rw [List.append_assoc]
    exact .cons hspell ih

/-- A string in which nothing needs an escape can be written as it is. -/
theorem Quoted.raw {s : String} (h : ∀ c ∈ s.toList, Plain c) :
    Quoted s ('"' :: (s.toList ++ ['"'])) :=
  .marks (.raw h)

/-- A string with one character written by its unit and the others as they
are. -/
theorem Quoted.unit {s : String} (before : List Char) (c : Char) (behind : List Char)
    (hs : s.toList = before ++ c :: behind) (hbefore : ∀ c ∈ before, Plain c)
    (hbehind : ∀ c ∈ behind, Plain c) {digits : List Char} (hunit : HexUnit c.toNat digits) :
    Quoted s ('"' :: ((before ++ (('\\' :: 'u' :: digits) ++ behind)) ++ ['"'])) := by
  apply Quoted.marks
  rw [hs]
  exact (Spelled.raw hbefore).append (.cons (.unit hunit) (.raw hbehind))

theorem exists_hexDigit {v : Nat} (h : v < 16) : ∃ c, HexDigit v c :=
  ⟨_, .inl (List.getElem?_eq_getElem h)⟩

theorem exists_hexUnit {unit : Nat} (h : unit < 0x10000) : ∃ digits, HexUnit unit digits := by
  obtain ⟨c₁, h₁⟩ := exists_hexDigit (show unit / 16 / 16 / 16 < 16 by omega)
  obtain ⟨c₂, h₂⟩ := exists_hexDigit (show unit / 16 / 16 % 16 < 16 by omega)
  obtain ⟨c₃, h₃⟩ := exists_hexDigit (show unit / 16 % 16 < 16 by omega)
  obtain ⟨c₄, h₄⟩ := exists_hexDigit (show unit % 16 < 16 by omega)
  have hunit := HexUnit.digits h₁ h₂ h₃ h₄
  have heq : ((unit / 16 / 16 / 16 * 16 + unit / 16 / 16 % 16) * 16 + unit / 16 % 16) * 16 +
      unit % 16 = unit := by omega
  rw [heq] at hunit
  exact ⟨_, hunit⟩

theorem exists_spelling (c : Char) : ∃ text, Spelling c text := by
  by_cases hmark : c = '"'
  · exact ⟨_, .short (show ('"', c) ∈ shortEscapes by simp [hmark, shortEscapes])⟩
  · by_cases hback : c = '\\'
    · exact ⟨_, .short (show ('\\', c) ∈ shortEscapes by simp [hback, shortEscapes])⟩
    · by_cases hcontrol : c.toNat < 0x20
      · obtain ⟨digits, hunit⟩ := exists_hexUnit (show c.toNat < 0x10000 by omega)
        exact ⟨_, .unit hunit⟩
      · exact ⟨[c], .raw ⟨Nat.not_lt.mp hcontrol, hmark, hback⟩⟩

theorem exists_quoted (s : String) : ∃ text, Quoted s text := by
  have hspelled : ∀ cs : List Char, ∃ text, Spelled cs text := by
    intro cs
    induction cs with
    | nil => exact ⟨[], .nil⟩
    | cons c cs ih =>
        obtain ⟨text, hc⟩ := exists_spelling c
        obtain ⟨rest, hcs⟩ := ih
        exact ⟨text ++ rest, .cons hc hcs⟩
  obtain ⟨body, hbody⟩ := hspelled s.toList
  exact ⟨_, .marks hbody⟩

end BoxedTypes.Json
