import BoxedTypes.Json.Fault

/-!
# Strings and blanks in documents

A string stands between quotation marks. Inside it every character from the
space on stands for itself, except the mark and the backslash; all others are
escaped. An escape is a backslash and a letter or sign, or a backslash, a `u`
and four hexadecimal digits that give a 16-bit unit. Units from the surrogate
range come in pairs, high before low, and a pair stands for one character beyond
the 16-bit range.

`readEscape` and `readBody` read what follows a backslash and what follows an
opening mark. A character takes at least one place, so each step leaves a
shorter text (`length_lt_of_readEscape`), and that is why reading comes to an
end.
-/

namespace BoxedTypes.Json

/-- Whether a character may stand between any two tokens. -/
def isBlank (c : Char) : Bool := c == ' ' || c == '\n' || c == '\t' || c == '\r'

def skipBlanks (text : List Char) : List Char := text.dropWhile isBlank

/-- The value of a hexadecimal digit, in either case. -/
def hexValue? (c : Char) : Option Nat :=
  if '0' ≤ c && c ≤ '9' then some (c.toNat - '0'.toNat)
  else if 'a' ≤ c && c ≤ 'f' then some (c.toNat - 'a'.toNat + 10)
  else if 'A' ≤ c && c ≤ 'F' then some (c.toNat - 'A'.toNat + 10)
  else none

/-- The unit written by four hexadecimal digits. -/
def hexUnit? (a b c d : Char) : Option Nat := do
  return (((← hexValue? a) * 16 + (← hexValue? b)) * 16 + (← hexValue? c)) * 16 + (← hexValue? d)

/-- Reads four hexadecimal digits. Four bytes are taken before they are looked
at, whether they are four characters or fewer. -/
def readHexUnit : Reader Nat := fun text =>
  if bytes (text.take 4) < 4 then .error (faultAtEnd .endInString)
  else
    match text with
    | a :: b :: c :: d :: rest =>
      match hexUnit? a b c d with
      | some unit => .ok (unit, rest)
      | none => .error ⟨.invalidEscape, bytes text - 4⟩
    | _ => .error ⟨.invalidEscape, bytes text - 4⟩

def isHighSurrogate (unit : Nat) : Bool := 0xD800 ≤ unit && unit ≤ 0xDBFF

def isLowSurrogate (unit : Nat) : Bool := 0xDC00 ≤ unit && unit ≤ 0xDFFF

/-- The code point of a surrogate pair. -/
def pairValue (high low : Nat) : Nat := 0x10000 + (high - 0xD800) * 0x400 + (low - 0xDC00)

/-- Reads the low half of a surrogate pair, from its backslash on. -/
def readLowSurrogate (high : Nat) : Reader Char
  | [] => .error (faultAtEnd .endInString)
  | '\\' :: [] => .error (faultAtEnd .endInString)
  | '\\' :: 'u' :: rest =>
    match readHexUnit rest with
    | .error f => .error f
    | .ok (low, rest) =>
      if isLowSurrogate low then .ok (Char.ofNat (pairValue high low), rest)
      else .error (faultBefore .loneSurrogate rest)
  | '\\' :: rest => .error (faultWithin .endOfHexEscape rest)
  | rest => .error (faultWithin .endOfHexEscape rest)

/-- Reads what follows the `u` of an escape. -/
def readUnicodeEscape : Reader Char := fun text =>
  match readHexUnit text with
  | .error f => .error f
  | .ok (unit, rest) =>
    if isLowSurrogate unit then .error (faultBefore .loneSurrogate rest)
    else if isHighSurrogate unit then readLowSurrogate unit rest
    else .ok (Char.ofNat unit, rest)

/-- The character that a backslash and a sign stand for, if they stand for one
by themselves. -/
def shortEscape? : Char → Option Char
  | '"' => some '"'
  | '\\' => some '\\'
  | '/' => some '/'
  | 'b' => some '\x08'
  | 'f' => some '\x0c'
  | 'n' => some '\n'
  | 'r' => some '\r'
  | 't' => some '\t'
  | _ => none

/-- Reads what follows a backslash. -/
def readEscape : Reader Char
  | [] => .error (faultAtEnd .endInString)
  | c :: rest =>
    match shortEscape? c with
    | some value => .ok (value, rest)
    | none =>
      if c = 'u' then readUnicodeEscape rest
      else .error (faultWithin .invalidEscape (c :: rest))

/-! Each of these readers takes something off the text when it succeeds. -/

theorem length_lt_of_readHexUnit {text rest : List Char} {unit : Nat}
    (h : readHexUnit text = .ok (unit, rest)) : rest.length < text.length := by
  unfold readHexUnit at h
  split at h
  · cases h
  · split at h
    · split at h
      · simp only [Except.ok.injEq, Prod.mk.injEq] at h
        obtain ⟨-, rfl⟩ := h
        simp only [List.length_cons]
        omega
      · cases h
    · cases h

theorem length_lt_of_readLowSurrogate {text rest : List Char} {high : Nat} {c : Char}
    (h : readLowSurrogate high text = .ok (c, rest)) : rest.length < text.length := by
  unfold readLowSurrogate at h
  split at h <;> try cases h
  next r =>
    split at h
    · cases h
    · next low r' hr =>
      split at h
      · simp only [Except.ok.injEq, Prod.mk.injEq] at h
        obtain ⟨-, rfl⟩ := h
        have := length_lt_of_readHexUnit hr
        simp only [List.length_cons]
        omega
      · cases h

theorem length_lt_of_readUnicodeEscape {text rest : List Char} {c : Char}
    (h : readUnicodeEscape text = .ok (c, rest)) : rest.length < text.length := by
  unfold readUnicodeEscape at h
  split at h
  · cases h
  · next unit r hr =>
    have hlt := length_lt_of_readHexUnit hr
    split at h
    · cases h
    · split at h
      · exact Nat.lt_trans (length_lt_of_readLowSurrogate h) hlt
      · simp only [Except.ok.injEq, Prod.mk.injEq] at h
        obtain ⟨-, rfl⟩ := h
        exact hlt

theorem length_lt_of_readEscape {text rest : List Char} {c : Char}
    (h : readEscape text = .ok (c, rest)) : rest.length < text.length := by
  unfold readEscape at h
  split at h
  · cases h
  · split at h
    · simp only [Except.ok.injEq, Prod.mk.injEq] at h
      obtain ⟨-, rfl⟩ := h
      exact Nat.lt_succ_self _
    · split at h
      · exact Nat.lt_succ_of_lt (length_lt_of_readUnicodeEscape h)
      · cases h

/-- Reads a string from behind its opening mark to behind its closing one. -/
def readBody : Reader (List Char)
  | [] => .error (faultAtEnd .endInString)
  | c :: rest =>
    if c = '"' then .ok ([], rest)
    else if c = '\\' then
      match h : readEscape rest with
      | .error f => .error f
      | .ok (value, rest') =>
        have : rest'.length < rest.length := length_lt_of_readEscape h
        match readBody rest' with
        | .error f => .error f
        | .ok (values, rest'') => .ok (value :: values, rest'')
    else if c.toNat < 0x20 then .error (faultWithin .controlCharacter (c :: rest))
    else
      match readBody rest with
      | .error f => .error f
      | .ok (values, rest') => .ok (c :: values, rest')
termination_by text => text.length
decreasing_by
  · exact Nat.lt_succ_of_lt this
  · exact Nat.lt_succ_self _

end BoxedTypes.Json
