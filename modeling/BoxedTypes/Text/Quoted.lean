import BoxedTypes.Text.DefaultIgnorable
import BoxedTypes.Text.GraphemeExtend
import BoxedTypes.Text.Unprintable

/-!
# Quoted text

A message that shows a text puts it between quotation marks, with everything
escaped that would not be seen for what it is: the marks and the backslash
themselves, line breaks and tabs, characters that show nothing (`isInvisible`),
and those that would attach to the character before them (`attachesBackward`).
The last two are written by code point, in as few hexadecimal digits as it
takes.
-/

namespace BoxedTypes.Text

/-- Whether a character shows nothing, be it by its category or because it may
be ignored. -/
def isInvisible (c : Char) : Bool := isUnprintable c || isDefaultIgnorable c

/-- Whether a character is one of the two halfwidth sound marks of Japanese. -/
def isHalfwidthSoundMark (c : Char) : Bool := c == '\uff9e' || c == '\uff9f'

/-- Whether a character is drawn on the one before it. The halfwidth sound marks
belong to the grapheme before them, but they are letters and take up a place of
their own. -/
def attachesBackward (c : Char) : Bool := isGraphemeExtend c && !isHalfwidthSoundMark c

/-- The escape of a character by its code point. -/
def escapeByCode (c : Char) : String :=
  "\\u\x7b" ++ String.ofList (Nat.toDigits 16 c.toNat) ++ "\x7d"

/-- A character as it stands in quoted text. -/
def quoteChar (c : Char) : String :=
  match c with
  | '\x00' => "\\0"
  | '\t' => "\\t"
  | '\n' => "\\n"
  | '\r' => "\\r"
  | '"' => "\\\""
  | '\\' => "\\\\"
  | c => if attachesBackward c || isInvisible c then escapeByCode c else c.toString

/-- A text between quotation marks. -/
def quote (s : String) : String := "\"" ++ String.join (s.toList.map quoteChar) ++ "\""

end BoxedTypes.Text
