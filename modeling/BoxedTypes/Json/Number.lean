import BoxedTypes.Json.Fault

/-!
# Numbers in documents

A number has whole digits without a leading zero, then perhaps a point and
further digits, then perhaps an exponent. One that is written without point and
exponent and that fits into 64 bits, signed or unsigned, is an integer. Every
other number is a double-precision one, and so is a negative zero, which no
integer can be.

The digits of a double-precision number are gathered into one 64-bit
significand. Once the next digit would not fit, no more whole digits are
gathered, and each one left out counts as a factor of ten; fraction digits that
do not fit are left out without a trace. The significand is then converted and
scaled by the power of ten. This is one or two roundings and not always the
nearest number, so `scale` states it step by step in machine arithmetic.
-/

namespace BoxedTypes.Json

/-- A number as it was read. -/
inductive Numeral where
  | integer (value : Int)
  | float (value : Float)
  deriving Repr

def Numeral.found : Numeral → Found
  | .integer value => .integer value
  | .float value => .float value

def isDigit (c : Char) : Bool := '0' ≤ c && c ≤ '9'

def digitValue (c : Char) : Nat := c.toNat - '0'.toNat

/-- The digits at the front of a text, and the rest. -/
def takeDigits (text : List Char) : List Char × List Char :=
  (text.takeWhile isDigit, text.dropWhile isDigit)

/-- Appends digits to a number as long as it stays within a limit; the digits
left out come second. -/
def gather (limit : Nat) : Nat → List Char → Nat × List Char
  | n, [] => (n, [])
  | n, d :: ds =>
    if n * 10 + digitValue d ≤ limit then gather limit (n * 10 + digitValue d) ds
    else (n, d :: ds)

/-- The greatest significand. -/
def maxSignificand : Nat := UInt64.size - 1

/-- The greatest exponent that is read off digit by digit. -/
def maxExponent : Nat := UInt32.size / 2 - 1

/-- A power of ten in double precision. -/
def powerOfTen (n : Nat) : Float := Float.ofScientific 1 false n

/-- A number times a power of ten, unless that is infinite. A power too small
for one division is divided out in steps, until nothing is left of the
number. -/
def scale (x : Float) (exponent : Int) : Option Float :=
  if exponent.natAbs ≤ 308 then
    if 0 ≤ exponent then
      let product := x * powerOfTen exponent.natAbs
      if product.isInf then none else some product
    else some (x / powerOfTen exponent.natAbs)
  else if x == 0 then some x
  else if 0 ≤ exponent then none
  else scale (x / powerOfTen 308) (exponent + 308)
termination_by exponent.natAbs

def signed (negative : Bool) (x : Float) : Float := if negative then -x else x

/-- The number with a significand and a power of ten, read up to the rest of the
text. -/
def scaled (negative : Bool) (significand : Nat) (exponent : Int) : Reader Numeral := fun rest =>
  match scale significand.toUInt64.toFloat exponent with
  | some x => .ok (.float (signed negative x), rest)
  | none => .error (faultBefore .numberOutOfRange rest)

/-- Reads what follows the letter of an exponent. An exponent too great to be
counted leaves zero of a number that is divided or that was zero before. -/
def readExponent (negative : Bool) (significand : Nat) (exponent : Int) : Reader Numeral :=
  fun text =>
    let (up, text) :=
      match text with
      | '+' :: rest => (true, rest)
      | '-' :: rest => (false, rest)
      | rest => (true, rest)
    match takeDigits text with
    | ([], []) => .error (faultAtEnd .endInValue)
    | ([], rest) => .error (faultWithin .invalidNumber rest)
    | (digits, rest) =>
      match gather maxExponent 0 digits with
      | (power, []) =>
        scaled negative significand (if up then exponent + power else exponent - power) rest
      | (_, _ :: after) =>
        if significand ≠ 0 && up then .error (faultBefore .numberOutOfRange (after ++ rest))
        else .ok (.float (signed negative 0), rest)

/-- Reads an exponent if one comes next. -/
def readScale (negative : Bool) (significand : Nat) (exponent : Int) : Reader Numeral
  | 'e' :: rest => readExponent negative significand exponent rest
  | 'E' :: rest => readExponent negative significand exponent rest
  | rest => scaled negative significand exponent rest

/-- Reads what follows the point of a number. -/
def readFraction (negative : Bool) (significand : Nat) (exponent : Int) : Reader Numeral :=
  fun text =>
    match takeDigits text with
    | ([], rest) =>
      .error (faultWithin (if rest.isEmpty then .endInValue else .invalidNumber) rest)
    | (digits, rest) =>
      let (significand, omitted) := gather maxSignificand significand digits
      readScale negative significand (exponent - (digits.length - omitted.length : Nat)) rest

/-- The number with neither point nor exponent. -/
def whole (negative : Bool) (significand : Nat) : Numeral :=
  if !negative then .integer significand
  else if 0 < significand && significand ≤ UInt64.size / 2 then .integer (-significand)
  else .float (-significand.toUInt64.toFloat)

/-- Reads what follows the whole digits of a number. -/
def readAfterWhole (negative : Bool) (digits : List Char) : Reader Numeral := fun rest =>
  let (significand, omitted) := gather maxSignificand 0 digits
  match rest with
  | '.' :: rest => readFraction negative significand omitted.length rest
  | rest =>
    if omitted.isEmpty && rest.head? ≠ some 'e' && rest.head? ≠ some 'E' then
      .ok (whole negative significand, rest)
    else readScale negative significand omitted.length rest

/-- Reads a number from behind its sign. -/
def readNumber (negative : Bool) : Reader Numeral := fun text =>
  match takeDigits text with
  | ([], []) => .error (faultAtEnd .endInValue)
  | ([], rest) => .error (faultWithin .invalidNumber rest)
  | ('0' :: d :: digits, rest) => .error (faultWithin .invalidNumber (d :: digits ++ rest))
  | (digits, rest) => readAfterWhole negative digits rest

end BoxedTypes.Json
