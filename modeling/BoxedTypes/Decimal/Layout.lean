import BoxedTypes.Decimal.Shortest

/-!
# Decimals as text

A decimal is laid out in one of two ways. Numbers of moderate size are written
in full, with a point and at least one digit on either side of it. Very large
and very small ones are written as one digit, the further digits behind a point,
and a power of ten with its sign. A `Layout` says where the one ends and the
other begins.
-/

namespace BoxedTypes.Decimal

/-- The powers of ten of the leading digit from which and up to which a number
is written in full. -/
structure Layout where
  least : Int
  greatest : Int

namespace Layout

/-- Numbers from a hundred-thousandth up to sixteen whole digits are written in
full. -/
def standard : Layout := ⟨-5, 15⟩

/-- So many zeros. -/
def zeros (n : Nat) : String := String.ofList (List.replicate n '0')

/-- The digits with a point in front of the last `places` of them. -/
def pointed (digits : List Char) (places : Nat) : String :=
  let whole := digits.take (digits.length - places)
  let fraction := digits.drop (digits.length - places)
  String.ofList whole ++ "." ++ String.ofList fraction

/-- The digits of a decimal whose last digit counts `10 ^ exponent`, written in
full. -/
def positional (digits : List Char) (exponent : Int) : String :=
  let places := (-exponent).toNat
  if 0 ≤ exponent then String.ofList digits ++ zeros exponent.toNat ++ ".0"
  else if digits.length ≤ places then
    "0." ++ zeros (places - digits.length) ++ String.ofList digits
  else pointed digits places

/-- The digits of a decimal whose first digit counts `10 ^ exponent`, with that
power written. -/
def scientific (digits : List Char) (exponent : Int) : String :=
  let lead := if digits.length ≤ 1 then String.ofList digits else pointed digits (digits.length - 1)
  let sign := if exponent < 0 then "-" else "+"
  lead ++ "e" ++ sign ++ toString exponent.natAbs

/-- A decimal as text. -/
def render (l : Layout) (d : GridPoint) : String :=
  let digits := Nat.toDigits 10 d.digits
  let leading := d.exponent + digits.length - 1
  if l.least ≤ leading && leading ≤ l.greatest then positional digits d.exponent
  else scientific digits leading

/-- A finite double-precision number as text. Zero keeps its sign. -/
def renderFloat (l : Layout) (x : Float) : String :=
  let bits := x.toBits
  let sign := if bits >>> 63 = 0 then "" else "-"
  let magnitude := Binary.ofBits bits
  sign ++ if magnitude.significand = 0 then "0.0" else l.render magnitude.shortest

end Layout

end BoxedTypes.Decimal
