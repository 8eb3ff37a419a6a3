/-!
# Shortest decimals

A binary floating-point number stands for every real number that rounds to it.
Among the decimals `digits * 10 ^ exponent` in that interval, the shortest ones
are those on the coarsest decimal grid that has a point in the interval, and of
these the one nearest to the number itself is written; of two that are equally
near, the even one.

Everything is compared in natural numbers. A finite number is
`significand * 2 ^ exponent`, and its interval reaches half of the spacing to
the next number on either side: two quarters of a unit in the last place, except
below a power of two, where the numbers lie twice as close and one quarter is
left. Counting in quarters keeps both bounds whole. The bounds themselves round
to the number exactly if its significand is even.

Only the two grid points next to the number need to be tried on each grid: if
any point of the grid lies in the interval, then so does one of these.
-/

namespace BoxedTypes.Decimal

/-- A positive number `significand * 2 ^ exponent`. -/
structure Binary where
  significand : Nat
  exponent : Int
  /-- Whether the number below is only half as far away as the number above. -/
  closeBelow : Bool
  deriving DecidableEq, Repr

/-- The point `digits * 10 ^ exponent` of a decimal grid. -/
structure GridPoint where
  digits : Nat
  exponent : Int
  deriving DecidableEq, Repr

/-- The magnitude of a finite double-precision number, by its bits. -/
def Binary.ofBits (bits : UInt64) : Binary :=
  let fraction := (bits &&& 0xfffffffffffff).toNat
  let biased := (bits >>> 52 &&& 0x7ff).toNat
  if biased = 0 then ⟨fraction, -1074, false⟩
  else ⟨0x10000000000000 + fraction, biased - 1075, fraction = 0 && 1 < biased⟩

namespace Binary

/-- The bounds of the interval of a number, in quarters of a unit in the last
place. -/
def bounds (x : Binary) : Nat × Nat :=
  (4 * x.significand - (if x.closeBelow then 1 else 2), 4 * x.significand + 2)

/-- What a step of the grid `10 ^ k` and a quarter of a unit in the last place
measure in a common unit. -/
def scales (x : Binary) (k : Int) : Nat × Nat :=
  let q := x.exponent - 2
  (Nat.pow 10 k.toNat * Nat.pow 2 (-q).toNat, Nat.pow 2 q.toNat * Nat.pow 10 (-k).toNat)

/-- Whether `c * 10 ^ k` lies in the interval of a number. -/
def contains (x : Binary) (k : Int) (c : Nat) : Bool :=
  let (step, quarter) := x.scales k
  let (low, high) := x.bounds
  if x.significand % 2 = 0 then low * quarter ≤ c * step && c * step ≤ high * quarter
  else low * quarter < c * step && c * step < high * quarter

/-- The point of the grid `10 ^ k` that stands for a number, if one lies in its
interval. -/
def onGrid? (x : Binary) (k : Int) : Option Nat :=
  let (step, quarter) := x.scales k
  let value := 4 * x.significand * quarter
  let below := value / step
  let rest := 2 * (value % step)
  let belowIsNearer := rest < step || rest = step && below % 2 = 0
  match x.contains k below, x.contains k (below + 1) with
  | true, true => some (if belowIsNearer then below else below + 1)
  | true, false => some below
  | false, true => some (below + 1)
  | false, false => none

/-- An exponent of ten that is above the number. -/
def decimalExponentAbove (x : Binary) : Int :=
  (x.significand.log2 + x.exponent + 1) * 30103 / 100000 + 1

/-- The first hit on the grids `10 ^ k`, `10 ^ (k - 1)` and so on. -/
def search (x : Binary) : Nat → Int → GridPoint
  | 0, k => ⟨0, k⟩
  | fuel + 1, k =>
    match x.onGrid? k with
    | some c => ⟨c, k⟩
    | none => x.search fuel (k - 1)

/-- The shortest decimal that rounds to a positive number. Seventeen digits
always tell two numbers apart, and the first grid tried is at most two places
too coarse for one digit. -/
def shortest (x : Binary) : GridPoint := x.search 20 x.decimalExponentAbove

end Binary

end BoxedTypes.Decimal
