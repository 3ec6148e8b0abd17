import QueryAid.Decimal.Binary64
/-!
# The shortest decimal that reads back

A floating-point number is written with the fewest digits that are read back as the same number. The decimals
with a given last place form a grid; the coarsest grid that meets the interval of reals which round to the
number has the shortest decimal, and of the grid's points in the interval the one nearest to the number
is taken, the greater one if two are equally near.

The number and the ends of its interval are fractions over one common denominator.
-/

namespace QueryAid

namespace Binary64

/-- **The reals that round to a number:** all of `value`, `low` and `high` are to be divided by `den`. -/
structure Interval where
  value : Nat
  low : Nat
  high : Nat
  den : Nat
  /-- Whether the two ends belong to the interval. -/
  closed : Bool
  deriving DecidableEq, Repr

/-- The interval of `m · 2 ^ e`. Below a power of two the numbers lie twice as close together. -/
def interval (m : Nat) (e : Int) : Interval :=
  let below := if m == twoPow (precision - 1) && leastExponent < e then 1 else 2
  let up : Nat := twoPow e.toNat
  { value := 4 * m * up, low := (4 * m - below) * up, high := (4 * m + 2) * up
    den := 4 * twoPow (-e).toNat, closed := m % 2 == 0 }

/-- Whether a fraction `num / den` with the interval's denominator lies in the interval. -/
def Interval.contains (i : Interval) (num : Nat) : Bool :=
  if i.closed then i.low ≤ num && num ≤ i.high else i.low < num && num < i.high

/-- The interval with everything multiplied so that the points `k · 10 ^ place` have the numerators
`k · step`; and the step. -/
def Interval.grid (i : Interval) (place : Int) : Interval × Nat :=
  let f := tenPow (-place).toNat
  ({ i with value := i.value * f, low := i.low * f, high := i.high * f }, i.den * tenPow place.toNat)

/-- The point of a grid that lies in the interval and is nearest to its value, as a multiple of
`10 ^ place`. -/
def Interval.nearest? (i : Interval) (place : Int) : Option Nat :=
  let (i, step) := i.grid place
  let k := i.value / step
  let lower := i.contains (k * step)
  let upper := i.contains ((k + 1) * step)
  if lower && upper then
    -- Of two points that are equally near, the upper one is taken.
    some (if i.value - k * step < (k + 1) * step - i.value then k else k + 1)
  else if lower then some k
  else if upper then some (k + 1)
  else none

/-- The first grid that meets the interval, from the one of `place` on to finer ones. -/
def Interval.search (i : Interval) (place : Int) : Nat → Nat × Int
  | 0 => (i.value / (i.den * tenPow place.toNat), place)
  | steps + 1 =>
    match i.nearest? place with
    | some k => (k, place)
    | none => i.search (place - 1) steps

/-- **The shortest decimal** `digits · 10 ^ place` that reads back as `m · 2 ^ e`. The search starts at a place
above the number's first digit, and ends within it. -/
def shortest (m : Nat) (e : Int) : Nat × Int :=
  if m == 0 then (0, 0)
  else
    let start : Int := ((Nat.log2 m : Int) + e + 1) * 30103 / 100000 + 2
    (interval m e).search start 400

/-- A decimal `digits · 10 ^ place` without an exponent, and without a point if it is whole. -/
def positional (digits : Nat) (place : Int) : String :=
  let ds := Nat.toDigits 10 digits
  if 0 ≤ place then
    String.ofList (if digits == 0 then ['0'] else ds ++ List.replicate place.toNat '0')
  else
    let n := (-place).toNat
    let ds := List.replicate (n + 1 - ds.length) '0' ++ ds
    String.ofList (ds.take (ds.length - n) ++ '.' :: ds.drop (ds.length - n))

/-- **How a number is written:** its shortest decimal, without an exponent. -/
def text : Binary64 → String
  | finite negative m e =>
    let (digits, place) := shortest m e
    (if negative then "-" else "") ++ positional digits place
  | infinity negative => if negative then "-inf" else "inf"

end Binary64

end QueryAid
