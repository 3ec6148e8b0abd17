/-!
# Floating-point numbers from decimals

The binary floating-point numbers with 53 bits of precision, as exact rationals, and the one of them that is
nearest to a decimal. Everything is done in natural numbers.
-/

namespace QueryAid

/-- **A binary floating-point number of 64 bits** that is not a NaN: `mantissa · 2 ^ exponent` with a sign, or
an infinity. -/
inductive Binary64 where
  | finite (negative : Bool) (mantissa : Nat) (exponent : Int)
  | infinity (negative : Bool)
  deriving DecidableEq, Repr

namespace Binary64

/-- A power of two. -/
def twoPow (n : Nat) : Nat := Nat.pow 2 n

/-- A power of ten. -/
def tenPow (n : Nat) : Nat := Nat.pow 10 n

/-- The bits of a mantissa. -/
def precision : Nat := 53

/-- The least exponent. -/
def leastExponent : Int := -1074

/-- The exponent above which no finite number has a mantissa of full precision. -/
def greatestExponent : Int := 971

/-- A quotient rounded to the nearest integer, and to the even one of two that are equally near. -/
def roundDiv (num den : Nat) : Nat :=
  let q := num / den
  let r := num % den
  if 2 * r < den then q
  else if den < 2 * r then q + 1
  else if q % 2 == 0 then q else q + 1

/-- The quotient `num / den`, divided by `2 ^ e`, as a fraction. -/
def scaleDown (num den : Nat) (e : Int) : Nat × Nat :=
  if 0 ≤ e then (num, den * twoPow e.toNat) else (num * twoPow (-e).toNat, den)

/-- The greatest `e` such that `2 ^ e` is not above the positive fraction `num / den`. -/
def floorLog2 (num den : Nat) : Int :=
  let e : Int := (Nat.log2 num : Int) - (Nat.log2 den : Int)
  let (n, d) := scaleDown num den e
  if n < d then e - 1 else e

/-- The number nearest to a fraction. -/
def ofFraction (negative : Bool) (num den : Nat) : Binary64 :=
  if num == 0 then finite negative 0 leastExponent
  else
    let e := max leastExponent (floorLog2 num den - (precision - 1))
    let (n, d) := scaleDown num den e
    let m := roundDiv n d
    -- Rounding up may carry into one bit more than there is room for.
    let (m, e) := if m == twoPow precision then (twoPow (precision - 1), e + 1) else (m, e)
    if greatestExponent < e then infinity negative else finite negative m e

/-- The number nearest to `digits · 10 ^ exponent`. Decimals that are far out of range are decided by their
size alone. -/
def ofDecimal (negative : Bool) (digits : Nat) (exponent : Int) : Binary64 :=
  let size : Int := (Nat.toDigits 10 digits).length + exponent
  if digits == 0 || size < -330 then finite negative 0 leastExponent
  else if 320 < size then infinity negative
  else if 0 ≤ exponent then ofFraction negative (digits * tenPow exponent.toNat) 1
  else ofFraction negative digits (tenPow (-exponent).toNat)

end Binary64

end QueryAid
