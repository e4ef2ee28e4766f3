/-!
# Binary floating-point numbers

A binary64 number is kept as the exact rational that it is: a sign, a natural mantissa and a power
of two. Rounding a ratio goes to the nearest such number, and of two equally near ones to the one
with the even mantissa. Everything is exact arithmetic on naturals.
-/
namespace HttpSnippet

-- powers are those of the core library, also where another library has its own
attribute [local instance (high)] instPowNat

/-- A binary64 number. A finite one is `mantissa * 2 ^ exponent` with its sign; the mantissa of a
number in normal range has 53 bits, and zero has the least exponent. -/
inductive Binary64 where
  | nan
  | infinity (negative : Bool)
  | finite (negative : Bool) (mantissa : Nat) (exponent : Int)
deriving DecidableEq, Repr

namespace Binary64

/-- The least exponent, that of the subnormal numbers. -/
def minExponent : Int := -1074

/-- The greatest exponent of a finite number. -/
def maxExponent : Int := 971

def zero (negative : Bool) : Binary64 := .finite negative 0 minExponent

/-- `num / den` rounded to a natural number, ties to even. -/
def roundDiv (num den : Nat) : Nat :=
  let q := num / den
  let r := num % den
  if 2 * r < den then q
  else if den < 2 * r then q + 1
  else if q % 2 = 0 then q else q + 1

/-- The greatest `e` with `2 ^ e ≤ num / den`, for positive naturals. -/
def log2Ratio (num den : Nat) : Int :=
  let e := (num.log2 : Int) - den.log2
  -- the quotient of the leading powers is off by one factor of two at most
  if num * 2 ^ (-e).toNat < den * 2 ^ e.toNat then e - 1 else e

/-- The number nearest to `num / den`; infinity if that lies beyond the greatest finite number. -/
def ofRatio (negative : Bool) (num den : Nat) : Binary64 :=
  if num = 0 then zero negative
  else
    let q := max (log2Ratio num den - 52) minExponent
    let m := roundDiv (num * 2 ^ (-q).toNat) (den * 2 ^ q.toNat)
    -- rounding up may carry into the next power of two
    let (m, q) := if m = 2 ^ (53 : Nat) then (2 ^ (52 : Nat), q + 1) else (m, q)
    if q > maxExponent then .infinity negative else .finite negative m q

/-- The number nearest to `digits * 10 ^ exponent`. Exponents far outside the range of finite
numbers are settled by the size alone. -/
def ofDecimal (negative : Bool) (digits : Nat) (exponent : Int) : Binary64 :=
  if digits = 0 then zero negative
  else
    let size := (Nat.toDigits 10 digits).length + exponent
    if size > 310 then .infinity negative
    else if size < -330 then zero negative
    else ofRatio negative (digits * 10 ^ exponent.toNat) (10 ^ (-exponent).toNat)

/-- The integer with the same value, if there is one. -/
def toInt? : Binary64 → Option Int
  | .nan | .infinity _ => none
  | .finite negative m q =>
    let den := 2 ^ (-q).toNat
    let num := m * 2 ^ q.toNat
    if num % den = 0 then
      some (if negative then -((num / den : Nat) : Int) else (num / den : Nat))
    else none

/-- The least natural number that is not below a non-negative finite number. -/
def ceilNat (m : Nat) (q : Int) : Nat :=
  let den := 2 ^ (-q).toNat
  (m * 2 ^ q.toNat + den - 1) / den

/-- The number with the other sign. -/
def negate : Binary64 → Binary64
  | .nan => .nan
  | .infinity negative => .infinity (!negative)
  | .finite negative m q => .finite (!negative) m q

/-- The number nearest to `m * 2 ^ q`. -/
def ofScaled (negative : Bool) (m : Nat) (q : Int) : Binary64 :=
  ofRatio negative (m * 2 ^ q.toNat) (2 ^ (-q).toNat)

/-- The number nearest to an integer times `2 ^ q`; `negativeZero` is the sign of a zero. -/
def ofScaledInt (n : Int) (q : Int) (negativeZero : Bool) : Binary64 :=
  ofScaled (if n = 0 then negativeZero else n < 0) n.natAbs q

/-- The mantissa with its sign. -/
def signed (negative : Bool) (m : Nat) : Int := if negative then -m else m

/-- The sum, rounded once. A zero is negative only as the sum of two negative ones. -/
def add : Binary64 → Binary64 → Binary64
  | .finite a m q, .finite b n r =>
    let low := min q r
    let sum := signed a m * 2 ^ (q - low).toNat + signed b n * 2 ^ (r - low).toNat
    ofScaledInt sum low (a && b)
  | .nan, _ | _, .nan => .nan
  | .infinity a, .infinity b => if a = b then .infinity a else .nan
  | .infinity a, _ | _, .infinity a => .infinity a

/-- The product, rounded once. -/
def mul : Binary64 → Binary64 → Binary64
  | .finite a m q, .finite b n r => ofScaled (a != b) (m * n) (q + r)
  | .nan, _ | _, .nan => .nan
  | .infinity a, .infinity b => .infinity (a != b)
  | .infinity a, .finite b m _ | .finite b m _, .infinity a =>
    if m = 0 then .nan else .infinity (a != b)

/-- The number nearest to a natural number. -/
def ofNat (n : Nat) : Binary64 := ofRatio false n 1

/-- Numeric equality: zeros of both signs are equal, and a NaN differs from everything. -/
def numEq : Binary64 → Binary64 → Bool
  | .infinity a, .infinity b => a == b
  | .finite a m q, .finite b n r =>
    (a == b || (m == 0 && n == 0)) &&
      m * 2 ^ (q - min q r).toNat == n * 2 ^ (r - min q r).toNat
  | _, _ => false

end Binary64
end HttpSnippet
