import HttpSnippet.Number.Binary64
import HttpSnippet.Text.Basic

/-!
# Shortest decimal notation

A number is written with the fewest digits that read back as the same number, and among those with
the decimal nearest to it. Notation is positional while the leading digit stands between the fourth
decimal place and the sixteenth place before the point, and scientific outside.
-/
namespace HttpSnippet.Binary64

-- powers are those of the core library, also where another library has its own
attribute [local instance (high)] instPowNat

/-- The decimal `digits * 10 ^ exponent`. -/
structure Decimal where
  digits : Nat
  exponent : Int
deriving DecidableEq, Repr

/-- Compares `a * 10 ^ i` with `n * 2 ^ j`. -/
def compareScaled (a : Nat) (i : Int) (n : Nat) (j : Int) : Ordering :=
  compare (a * 10 ^ i.toNat * 2 ^ (-j).toNat) (n * 2 ^ j.toNat * 10 ^ (-i).toNat)

/-- Whether a decimal lies among the reals that round to `m * 2 ^ q`. Below a power of two the gap
is half as wide, and the ends belong to the even mantissa. -/
def readsBack (m : Nat) (q : Int) (d : Decimal) : Bool :=
  let narrow := m = 2 ^ (52 : Nat) && minExponent < q
  let low := if narrow then 4 * m - 1 else 4 * m - 2
  let atLow := compareScaled d.digits d.exponent low (q - 2)
  let atHigh := compareScaled d.digits d.exponent (4 * m + 2) (q - 2)
  let closed := m % 2 == 0
  (atLow == .gt || (closed && atLow == .eq)) && (atHigh == .lt || (closed && atHigh == .eq))

/-- The least `k` with `m * 2 ^ q < 10 ^ k`, for positive `m`. -/
def scale (m : Nat) (q : Int) : Int :=
  -- 30103 / 100000 is the decimal logarithm of two; the estimate is short by two at most
  let k := Int.fdiv (((m.log2 : Int) + q) * 30103) 100000
  if compareScaled 1 k m q == .gt then k
  else if compareScaled 1 (k + 1) m q == .gt then k + 1
  else k + 2

/-- Of the two multiples of `10 ^ i` around `m * 2 ^ q`, the nearer one that reads back. -/
def nearestOn (m : Nat) (q i : Int) : Option Decimal :=
  let below := m * 2 ^ q.toNat * 10 ^ (-i).toNat / (2 ^ (-q).toNat * 10 ^ i.toNat)
  let down : Decimal := ⟨below, i⟩
  let up : Decimal := ⟨below + 1, i⟩
  if readsBack m q down then
    if readsBack m q up then
      match compareScaled (2 * below + 1) i (2 * m) q with
      | .gt => some down
      | .lt => some up
      | .eq => some (if below % 2 = 0 then down else up)
    else some down
  else if readsBack m q up then some up
  else none

/-- Moves trailing zeros of the digits into the exponent. -/
def Decimal.stripZeros (d : Decimal) : Decimal :=
  if d.digits = 0 then d
  else if d.digits % 10 = 0 then stripZeros ⟨d.digits / 10, d.exponent + 1⟩
  else d
termination_by d.digits
decreasing_by omega

/-- The exact value of `m * 2 ^ q`. -/
def exactDecimal (m : Nat) (q : Int) : Decimal := ⟨m * 2 ^ q.toNat * 5 ^ (-q).toNat, min q 0⟩

/-- The shortest decimal that reads back as `m * 2 ^ q`. Seventeen digits are enough; the exact
value stands at the end of the search. -/
def shortest (m : Nat) (q : Int) : Decimal :=
  let k := scale m q
  let found := (List.range 17).findSome? fun (n : Nat) => nearestOn m q (k - (n + 1))
  (found.getD (exactDecimal m q)).stripZeros

/-- The notation of a decimal with positive digits. -/
def Decimal.notate (d : Decimal) : Text :=
  let ds := Text.ofNat d.digits
  let lead := ds.length + d.exponent - 1
  if -4 ≤ lead && lead < 16 then
    if 0 ≤ d.exponent then ds ++ List.replicate d.exponent.toNat '0' ++ ".0"
    else if 0 ≤ lead then ds.take (lead.toNat + 1) ++ "." ++ ds.drop (lead.toNat + 1)
    else "0." ++ List.replicate (-lead - 1).toNat '0' ++ ds
  else
    let fraction : Text := if ds.length = 1 then [] else '.' :: ds.drop 1
    let size := Text.ofNat lead.natAbs
    let mark : Text := if lead < 0 then "e-" else "e+"
    -- the exponent has two digits at least
    ds.take 1 ++ fraction ++ mark ++ (if size.length = 1 then '0' :: size else size)

/-- The text of a number. -/
def notate : Binary64 → Text
  | .nan => "nan"
  | .infinity false => "inf"
  | .infinity true => "-inf"
  | .finite negative m q =>
    let size : Text := if m = 0 then "0.0" else (shortest m q).notate
    if negative then '-' :: size else size

end HttpSnippet.Binary64
