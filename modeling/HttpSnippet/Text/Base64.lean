import HttpSnippet.Text.Basic

/-!
# Base64

The standard alphabet with padding: three bytes become four characters, and an unfinished last
group is filled up with `=`. The decoder passes over characters that are not of the alphabet.
-/
namespace HttpSnippet.Text.Base64

/-- The character for a six-bit value. -/
def letter (n : Nat) : Char :=
  if n < 26 then Char.ofNat ('A'.toNat + n)
  else if n < 52 then Char.ofNat ('a'.toNat + (n - 26))
  else if n < 62 then Char.ofNat ('0'.toNat + (n - 52))
  else if n = 62 then '+'
  else '/'

def encode : List UInt8 → Text
  | [] => []
  | [a] =>
    let n := a.toNat * 16
    [letter (n / 64), letter (n % 64), '=', '=']
  | [a, b] =>
    let n := (a.toNat * 256 + b.toNat) * 4
    [letter (n / 4096), letter (n / 64 % 64), letter (n % 64), '=']
  | a :: b :: c :: rest =>
    let n := (a.toNat * 256 + b.toNat) * 256 + c.toNat
    letter (n / 262144) :: letter (n / 4096 % 64) :: letter (n / 64 % 64) :: letter (n % 64) ::
      encode rest

/-- The six-bit value of a character of the alphabet. -/
def sixBits? (c : Char) : Option Nat :=
  if 'A' ≤ c && c ≤ 'Z' then some (c.toNat - 'A'.toNat)
  else if 'a' ≤ c && c ≤ 'z' then some (c.toNat - 'a'.toNat + 26)
  else if '0' ≤ c && c ≤ '9' then some (c.toNat - '0'.toNat + 52)
  else if c = '+' then some 62
  else if c = '/' then some 63
  else none

/-- Decodes with `count` characters of a group read, of which the bits in `held` are left over, and
`pads` padding characters behind them. Padding that completes a group ends the text. -/
def decodeFrom? (count held pads : Nat) : Text → Option (List UInt8)
  | [] => if count = 0 then some [] else none
  | c :: t =>
    if c = '=' then
      if count < 2 then decodeFrom? count held pads t
      else if 4 ≤ count + pads + 1 then some []
      else decodeFrom? count held (pads + 1) t
    else
      match sixBits? c, count with
      | none, _ => decodeFrom? count held pads t
      | some n, 0 => decodeFrom? 1 n 0 t
      | some n, 1 => (decodeFrom? 2 (n % 16) 0 t).map (UInt8.ofNat (held * 4 + n / 16) :: ·)
      | some n, 2 => (decodeFrom? 3 (n % 4) 0 t).map (UInt8.ofNat (held * 16 + n / 4) :: ·)
      | some n, _ => (decodeFrom? 0 0 0 t).map (UInt8.ofNat (held * 64 + n) :: ·)

/-- The octets that a text stands for; `none` if a group is unfinished. -/
def decode? (t : Text) : Option (List UInt8) := decodeFrom? 0 0 0 t

end HttpSnippet.Text.Base64
