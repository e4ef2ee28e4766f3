import HttpSnippet.Text.Digit
import HttpSnippet.Text.Blank

/-!
# Reading integers

An integer is written in decimal digits of any script, with a sign, single underscores between
digits and white space around it. A numeral may have 4300 digits at most.
-/
namespace HttpSnippet.Number

/-- The greatest number of digits that a numeral may have. -/
def maxDigits : Nat := 4300

/-- Why a text is no integer. -/
inductive IntegerFault where
  | malformed
  | tooLong (digits : Nat)
deriving DecidableEq, Repr

/-- ASCII white space, or any other white space beyond ASCII. -/
def isMargin (c : Char) : Bool :=
  if c.toNat < 0x80 then c = ' ' || (9 ≤ c.toNat && c.toNat ≤ 13) else Text.isBlank c

/-- The value of the digits of a numeral, read from its first digit on. -/
def valueOf (digits : List Nat) : Nat := digits.foldl (fun n d => 10 * n + d) 0

/-- The run of digits and single underscores that a text starts with, and the rest; `none` if an
underscore does not stand between two digits. -/
def digitRun : (afterDigit : Bool) → Text → Option (List Nat × Text)
  | afterDigit, [] => if afterDigit then some ([], []) else none
  | afterDigit, c :: t =>
    match Text.decimalValue? c with
    | some d => (digitRun true t).map fun (ds, rest) => (d :: ds, rest)
    | none =>
      if c = '_' then if afterDigit then digitRun false t else none
      else if afterDigit then some ([], c :: t)
      else none

/-- An unsigned numeral with white space after it. The length is checked before what follows. -/
def readDigits (t : Text) : Except IntegerFault Nat :=
  match digitRun false t with
  | none => .error .malformed
  | some (digits, rest) =>
    if maxDigits < digits.length then .error (.tooLong digits.length)
    else if rest.all isMargin then .ok (valueOf digits)
    else .error .malformed

def readInteger (t : Text) : Except IntegerFault Int :=
  match t.dropWhile isMargin with
  | '-' :: rest => (readDigits rest).map fun n => -(n : Int)
  | '+' :: rest => (readDigits rest).map Int.ofNat
  | rest => (readDigits rest).map Int.ofNat

end HttpSnippet.Number
