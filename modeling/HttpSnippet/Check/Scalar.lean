import HttpSnippet.Check.Basic
import HttpSnippet.Number.Integer
import HttpSnippet.Json.Reader

/-!
# Reading scalars leniently

Truth values may be given as words or as zero and one, and integers as texts or as floating-point
numbers without a fraction.
-/
namespace HttpSnippet.Reading

-- powers are those of the core library, also where another library has its own
attribute [local instance (high)] instPowNat

def falseWords : List Text := ["0", "off", "f", "false", "n", "no"]

def trueWords : List Text := ["1", "on", "t", "true", "y", "yes"]

/-- The value of a word, in ASCII letters of either case. -/
def boolWord? (t : Text) : Option Bool :=
  let word := t.map Char.toLower
  if falseWords.contains word then some false
  else if trueWords.contains word then some true
  else none

/-- Whether an integer fits into a signed word of 64 bits. -/
def fitsWord (n : Int) : Bool := -(2 ^ (63 : Nat)) ≤ n && n < 2 ^ (63 : Nat)

def boolOfInt (n : Int) : Checked Bool :=
  if n = 0 then .valid false
  else if n = 1 then .valid true
  else if fitsWord n then .issue .unreadableBool
  else .issue .noBool

/-- The integer that a floating-point number without a fraction is, strictly within the bounds of
a signed word of 64 bits. -/
def integerOfFloat (x : Binary64) : Except Cause Int :=
  match x with
  | .nan | .infinity _ => .error .nonFiniteInteger
  | x =>
    match x.toInt? with
    | none => .error .fractionalInteger
    | some n =>
      if -(2 ^ (63 : Nat)) < n && n < 2 ^ (63 : Nat) then .ok n else .error .oversizedInteger

def boolOfWord (t : Text) : Checked Bool :=
  match boolWord? t with
  | some b => .valid b
  | none => .issue .unreadableBool

def bool : Reading Bool
  | .bool b => .valid b
  | .str t => boolOfWord t
  | .octets bytes =>
    match Text.Utf8.decode bytes with
    | .ok t => boolOfWord t
    | .error _ => .issue .unreadableBool
  | .int n => boolOfInt n
  | .float x =>
    match integerOfFloat x with
    | .ok n => boolOfInt n
    | .error _ => .issue .noBool
  | _ => .issue .noBool

/-- White space around a numeral. Unlike for stripping, separators below the space do not count. -/
def isMargin (c : Char) : Bool := Text.isBlank c && !(0x1C ≤ c.toNat && c.toNat ≤ 0x1F)

def trimMargins (t : Text) : Text := ((t.dropWhile isMargin).reverse.dropWhile isMargin).reverse

/-- An unsigned numeral without leading zeros, up to the first digit that is none or to the last
zero before a point. Underscores between the zeros are passed over, and a minus sign may follow
them. -/
def dropZeros? (t : Text) : Option Text :=
  match t with
  | '0' :: rest =>
    match rest.dropWhile fun c => c = '0' || c = '_' with
    | [] => t.getLast?.map fun c => [c]
    | '.' :: fraction =>
      -- the character before the point stays
      some ((t.take (t.length - fraction.length - 1)).drop (t.length - fraction.length - 2) ++
        '.' :: fraction)
    | c :: digits => if c = '-' || Json.isDigit c then some (c :: digits) else none
  | c :: _ => if Json.isDigit c then some t else none
  | [] => none

/-- A numeral without a plus sign and without leading zeros. The digits follow a sign directly. -/
def dropSignAndZeros? : Text → Option Text
  | '-' :: t => (dropZeros? t).map ('-' :: ·)
  | '+' :: '-' :: _ => none
  | '+' :: t => dropZeros? t
  | t => dropZeros? t

/-- A numeral without a point that zeros follow, at least one and nothing else. -/
def dropFraction (t : Text) : Text :=
  match t.cut? "." with
  | some (whole, fraction) => if !fraction.isEmpty && fraction.all (· = '0') then whole else t
  | none => t

/-- A numeral without its underscores, if they stand singly between other characters. -/
def dropUnderscores (t : Text) : Text :=
  let stray := t.head? = some '_' || t.getLast? = some '_' || (t.cut? "__").isSome
  if stray then t else t.filter (· ≠ '_')

/-- A plain decimal numeral: a minus sign at most, no leading zeros and nothing around it. The
length of the sign and the digits is checked before what follows them. -/
def plainInteger (t : Text) : Except Cause Int :=
  let (negative, rest) := match t with
    | '-' :: rest => (true, rest)
    | rest => (false, rest)
  let digits := rest.takeWhile Json.isDigit
  let hasLeadingZero := digits.head? = some '0' && 1 < digits.length
  if digits.isEmpty || hasLeadingZero then .error .unreadableInteger
  else if Number.maxDigits < digits.length + negative.toNat then .error .oversizedInteger
  else if digits.length < rest.length then .error .unreadableInteger
  else
    let n : Int := Json.digitsValue digits
    .ok (if negative then -n else n)

/-- A numeral without margins, a plus sign, leading zeros, an empty fraction and underscores;
`none` if what starts it is no digit. -/
def cleaned? (t : Text) : Option Text :=
  (dropSignAndZeros? (trimMargins t)).map fun s => dropUnderscores (dropFraction s)

/-- The integer that a text stands for. Only a text that is too long as it stands is refused for
its length. -/
def integerText (t : Text) : Except Cause Int :=
  match plainInteger t with
  | .ok n => .ok n
  | .error .oversizedInteger => .error .oversizedInteger
  | .error _ =>
    match cleaned? t with
    | some s => (plainInteger s).mapError fun _ => .unreadableInteger
    | none => .error .unreadableInteger

def integer : Reading Int
  | .int n => .valid n
  | .bool b => .valid (if b then 1 else 0)
  | .float x => .ofScalar (integerOfFloat x)
  | .str t => .ofScalar (integerText t)
  | _ => .issue .noInteger

def natural : Reading Nat := fun v =>
  (integer v).bind fun n => if n < 0 then .issue .negativeInteger else .valid n.toNat

end HttpSnippet.Reading
