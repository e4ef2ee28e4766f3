import HttpSnippet.Text.Base64
import HttpSnippet.Text.Case
import HttpSnippet.Value.Basic
import HttpSnippet.Yaml.Resolve

/-!
# What scalars stand for

The tag of a scalar decides how its text is read: as a name, a number in one of several bases, a
date, octets in base 64, or as it is. Numbers and dates that have the right form and no value are
errors of their own.
-/
namespace HttpSnippet.Yaml

inductive ReadError where
  /-- The text is no YAML document, or one with a tag that has no meaning. -/
  | malformed
  /-- An escape names a code point beyond the last one. -/
  | noCharacter (code : Nat)
  /-- There is no room for a part of the document inside those around it. -/
  | tooDeep
  /-- A numeral has no value in its base. -/
  | badNumeral (t : Text) (base : Nat) (fault : Number.IntegerFault)
  /-- A number in base sixty has too many places. -/
  | tooLarge
  /-- A text that should be a floating-point number is none. -/
  | badFloat (t : Text)
  /-- A part of a date lies outside its range. -/
  | badDate (reason : Text)
  /-- A text that should be a date is none. -/
  | noDate
  /-- A mapping stands where the text of a date should. -/
  | noDateText
  /-- A text that should be a truth value is none. -/
  | badBool
  /-- A number has no text at all. -/
  | noDigits
deriving DecidableEq, Repr

abbrev ReadM := Except ReadError

def digitIn? (base : Nat) (c : Char) : Option Nat :=
  (Json.hexValue? c <|> Text.decimalValue? c).filter (· < base)

/-- The letter that marks a numeral in a base behind its leading zero. -/
def baseMark (base : Nat) : Char := if base = 2 then 'b' else if base = 8 then 'o' else 'x'

/-- Splits a sign off; the flag tells whether it is a minus. -/
def splitSign : Text → Bool × Text
  | '-' :: t => (true, t)
  | '+' :: t => (false, t)
  | t => (false, t)

/-- The text without the white space that a numeral may have around it. -/
def withoutMargins (t : Text) : Text :=
  ((t.dropWhile Number.isMargin).reverse.dropWhile Number.isMargin).reverse

/-- An integer in a base that is a power of two, which may carry the mark of its base. -/
def readPowerBase (base : Nat) (t : Text) : ReadM Int :=
  let (negative, ds) := splitSign (withoutMargins t)
  let ds := match ds with
    | '0' :: mark :: rest => if mark.toLower = baseMark base then rest else ds
    | _ => ds
  match ds, ds.mapM (digitIn? base) with
  | _ :: _, some values =>
    let n := values.foldl (fun a d => base * a + d) 0
    .ok (if negative then -(n : Int) else n)
  | _, _ => .error (.badNumeral t base .malformed)

def readDecimal (t : Text) : ReadM Int :=
  (Number.readInteger t).mapError fun fault => .badNumeral t 10 fault

/-- The sum of places in base sixty. -/
def sixties (places : List Int) : Int := places.foldl (fun a d => 60 * a + d) 0

def withoutLines (t : Text) : Text := t.filter (· ≠ '_')

def readInt (t : Text) : ReadM Int := do
  let t := withoutLines t
  let some first := t.head? | throw .noDigits
  let negative := first = '-'
  let t := if negative || first = '+' then t.drop 1 else t
  let n ←
    if t = ['0'] then .ok 0
    else
      match t with
      | '0' :: 'b' :: ds => readPowerBase 2 ds
      | '0' :: 'x' :: ds => readPowerBase 16 ds
      | '0' :: _ => readPowerBase 8 t
      | [] => .error .noDigits
      | _ =>
        if t.contains ':' then ((t.splitOn ':').mapM readDecimal).map sixties else readDecimal t
  return if negative then -n else n

/-- An unsigned decimal with an optional point and exponent. -/
def unsignedFloat? (t : Text) : Option Binary64 :=
  let whole := t.takeWhile Json.isDigit
  let (places, rest) := match t.dropWhile Json.isDigit with
    | '.' :: t => (t.takeWhile Json.isDigit, t.dropWhile Json.isDigit)
    | t => ([], t)
  let digits := Json.digitsValue (whole ++ places)
  if whole.isEmpty && places.isEmpty then none
  else
    match Json.exponent? rest with
    | some (e, _, []) => some (Binary64.ofDecimal false digits (e - places.length))
    | some _ => none
    | none =>
      if rest.isEmpty then some (Binary64.ofDecimal false digits (-(places.length : Int)))
      else none

/-- A decimal of any script or a name, with an optional sign and white space around it. -/
def readDecimalFloat (t : Text) : ReadM Binary64 :=
  let asciiDigit (c : Char) : Char := ((Text.decimalValue? c).map Nat.digitChar).getD c
  let (negative, u) := splitSign ((withoutMargins t).map asciiDigit)
  let x : Option Binary64 :=
    if u = ("inf" : Text) || u = ("infinity" : Text) then some (.infinity false)
    else if u = ("nan" : Text) then some .nan
    else unsignedFloat? u
  match x with
  | some x => .ok (if negative then x.negate else x)
  | none => .error (.badFloat t)

/-- The places of a number in base sixty, lowest first, each rounded into the sum. The weight of a
place is rounded too, and has to be finite. -/
def sumSixties (places : List Binary64) : ReadM Binary64 :=
  let step (before : Binary64 × Nat) (place : Binary64) : ReadM (Binary64 × Nat) :=
    match Binary64.ofNat before.2 with
    | .infinity _ => .error .tooLarge
    | weight => .ok (before.1.add (place.mul weight), 60 * before.2)
  (places.foldlM step (.zero false, 1)).map (·.1)

def readFloat (t : Text) : ReadM Binary64 := do
  let t : Text := Text.toLower (withoutLines t)
  let some first := t.head? | throw .noDigits
  let negative := first = '-'
  let t := if negative || first = '+' then t.drop 1 else t
  let x ←
    if t = (".inf" : Text) then .ok (.infinity false)
    else if t = (".nan" : Text) then .ok .nan
    else if t.contains ':' then
      ((t.splitOn ':').mapM readDecimalFloat).bind fun places => sumSixties places.reverse
    else readDecimalFloat t
  return if negative then x.negate else x

def isLeapYear (year : Nat) : Bool := year % 4 = 0 && (year % 100 ≠ 0 || year % 400 = 0)

def daysIn (year month : Nat) : Nat :=
  if month = 2 then if isLeapYear year then 29 else 28
  else if [4, 6, 9, 11].contains month then 30
  else 31

/-- What is said about an offset in minutes that is a day or more. -/
def offsetMessage (minutes : Int) : Text :=
  let days := minutes.fdiv 1440
  let seconds := (minutes.fmod 1440) * 60
  let ofDay : Text := if seconds = 0 then [] else ", seconds=" ++ Text.ofInt seconds
  "offset must be a timedelta strictly between -timedelta(hours=24) and timedelta(hours=24), " ++
    "not datetime.timedelta(days=" ++ Text.ofInt days ++ ofDay ++ ")."

def readDate (p : Plain.TimeParts) : ReadM Value := do
  let number := Json.digitsValue
  let date : Date := ⟨number p.year, number p.month, number p.day⟩
  let check (holds : Bool) (reason : String) : ReadM Unit :=
    if holds then .ok () else .error (.badDate reason.toList)
  let checkDate : ReadM Unit := do
    if date.year = 0 then throw (.badDate "year 0 is out of range")
    check (1 ≤ date.month && date.month ≤ 12) "month must be in 1..12"
    check (1 ≤ date.day && date.day ≤ daysIn date.year date.month) "day is out of range for month"
  match p.clock with
  | none =>
    checkDate
    return .date date
  | some (hour, minute, second) =>
    let micros := (p.fraction ++ List.replicate 6 '0').take 6
    let offset := p.zone.map fun (negative, hours, minutes) =>
      let n : Int := number hours * 60 + number minutes
      if negative then -n else n
    if let some n := offset then
      if 1440 ≤ n.natAbs then throw (.badDate (offsetMessage n))
    checkDate
    check (number hour < 24) "hour must be in 0..23"
    check (number minute < 60) "minute must be in 0..59"
    check (number second < 60) "second must be in 0..59"
    return .moment date
      { hour := number hour, minute := number minute, second := number second,
        microsecond := number micros, offset }

def boolOf? (t : Text) : Option Bool :=
  let t := t.map Char.toLower
  if t = ("yes" : Text) || t = ("true" : Text) || t = ("on" : Text) then some true
  else if t = ("no" : Text) || t = ("false" : Text) || t = ("off" : Text) then some false
  else none

/-- Octets in base 64, of which the text has to be ASCII. -/
def readOctets (t : Text) : ReadM Value :=
  match if t.all (·.toNat < 0x80) then Text.Base64.decode? t else none with
  | some bytes => .ok (.octets bytes)
  | none => .error .malformed

def scalarValue (tag : Tag) (t : Text) : ReadM Value :=
  match tag with
  | .null => .ok .null
  | .str => .ok (.str t)
  | .binary => readOctets t
  | .bool =>
    match boolOf? t with
    | some b => .ok (.bool b)
    | none => .error .badBool
  | .int => (readInt t).map .int
  | .float => (readFloat t).map .float
  | .timestamp =>
    match Plain.timeParts? (Plain.withoutLineFeed t) with
    | some parts => readDate parts
    | none => .error .noDate
  | .seq | .map | .set | .pairs | .merge | .value | .other => .error .malformed

end HttpSnippet.Yaml
