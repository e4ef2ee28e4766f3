import HttpSnippet.Json.Reader

/-!
# Kinds of plain scalars

A plain scalar is more than a text if it has one of the forms of version 1.1: truth values by
several names, null, integers in four bases and in base sixty, floating-point numbers with a point,
dates. One line feed at the end of a scalar does not count against its form.
-/
namespace HttpSnippet.Yaml

/-- The tags that a value can have. -/
inductive Tag where
  | null
  | bool
  | int
  | float
  | timestamp
  | str
  | binary
  | seq
  | map
  | set
  /-- A sequence of mappings with one entry each. -/
  | pairs
  | merge
  | value
  /-- Any tag that says nothing here. -/
  | other
deriving DecidableEq, Repr

/-- Whether a tag is one of a collection. -/
def Tag.isCollection : Tag → Bool
  | .seq | .map | .set | .pairs => true
  | _ => false

namespace Plain

def boolNames : List Text := [
  "yes", "Yes", "YES", "no", "No", "NO", "true", "True", "TRUE", "false", "False", "FALSE",
  "on", "On", "ON", "off", "Off", "OFF"]

def nullNames : List Text := ["~", "null", "Null", "NULL", ""]

def infinityNames : List Text := [".inf", ".Inf", ".INF"]

def nanNames : List Text := [".nan", ".NaN", ".NAN"]

def isDigit (c : Char) : Bool := Json.isDigit c

def isDigitOrLine (c : Char) : Bool := isDigit c || c = '_'

/-- The text without one sign in front. -/
def unsigned : Text → Text
  | '-' :: t => t
  | '+' :: t => t
  | t => t

/-- A non-empty text of characters with a property. -/
def allOf (p : Char → Bool) (t : Text) : Bool := !t.isEmpty && t.all p

/-- One or two digits below sixty. -/
def isSixtieth : Text → Bool
  | [a] => isDigit a
  | [a, b] => '0' ≤ a && a ≤ '5' && isDigit b
  | _ => false

/-- A number in base sixty whose first place satisfies a condition. -/
def isSexagesimal (first : Text → Bool) (t : Text) : Bool :=
  match t.splitOn ':' with
  | place :: second :: more => first place && (second :: more).all isSixtieth
  | _ => false

/-- Digits and underscores that start with a digit. -/
def isWhole (t : Text) : Bool := t.head?.any isDigit && t.all isDigitOrLine

/-- Digits and underscores that start with a digit other than zero. -/
def isPositive (t : Text) : Bool := isWhole t && t.head? ≠ some '0'

def isHexDigit (c : Char) : Bool := (Json.hexValue? c).isSome

def isInt (t : Text) : Bool :=
  match unsigned t with
  | '0' :: 'b' :: t => allOf (fun c => c = '0' || c = '1' || c = '_') t
  | '0' :: 'x' :: t => allOf (fun c => isHexDigit c || c = '_') t
  | ['0'] => true
  | '0' :: t => t.all fun c => ('0' ≤ c && c ≤ '7') || c = '_'
  | t => isPositive t || isSexagesimal isPositive t

/-- An exponent, which needs its sign; nothing at all is fine too. -/
def isExponent : Text → Bool
  | [] => true
  | e :: sign :: t => (e = 'e' || e = 'E') && (sign = '+' || sign = '-') && allOf isDigit t
  | _ => false

/-- Fraction digits with an exponent behind them. -/
def isFraction (t : Text) : Bool := isExponent (t.dropWhile isDigitOrLine)

def isFloat (t : Text) : Bool :=
  let u := unsigned t
  infinityNames.contains u || nanNames.contains t ||
    match u.cut? "." with
    | none => false
    | some ([], fraction) =>
      -- no sign may stand before a bare point
      t.head? = some '.' && fraction.head?.any isDigit && isFraction fraction
    | some (whole, fraction) =>
      (isWhole whole && isFraction fraction) ||
        (isSexagesimal isWhole whole && fraction.all isDigitOrLine)

/-- The parts of a date or a point in time, as texts. -/
structure TimeParts where
  year : Text
  month : Text
  day : Text
  /-- Hour, minute and second. -/
  clock : Option (Text × Text × Text) := none
  fraction : Text := []
  /-- The sign, the hours and the minutes of an offset. -/
  zone : Option (Bool × Text × Text) := none

/-- A number of digits between two bounds, as many as there are, and what follows. -/
def digitsBetween? (least most : Nat) (t : Text) : Option (Text × Text) :=
  let ds := (t.take most).takeWhile isDigit
  if ds.length < least then none else some (ds, t.drop ds.length)

def expect? (c : Char) : Text → Option Text
  | [] => none
  | d :: t => if c = d then some t else none

/-- A text without one line feed at its end, unless it is nothing else. -/
def withoutLineFeed (t : Text) : Text :=
  if 1 < t.length && t.getLast? = some '\n' then t.dropLast else t

def isSpaceOrTab (c : Char) : Bool := c = ' ' || c = '\t'

/-- An offset behind a time of day: nothing, `Z`, or signed hours with minutes if need be. -/
def zone? (t : Text) : Option (Option (Bool × Text × Text)) :=
  match t, t.dropWhile isSpaceOrTab with
  | [], _ => some none
  | _, ['Z'] => some (some (false, ['0'], ['0']))
  | _, sign :: rest =>
    if sign = '+' || sign = '-' then do
      let (hours, rest) ← digitsBetween? 1 2 rest
      match rest with
      | [] => return some (sign = '-', hours, ['0'])
      | ':' :: rest =>
        let (minutes, rest) ← digitsBetween? 2 2 rest
        if rest.isEmpty then return some (sign = '-', hours, minutes) else none
      | _ => none
    else none
  | _, [] => none

/-- The parts of a date with the time behind it. -/
def clock? (date : TimeParts) (t : Text) : Option TimeParts := do
  let t ← match t with
    | 'T' :: t => some t
    | 't' :: t => some t
    | t => match t.takeWhile isSpaceOrTab with
      | [] => none
      | _ => some (t.dropWhile isSpaceOrTab)
  let (hour, t) ← digitsBetween? 1 2 t
  let (minute, t) ← digitsBetween? 2 2 (← expect? ':' t)
  let (second, t) ← digitsBetween? 2 2 (← expect? ':' t)
  let (fraction, t) := match t with
    | '.' :: t => (t.takeWhile isDigit, t.dropWhile isDigit)
    | t => ([], t)
  let zone ← zone? t
  return { date with clock := some (hour, minute, second), fraction, zone }

/-- The parts of a timestamp: a date, or a date with a time of day. -/
def timeParts? (t : Text) : Option TimeParts := do
  let (year, t) ← digitsBetween? 4 4 t
  let (month, t) ← digitsBetween? 1 2 (← expect? '-' t)
  let (day, t) ← digitsBetween? 1 2 (← expect? '-' t)
  let date : TimeParts := { year, month, day }
  if t.isEmpty then return date else clock? date t

/-- A date without a time of day is recognised only when it is written in full. -/
def isTimestamp (t : Text) : Bool :=
  match timeParts? t with
  | some p => p.clock.isSome || (p.month.length = 2 && p.day.length = 2)
  | none => false

/-- The marks of tags, anchors and aliases, which are reserved and stand for nothing. -/
def reserved : List Text := ["!", "&", "*"]

/-- The tag of a plain scalar. -/
def tag (scalar : Text) : Tag :=
  let t := withoutLineFeed scalar
  if boolNames.contains t then .bool
  else if isFloat t then .float
  else if isInt t then .int
  else if t = ("<<" : Text) then .merge
  else if nullNames.contains t then .null
  else if isTimestamp t then .timestamp
  else if t = ("=" : Text) then .value
  else if reserved.contains t then .other
  else .str

end Plain
end HttpSnippet.Yaml
