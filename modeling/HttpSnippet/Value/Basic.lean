import HttpSnippet.Json.Basic
import HttpSnippet.Text.Quoted
import HttpSnippet.Number.Shortest

/-!
# Loose values

What a request description or an options file holds before it is checked: JSON data, and what YAML
adds to it, dates, octets, pairs, sets, mapping keys of any scalar kind and collections that contain
themselves. Mappings keep the order of their entries.
-/
namespace HttpSnippet

-- powers are those of the core library, also where another library has its own
attribute [local instance (high)] instPowNat

/-- A day of the calendar. -/
structure Date where
  year : Nat
  month : Nat
  day : Nat
deriving DecidableEq, Repr

/-- A time of day with its offset from universal time, if one is given, in minutes. -/
structure ClockTime where
  hour : Nat
  minute : Nat
  second : Nat
  microsecond : Nat
  offset : Option Int
deriving DecidableEq, Repr

inductive Value where
  | null
  | bool (b : Bool)
  | int (n : Int)
  | float (x : Binary64)
  | str (t : Text)
  | date (d : Date)
  | moment (d : Date) (time : ClockTime)
  | octets (bytes : List UInt8)
  | list (items : List Value)
  | pair (first second : Value)
  | set (items : List Value)
  | map (entries : List (Value × Value))
  /-- A list or a mapping inside itself, where its parts are not given once more. -/
  | again (isMap : Bool)
deriving Repr, Inhabited, BEq

namespace Date

def padded (width n : Nat) : Text :=
  let ds := Text.ofNat n
  List.replicate (width - ds.length) '0' ++ ds

def notate (d : Date) : Text := padded 4 d.year ++ "-" ++ padded 2 d.month ++ "-" ++ padded 2 d.day

end Date

/-- Hours, minutes and seconds, with six decimal places and an offset where there are any. -/
def ClockTime.notate (t : ClockTime) : Text :=
  let pair := Date.padded 2
  let fraction : Text := if t.microsecond = 0 then [] else '.' :: Date.padded 6 t.microsecond
  let offset : Text := match t.offset with
    | none => []
    | some n =>
      (if n < 0 then "-" else "+") ++ pair (n.natAbs / 60) ++ ":" ++ pair (n.natAbs % 60)
  pair t.hour ++ ":" ++ pair t.minute ++ ":" ++ pair t.second ++ fraction ++ offset

/-- The days up to a day of the calendar, from a fixed one on. -/
def Date.ordinal (d : Date) : Nat :=
  -- years are counted from March, so that a leap day comes last
  let year := if d.month < 3 then d.year - 1 else d.year
  let month := (d.month + 9) % 12
  365 * year + year / 4 + year / 400 - year / 100 + (153 * month + 2) / 5 + d.day

/-- Microseconds up to a moment, in the time that its clock shows. -/
def shownMicroseconds (d : Date) (t : ClockTime) : Nat :=
  ((d.ordinal * 1440 + t.hour * 60 + t.minute) * 60 + t.second) * 1000000 + t.microsecond

/-- Whether two moments are the same. With offsets it is the universal time that counts; a moment
without an offset is none with one. -/
def sameMoment (d e : Date) (t u : ClockTime) : Bool :=
  match t.offset, u.offset with
  | none, none => shownMicroseconds d t = shownMicroseconds e u
  | some m, some n =>
    (shownMicroseconds d t : Int) - m * 60000000 = shownMicroseconds e u - n * 60000000
  | _, _ => false

namespace Value

/-- The value of a number, where truth values count as zero and one. -/
def number? : Value → Option (Int ⊕ Binary64)
  | .bool b => some (.inl (if b then 1 else 0))
  | .int n => some (.inl n)
  | .float x => some (.inr x)
  | _ => none

/-- Whether two scalars are the same mapping key. Numbers of all kinds compare by value; lists and
mappings are no keys. -/
def sameKey (a b : Value) : Bool :=
  match a.number?, b.number? with
  | some (.inl m), some (.inl n) => m == n
  | some (.inl m), some (.inr y) => y.toInt? == some m
  | some (.inr x), some (.inl n) => x.toInt? == some n
  | some (.inr x), some (.inr y) => x.numEq y
  | none, none =>
    match a, b with
    | .null, .null => true
    | .str s, .str t => s == t
    | .date d, .date e => d == e
    | .moment d t, .moment e u => sameMoment d e t u
    | .octets a, .octets b => a == b
    | _, _ => false
  | _, _ => false

/-- Whether a value can be a mapping key. -/
def isKey : Value → Bool
  | .list _ | .pair _ _ | .set _ | .map _ | .again _ => false
  | _ => true

/-- The value of an entry. -/
def find? (key : Value) (entries : List (Value × Value)) : Option Value :=
  (entries.find? fun (k, _) => k.sameKey key).map (·.2)

/-- Sets an entry. A repeated key keeps its first place and spelling and takes the last value. -/
def insertBy {κ α : Type} (same : κ → κ → Bool) (key : κ) (value : α) :
    List (κ × α) → List (κ × α)
  | [] => [(key, value)]
  | (k, v) :: rest =>
    if same k key then (k, value) :: rest else (k, v) :: insertBy same key value rest

/-- Sets an entry of a mapping. -/
def insertEntry (key value : Value) (entries : List (Value × Value)) : List (Value × Value) :=
  insertBy sameKey key value entries

mutual
/-- JSON data as a loose value. -/
def ofJson : Json → Value
  | .null => .null
  | .bool b => .bool b
  | .int n => .int n
  | .float x => .float x
  | .str t => .str t
  | .arr items => .list (ofJsonItems items)
  | .obj members => .map (ofJsonMembers members)

def ofJsonItems : List Json → List Value
  | [] => []
  | v :: vs => ofJson v :: ofJsonItems vs

def ofJsonMembers : List (Text × Json) → List (Value × Value)
  | [] => []
  | (k, v) :: ms => (.str k, ofJson v) :: ofJsonMembers ms
end

/-- Why a loose value has no JSON text. -/
inductive JsonFault where
  /-- A date, octets or a set have no form in JSON. -/
  | noForm
  | numeralTooLong
  /-- A collection contains itself. -/
  | endless
  /-- There is no room to enter a collection. -/
  | tooDeep
deriving DecidableEq, Repr

/-- An integer that is not too long to be written in decimal. -/
def writable (n : Int) : Bool := n.natAbs < 10 ^ (4300 : Nat)

/-- The member name that a scalar key becomes. -/
def keyText : Value → Except JsonFault Text
  | .str t => .ok t
  | .null => .ok "null"
  | .bool true => .ok "true"
  | .bool false => .ok "false"
  | .int n => if writable n then .ok (Text.ofInt n) else .error .numeralTooLong
  | .float .nan => .ok "NaN"
  | .float (.infinity false) => .ok "Infinity"
  | .float (.infinity true) => .ok "-Infinity"
  | .float x => .ok x.notate
  | _ => .error .noForm

/-- Goes inside a value that is no scalar with what room is left there. -/
def enter {α : Type} (room : Nat) (inside : Nat → Except JsonFault α) : Except JsonFault α :=
  match room with
  | 0 => .error .tooDeep
  | room + 1 => inside room

mutual
/-- The JSON data that a loose value stands for, with room for so many collections inside each
other. Members that get one name all stay. -/
def toJson (room : Nat) : Value → Except JsonFault Json
  | .null => .ok .null
  | .bool b => .ok (.bool b)
  | .int n => if writable n then .ok (.int n) else .error .numeralTooLong
  | .float x => .ok (.float x)
  | .str t => .ok (.str t)
  | .date _ | .moment _ _ | .octets _ | .set _ => enter room fun _ => .error .noForm
  | .again _ => enter room fun _ => .error .endless
  | .list items => enter room fun room => return .arr (← toJsonItems room items)
  | .pair a b => enter room fun room => return .arr [← toJson room a, ← toJson room b]
  | .map entries => enter room fun room => return .obj (← toJsonMembers room entries)

def toJsonItems (room : Nat) : List Value → Except JsonFault (List Json)
  | [] => .ok []
  | v :: vs => return (← toJson room v) :: (← toJsonItems room vs)

def toJsonMembers (room : Nat) : List (Value × Value) → Except JsonFault (List (Text × Json))
  | [] => .ok []
  | (k, v) :: rest => do
    let name ← keyText k
    return (name, ← toJson room v) :: (← toJsonMembers room rest)
end

mutual
/-- How many collections stand inside each other. -/
def depth : Value → Nat
  | .list items | .set items => depthOfItems items + 1
  | .pair a b => max a.depth b.depth + 1
  | .map entries => depthOfEntries entries + 1
  | _ => 0

def depthOfItems : List Value → Nat
  | [] => 0
  | v :: vs => max v.depth (depthOfItems vs)

def depthOfEntries : List (Value × Value) → Nat
  | [] => 0
  | (_, v) :: rest => max v.depth (depthOfEntries rest)
end

/-- Whether a value counts as something: not null, not false, no zero and not empty. -/
def isTruthy : Value → Bool
  | .null => false
  | .bool b => b
  | .int n => n != 0
  | .float (.finite _ m _) => m != 0
  | .float _ => true
  | .str t => !t.isEmpty
  | .date _ | .moment _ _ | .pair _ _ | .again _ => true
  | .octets bytes => !bytes.isEmpty
  | .list items | .set items => !items.isEmpty
  | .map entries => !entries.isEmpty

end Value
end HttpSnippet
