import HttpSnippet.Host
import HttpSnippet.Json.Basic
import HttpSnippet.Number.Integer

/-!
# Reading JSON

The reader takes a text from its first character to its last and reports the first fault with its
position, counted in characters from zero. Beyond the standard it accepts `NaN`, `Infinity` and
`-Infinity`; numerals longer than `Number.maxDigits` are refused. Every collection inside another
takes room on the call stack, and the reader stops at the first one for which there is none.
-/
namespace HttpSnippet.Json

/-- What the reader did not find at some position. -/
inductive Fault where
  | value
  | name
  | colon
  | comma
  | endOfText
  | escape
  | unicodeEscape
  | controlCharacter
  | closingQuote
  | byteOrderMark
deriving DecidableEq, Repr

def Fault.message : Fault → Text
  | .value => "Expecting value"
  | .name => "Expecting property name enclosed in double quotes"
  | .colon => "Expecting ':' delimiter"
  | .comma => "Expecting ',' delimiter"
  | .endOfText => "Extra data"
  | .escape => "Invalid \\escape"
  | .unicodeEscape => "Invalid \\uXXXX escape"
  | .controlCharacter => "Invalid control character at"
  | .closingQuote => "Unterminated string starting at"
  | .byteOrderMark => "Unexpected UTF-8 BOM (decode using utf-8-sig)"

inductive ReadError where
  | syntaxError (fault : Fault) (position : Nat)
  | numeralTooLong (digits : Nat)
  /-- There is no room to enter a collection. -/
  | tooDeep (descent : Descent)
deriving DecidableEq, Repr

/-- The unread rest of a text and where it begins. -/
structure Cursor where
  position : Nat
  rest : Text

namespace Cursor

def drop (n : Nat) (c : Cursor) : Cursor := ⟨c.position + n, c.rest.drop n⟩

def isSpace (c : Char) : Bool := c = ' ' || c = '\t' || c = '\n' || c = '\r'

def skipSpace (c : Cursor) : Cursor :=
  let blank := c.rest.takeWhile isSpace
  ⟨c.position + blank.length, c.rest.dropWhile isSpace⟩

def fail {α : Type} (c : Cursor) (fault : Fault) : Except ReadError α :=
  .error (.syntaxError fault c.position)

end Cursor

def hexValue? (c : Char) : Option Nat :=
  if '0' ≤ c && c ≤ '9' then some (c.toNat - '0'.toNat)
  else if 'a' ≤ c && c ≤ 'f' then some (c.toNat - 'a'.toNat + 10)
  else if 'A' ≤ c && c ≤ 'F' then some (c.toNat - 'A'.toNat + 10)
  else none

/-- The value of four hexadecimal digits. -/
def hexUnit? (a b c d : Char) : Option Nat := do
  let a ← hexValue? a
  let b ← hexValue? b
  let c ← hexValue? c
  let d ← hexValue? d
  return ((a * 16 + b) * 16 + c) * 16 + d

/-- The character that a letter stands for after a backslash. -/
def unescape? : Char → Option Char
  | '"' => some '"'
  | '\\' => some '\\'
  | '/' => some '/'
  | 'b' => some '\x08'
  | 'f' => some '\x0c'
  | 'n' => some '\n'
  | 'r' => some '\r'
  | 't' => some '\t'
  | _ => none

def isHighSurrogate (n : Nat) : Bool := 0xD800 ≤ n && n ≤ 0xDBFF

def isLowSurrogate (n : Nat) : Bool := 0xDC00 ≤ n && n ≤ 0xDFFF

/-- The character of a surrogate pair. -/
def joinSurrogates (high low : Nat) : Char :=
  Char.ofNat (0x10000 + (high - 0xD800) * 0x400 + (low - 0xDC00))

/-- The character of a code; a surrogate outside a pair has a stand-in. -/
def unitChar (n : Nat) : Char :=
  if 0xD800 ≤ n && n ≤ 0xDFFF then Text.standIn n else Char.ofNat n

/-- Reads the rest of a string up to its closing quote. `start` is the position of the opening
quote and `position` that of the first unread character. -/
def readString (start position : Nat) : Text → Except ReadError (Text × Cursor)
  | [] => .error (.syntaxError .closingQuote start)
  | '"' :: t => .ok ([], ⟨position + 1, t⟩)
  | ['\\'] => .error (.syntaxError .closingQuote start)
  -- two units that may form a pair; a string never ends right after an escape
  | '\\' :: 'u' :: a :: b :: c :: d :: '\\' :: 'u' :: e :: f :: g :: h :: after :: t =>
    match hexUnit? a b c d with
    | none => .error (.syntaxError .unicodeEscape (position + 1))
    | some high =>
      if isHighSurrogate high then
        match hexUnit? e f g h with
        | none => .error (.syntaxError .unicodeEscape (position + 7))
        | some low =>
          if isLowSurrogate low then
            (readString start (position + 12) (after :: t)).map fun (s, rest) =>
              (joinSurrogates high low :: s, rest)
          else
            (readString start (position + 6) ('\\' :: 'u' :: e :: f :: g :: h :: after :: t)).map
              fun (s, rest) => (unitChar high :: s, rest)
      else
        (readString start (position + 6) ('\\' :: 'u' :: e :: f :: g :: h :: after :: t)).map
          fun (s, rest) => (unitChar high :: s, rest)
  | '\\' :: 'u' :: a :: b :: c :: d :: after :: t =>
    match hexUnit? a b c d with
    | none => .error (.syntaxError .unicodeEscape (position + 1))
    | some unit =>
      (readString start (position + 6) (after :: t)).map fun (s, rest) => (unitChar unit :: s, rest)
  | '\\' :: c :: t =>
    if c = 'u' then .error (.syntaxError .unicodeEscape (position + 1))
    else
      match unescape? c with
      | none => .error (.syntaxError .escape position)
      | some c => (readString start (position + 2) t).map fun (s, rest) => (c :: s, rest)
  | c :: t =>
    if c.toNat < 0x20 then .error (.syntaxError .controlCharacter position)
    else (readString start (position + 1) t).map fun (s, rest) => (c :: s, rest)

def isDigit (c : Char) : Bool := '0' ≤ c && c ≤ '9'

/-- The number that decimal digits stand for. -/
def digitsValue (t : Text) : Nat := t.foldl (fun n c => 10 * n + (c.toNat - '0'.toNat)) 0

/-- The fraction digits after a point, if a point and a digit follow. -/
def fraction? (t : Text) : Option (Text × Text) :=
  match t with
  | '.' :: t =>
    match t.takeWhile isDigit with
    | [] => none
    | ds => some (ds, t.dropWhile isDigit)
  | _ => none

/-- An exponent mark with its value, if a digit follows. The size counts all its characters. -/
def exponent? (t : Text) : Option (Int × Nat × Text) :=
  let digits (negative : Bool) (size : Nat) (t : Text) : Option (Int × Nat × Text) :=
    match t.takeWhile isDigit with
    | [] => none
    | ds =>
      let n : Int := digitsValue ds
      some (if negative then -n else n, size + ds.length, t.dropWhile isDigit)
  match t with
  | e :: t =>
    if e = 'e' || e = 'E' then
      match t with
      | '-' :: t => digits true 2 t
      | '+' :: t => digits false 2 t
      | t => digits false 1 t
    else none
  | [] => none

/-- The integer part of a number: a single zero, or digits that do not start with one. -/
def integerPart? (t : Text) : Option (Text × Text) :=
  match t with
  | '0' :: t => some (['0'], t)
  | t =>
    match t.takeWhile isDigit with
    | [] => none
    | ds => some (ds, t.dropWhile isDigit)

/-- Reads a number. A fraction or an exponent makes it a floating-point number. -/
def readNumber (c : Cursor) : Except ReadError (Json × Cursor) :=
  let (negative, signSize, t) := match c.rest with
    | '-' :: t => (true, 1, t)
    | t => (false, 0, t)
  match integerPart? t with
  | none => c.fail .value
  | some (whole, t) =>
    let position := c.position + signSize + whole.length
    let (places, position, t, hasFraction) := match fraction? t with
      | some (ds, t) => (ds, position + 1 + ds.length, t, true)
      | none => ([], position, t, false)
    match exponent? t with
    | some (e, size, t) =>
      let x := Binary64.ofDecimal negative (digitsValue (whole ++ places)) (e - places.length)
      .ok (.float x, ⟨position + size, t⟩)
    | none =>
      if hasFraction then
        let e : Int := -(places.length : Int)
        let x := Binary64.ofDecimal negative (digitsValue (whole ++ places)) e
        .ok (.float x, ⟨position, t⟩)
      else if Number.maxDigits < whole.length then .error (.numeralTooLong whole.length)
      else
        let n : Int := digitsValue whole
        .ok (.int (if negative then -n else n), ⟨position, t⟩)

/-- The literal names and their values. -/
def literals : List (Text × Json) := [
  ("null", .null), ("true", .bool true), ("false", .bool false), ("NaN", .float .nan),
  ("Infinity", .float (.infinity false)), ("-Infinity", .float (.infinity true))]

/-- A literal name or a number. -/
def readAtom (c : Cursor) : Except ReadError (Json × Cursor) :=
  match literals.find? fun (name, _) => name.isPrefixOf c.rest with
  | some (name, v) => .ok (v, c.drop name.length)
  | none => readNumber c

/-- Goes inside a collection with what room is left there. -/
def enter {α : Type} (descent : Descent) (room : Nat) (inside : Nat → Except ReadError α) :
    Except ReadError α :=
  match room with
  | 0 => .error (.tooDeep descent)
  | room + 1 => inside room

mutual
/-- Reads a value that begins right at the cursor, with room for so many collections inside each
other. Every call takes a character, or comes from one that did, so the text bounds their number. -/
def readValue : (bound room : Nat) → Cursor → Except ReadError (Json × Cursor)
  | 0, _, c => c.fail .value
  | bound + 1, room, c =>
    match c.rest with
    | '"' :: t => do
      let (s, c) ← readString c.position (c.position + 1) t
      return (.str s, c)
    | '[' :: _ =>
      enter .readingArray room fun room =>
        let c := (c.drop 1).skipSpace
        match c.rest with
        | ']' :: _ => .ok (.arr [], c.drop 1)
        | _ => do
          let (items, c) ← readItems bound room c
          return (.arr items, c)
    | '\x7b' :: _ =>
      enter .readingObject room fun room =>
        let c := (c.drop 1).skipSpace
        match c.rest with
        | '\x7d' :: _ => .ok (.obj [], c.drop 1)
        | _ => do
          let (members, c) ← readMembers bound room [] c
          return (.obj members, c)
    | _ => readAtom c

/-- Reads items up to the closing bracket. -/
def readItems : (bound room : Nat) → Cursor → Except ReadError (List Json × Cursor)
  | 0, _, c => c.fail .value
  | bound + 1, room, c => do
    let (item, c) ← readValue bound room c
    let c := c.skipSpace
    match c.rest with
    | ']' :: _ => return ([item], c.drop 1)
    | ',' :: _ =>
      let (items, c) ← readItems bound room (c.drop 1).skipSpace
      return (item :: items, c)
    | _ => c.fail .comma

/-- Reads members up to the closing brace, after those in `members`. -/
def readMembers : (bound room : Nat) → List (Text × Json) → Cursor →
    Except ReadError (List (Text × Json) × Cursor)
  | 0, _, _, c => c.fail .name
  | bound + 1, room, members, c =>
    match c.rest with
    | '"' :: t => do
      let (name, c) ← readString c.position (c.position + 1) t
      let c := c.skipSpace
      match c.rest with
      | ':' :: _ =>
        let (value, c) ← readValue bound room (c.drop 1).skipSpace
        let members := insertMember name value members
        let c := c.skipSpace
        match c.rest with
        | '\x7d' :: _ => return (members, c.drop 1)
        | ',' :: _ => readMembers bound room members (c.drop 1).skipSpace
        | _ => c.fail .comma
      | _ => c.fail .colon
    | _ => c.fail .name
end

/-- Reads a text that holds one value and white space around it, with room for so many collections
inside each other. -/
def readWithin (room : Nat) (t : Text) : Except ReadError Json := do
  if t.head? = some '\uFEFF' then throw (.syntaxError .byteOrderMark 0)
  -- every two nested calls consume a character
  let (v, c) ← readValue (2 * t.length + 2) room (Cursor.skipSpace ⟨0, t⟩)
  let c := c.skipSpace
  if c.rest.isEmpty then return v else c.fail .endOfText

/-- Reads a text that holds one value, with room for all of its characters as opening brackets. -/
def read (t : Text) : Except ReadError Json := readWithin t.length t

end HttpSnippet.Json
