import HttpSnippet.Text.Basic

/-!
# Places in a YAML text

A cursor holds the unread rest of a text with its index, line and column. Reading past the end
yields nothing, which counts as a blank everywhere.
-/
namespace HttpSnippet.Yaml

structure Cursor where
  rest : Text
  index : Nat := 0
  line : Nat := 0
  column : Nat := 0

/-- Characters that end a line. -/
def isBreak (c : Char) : Bool :=
  c = '\n' || c = '\r' || c = '\u0085' || c = '\u2028' || c = '\u2029'

/-- Whether nothing, a line end or one of the given characters stands at some place. -/
def endsLine (also : Text) : Option Char → Bool
  | none => true
  | some c => isBreak c || also.contains c

/-- Nothing, a line end, a space or a tab. -/
def isGap : Option Char → Bool := endsLine [' ', '\t']

namespace Cursor

def peek (c : Cursor) : Option Char := c.rest.head?

def peekAt (c : Cursor) (n : Nat) : Option Char := c.rest[n]?

/-- Whether a given character comes next. -/
def at? (c : Cursor) (x : Char) : Bool := c.peek = some x

def step (c : Cursor) : Cursor :=
  match c.rest with
  | [] => c
  | x :: rest =>
    let ends := isBreak x && !(x = '\r' && rest.head? = some '\n')
    if ends then { rest, index := c.index + 1, line := c.line + 1, column := 0 }
    else
      let width := if x = '\uFEFF' then 0 else 1
      { rest, index := c.index + 1, line := c.line, column := c.column + width }

def advance : Nat → Cursor → Cursor
  | 0, c => c
  | n + 1, c => advance n c.step

/-- The characters up to the first one without a property, and the place behind them. -/
def span (p : Char → Bool) (c : Cursor) : Text × Cursor :=
  let t := c.rest.takeWhile p
  (t, c.advance t.length)

def skip (p : Char → Bool) (c : Cursor) : Cursor := (c.span p).2

def skipSpaces (c : Cursor) : Cursor := c.skip (· = ' ')

/-- A comment, if one starts here. -/
def skipComment (c : Cursor) : Cursor := if c.at? '#' then c.skip (!isBreak ·) else c

/-- The line end that stands here, in the form in which it enters a value. -/
def lineBreak? (c : Cursor) : Option (Text × Cursor) :=
  match c.rest with
  | '\r' :: '\n' :: _ => some (['\n'], c.advance 2)
  | x :: _ =>
    if x = '\u2028' || x = '\u2029' then some ([x], c.step)
    else if isBreak x then some (['\n'], c.step)
    else none
  | [] => none

/-- Whether a document marker stands here: three equal characters and a gap. -/
def atMarker (c : Cursor) (x : Char) : Bool :=
  (List.replicate 3 x).isPrefixOf c.rest && isGap (c.peekAt 3)

def atDocumentMarker (c : Cursor) : Bool := c.atMarker '-' || c.atMarker '.'

/-- What is left to read, as a bound for loops that read at least one character in each turn. -/
def bound (c : Cursor) : Nat := c.rest.length + 1

end Cursor
end HttpSnippet.Yaml
