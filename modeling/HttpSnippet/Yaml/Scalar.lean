import HttpSnippet.Yaml.Cursor
import HttpSnippet.Json.Reader

/-!
# Scalars of a YAML text

Plain, quoted and block scalars. Line ends inside a scalar are folded: a single one becomes a space,
and of several the first is dropped. Literal blocks keep all of them.
-/
namespace HttpSnippet.Yaml

/-- Why a text cannot be taken apart. -/
inductive Refusal where
  | malformed
  /-- An escape names a code point beyond the last one. -/
  | noCharacter (code : Nat)
  /-- There is no room for a collection inside those around it. -/
  | tooDeep
deriving DecidableEq, Repr

abbrev ScanM := Except Refusal

/-- Something that is there, or else a malformed text. -/
def required {α : Type} : Option α → ScanM α
  | some a => .ok a
  | none => .error .malformed

/-- The parts of a fold: a line end and the empty lines after it. -/
def folded (lineEnd : Text) (breaks : Text) : Text :=
  if lineEnd = ['\n'] then if breaks.isEmpty then [' '] else breaks
  else lineEnd ++ breaks

/-! ### Quoted scalars -/

/-- Escapes of one letter in double-quoted scalars. -/
def escapeLetters : List (Char × Char) := [
  ('0', '\x00'), ('a', '\x07'), ('b', '\x08'), ('t', '\t'), ('\t', '\t'), ('n', '\n'),
  ('v', '\x0b'), ('f', '\x0c'), ('r', '\r'), ('e', '\x1b'), (' ', ' '), ('"', '"'), ('\\', '\\'),
  ('/', '/'), ('N', '\u0085'), ('_', '\u00A0'), ('L', '\u2028'), ('P', '\u2029')]

/-- The number of hexadecimal digits behind an escape letter. -/
def escapeDigits : Char → Option Nat
  | 'x' => some 2
  | 'u' => some 4
  | 'U' => some 8
  | _ => none

/-- Empty lines inside a quoted scalar, with the blanks around them. A document marker may not stand
at the beginning of a line. -/
def quotedBreaks : (bound : Nat) → Cursor → Option (Text × Cursor)
  | 0, _ => none
  | bound + 1, c =>
    if c.atDocumentMarker then none
    else
      let c := c.skip fun x => x = ' ' || x = '\t'
      match c.lineBreak? with
      | none => some ([], c)
      | some (b, c) => (quotedBreaks bound c).map fun (bs, c) => (b ++ bs, c)

/-- Blanks inside a quoted scalar: spaces on a line stay, and line ends are folded. -/
def quotedBlanks (c : Cursor) : Option (Text × Cursor) :=
  let (spaces, c) := c.span fun x => x = ' ' || x = '\t'
  match c.lineBreak? with
  | some (lineEnd, c) => (quotedBreaks c.bound c).map fun (bs, c) => (folded lineEnd bs, c)
  | none => if c.rest.isEmpty then none else some (spaces, c)

/-- The character of an escape behind its backslash; a surrogate has its stand-in. A line end is
left out together with the blanks that begin the next line. -/
def escaped (c : Cursor) : ScanM (Text × Cursor) := do
  let letter ← required c.peek
  match escapeLetters.find? (·.1 = letter) with
  | some (_, x) => return ([x], c.step)
  | none =>
    match escapeDigits letter with
    | some n =>
      let digits := c.step.rest.take n
      let values ← required (digits.mapM Json.hexValue?)
      let code := values.foldl (fun a d => 16 * a + d) 0
      if digits.length < n then throw .malformed
      if 0x110000 ≤ code then throw (.noCharacter code)
      return ([Json.unitChar code], c.step.advance n)
    | none =>
      let (_, c) ← required c.lineBreak?
      required (quotedBreaks c.bound c)

/-- Reads a quoted scalar up to its closing quote. -/
def quotedRest (double : Bool) : (bound : Nat) → Cursor → ScanM (Text × Cursor)
  | 0, _ => throw .malformed
  | bound + 1, c => do
    let x ← required c.peek
    if double && x = '"' then return ([], c.step)
    else if !double && x = '\'' then
      if c.peekAt 1 = some '\'' then
        let (t, c) ← quotedRest double bound (c.advance 2)
        return ('\'' :: t, c)
      else return ([], c.step)
    else if double && x = '\\' then
      let (t, c) ← escaped c.step
      let (u, c) ← quotedRest double bound c
      return (t ++ u, c)
    else if x = ' ' || x = '\t' || isBreak x then
      let (t, c) ← required (quotedBlanks c)
      let (u, c) ← quotedRest double bound c
      return (t ++ u, c)
    else
      let (t, c) ← quotedRest double bound c.step
      return (x :: t, c)

/-- A quoted scalar from its opening quote on. -/
def quotedScalar (double : Bool) (c : Cursor) : ScanM (Text × Cursor) :=
  quotedRest double c.bound c.step

/-! ### Plain scalars -/

/-- Whether a plain scalar ends before its next character, at a given distance. -/
def endsPlain (flow : Bool) (c : Cursor) (n : Nat) : Bool :=
  match c.peekAt n with
  | none => true
  | some x =>
    isGap (some x) ||
      (x = ':' && (isGap (c.peekAt (n + 1)) ||
        (flow && (c.peekAt (n + 1)).any [',', '[', ']', '\x7b', '\x7d'].contains))) ||
      (flow && [',', '?', '[', ']', '\x7b', '\x7d'].contains x)

/-- The length of the word of a plain scalar that stands here. -/
def plainWordLength (flow : Bool) (c : Cursor) : (bound : Nat) → Nat → Nat
  | 0, n => n
  | bound + 1, n => if endsPlain flow c n then n else plainWordLength flow c bound (n + 1)

/-- Empty lines and the spaces that begin lines after a plain scalar's line; `none` if a document
marker ends it. -/
def plainBreaks : (bound : Nat) → Cursor → Option Text × Cursor
  | 0, c => (none, c)
  | bound + 1, c =>
    if c.at? ' ' then plainBreaks bound c.step
    else
      match c.lineBreak? with
      | none => (some [], c)
      | some (b, c) =>
        if c.atDocumentMarker then (none, c)
        else
          let (bs, c) := plainBreaks bound c
          (bs.map (b ++ ·), c)

/-- What separates two words of a plain scalar, and whether a line ended in it. No text means that
the scalar is over. -/
def plainGap (c : Cursor) : Option Text × Bool × Cursor :=
  let (spaces, c) := c.span (· = ' ')
  match c.lineBreak? with
  | none => (if spaces.isEmpty then none else some spaces, false, c)
  | some (lineEnd, c) =>
    if c.atDocumentMarker then (none, true, c)
    else
      let (bs, c) := plainBreaks c.bound c
      (bs.map (folded lineEnd), true, c)

/-- Reads a plain scalar whose further lines are indented by `indent` at least. The flag tells
whether the reading stopped on a new line. -/
def plainRest (flow : Bool) (indent : Int) : (bound : Nat) → Cursor → Text × Bool × Cursor
  | 0, c => ([], false, c)
  | bound + 1, c =>
    if c.at? '#' then ([], false, c)
    else
      match plainWordLength flow c c.bound 0 with
      | 0 => ([], false, c)
      | n =>
        let word := c.rest.take n
        let (gap, onNewLine, c) := plainGap (c.advance n)
        match gap with
        | none => (word, onNewLine, c)
        | some gap =>
          if c.at? '#' || (!flow && c.column < indent) then (word, onNewLine, c)
          else
            match plainRest flow indent bound c with
            | ([], _, c) => (word, onNewLine, c)
            | (more, again, c) => (word ++ gap ++ more, again, c)

def plainScalar (flow : Bool) (indent : Int) (c : Cursor) : Text × Bool × Cursor :=
  plainRest flow indent c.bound c

/-! ### Block scalars -/

inductive Chomping where
  | strip
  | clip
  | keep
deriving DecidableEq, Repr

def chomping? : Char → Option Chomping
  | '-' => some .strip
  | '+' => some .keep
  | _ => none

/-- The indentation that a header digit adds; zero is none. -/
def increment? (x : Char) : Option Nat :=
  if '1' ≤ x && x ≤ '9' then some (x.toNat - '0'.toNat) else none

/-- The indicators of a block scalar's header, in either order. -/
def blockIndicators (c : Cursor) : Chomping × Option Nat × Cursor :=
  match c.peek.bind chomping? with
  | some chomping =>
    match c.step.peek.bind increment? with
    | some n => (chomping, some n, c.step.step)
    | none => (chomping, none, c.step)
  | none =>
    match c.peek.bind increment? with
    | some n =>
      match c.step.peek.bind chomping? with
      | some chomping => (chomping, some n, c.step.step)
      | none => (.clip, some n, c.step)
    | none => (.clip, none, c)

/-- The header behind the indicator of a block scalar, up to the first line of the block. -/
def blockHeader? (c : Cursor) : Option (Chomping × Option Nat × Cursor) :=
  let (chomping, increment, c) := blockIndicators c
  if endsLine [' '] c.peek then
    let c := c.skipSpaces.skipComment
    match c.lineBreak? with
    | some (_, c) => some (chomping, increment, c)
    | none => if c.rest.isEmpty then some (chomping, increment, c) else none
  else none

/-- Empty lines before a block, and the widest indentation in them or after them. -/
def leadingLines : (bound : Nat) → Nat → Cursor → Text × Nat × Cursor
  | 0, width, c => ([], width, c)
  | bound + 1, width, c =>
    if c.at? ' ' then
      let c := c.step
      leadingLines bound (max width c.column) c
    else
      match c.lineBreak? with
      | none => ([], width, c)
      | some (b, c) =>
        let (bs, width, c) := leadingLines bound width c
        (b ++ bs, width, c)

/-- Skips spaces up to a column. -/
def skipIndent (indent : Nat) : (bound : Nat) → Cursor → Cursor
  | 0, c => c
  | bound + 1, c => if c.column < indent && c.at? ' ' then skipIndent indent bound c.step else c

/-- Empty lines between the lines of a block. -/
def blockBreaks (indent : Nat) : (bound : Nat) → Cursor → Text × Cursor
  | 0, c => ([], c)
  | bound + 1, c =>
    let c := skipIndent indent c.bound c
    match c.lineBreak? with
    | none => ([], c)
    | some (b, c) =>
      let (bs, c) := blockBreaks indent bound c
      (b ++ bs, c)

def isBlankStart (c : Cursor) : Bool := c.at? ' ' || c.at? '\t'

/-- The lines of a block from here on. `breaks` are the empty lines before them; the answer ends
with the last line's end and the empty lines after it, kept apart. -/
def blockLines (fold : Bool) (indent : Nat) :
    (bound : Nat) → Text → Cursor → Text × Text × Text × Cursor
  | 0, breaks, c => ([], [], breaks, c)
  | bound + 1, breaks, c =>
    if c.column = indent && !c.rest.isEmpty then
      let startsBlank := isBlankStart c
      let (line, c) := c.span (!isBreak ·)
      let (lineEnd, c) := c.lineBreak?.getD ([], c)
      let (after, c) := blockBreaks indent c.bound c
      if c.column = indent && !c.rest.isEmpty then
        -- only ends between lines without leading blanks are folded
        let joint :=
          if fold && lineEnd = ['\n'] && !startsBlank && !isBlankStart c then
            if after.isEmpty then [' '] else []
          else lineEnd
        let (more, lastEnd, tail, c) := blockLines fold indent bound after c
        (breaks ++ line ++ joint ++ more, lastEnd, tail, c)
      else (breaks ++ line, lineEnd, after, c)
    else ([], [], breaks, c)

/-- A block scalar behind its indicator, inside a block with the given indentation. -/
def blockScalar? (fold : Bool) (parentIndent : Int) (c : Cursor) : Option (Text × Cursor) := do
  let (chomping, increment, c) ← blockHeader? c
  let least := (max (parentIndent + 1) 1).toNat
  let (breaks, indent, c) := match increment with
    | none =>
      let (breaks, width, c) := leadingLines c.bound 0 c
      (breaks, max least width, c)
    | some n =>
      let indent := least + n - 1
      let (breaks, c) := blockBreaks indent c.bound c
      (breaks, indent, c)
  let (content, lastEnd, tail, c) := blockLines fold indent c.bound breaks c
  return match chomping with
    | .strip => (content, c)
    | .clip => (content ++ lastEnd, c)
    | .keep => (content ++ lastEnd ++ tail, c)

end HttpSnippet.Yaml
