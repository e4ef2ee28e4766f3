import HttpSnippet.Yaml.Scalar

/-!
# Tokens of a YAML text

Tokens make the block structure explicit: a deeper column opens a block and a shallower one closes
it. A key is recognised only when its colon comes, so the place of every text that may turn out to
be a key is remembered, and the key token is put in there later. Until then no token from there on
is told, and a text that is refused further on has only the tokens told before.
-/
namespace HttpSnippet.Yaml

/-- How a tag was written: behind a handle, or as it is. -/
structure TagText where
  handle : Option Text
  suffix : Text
deriving DecidableEq, Repr

inductive Token where
  | versionDirective (major : Nat)
  | tagDirective (handle start : Text)
  | otherDirective
  | documentStart
  | documentEnd
  | blockSequenceStart
  | blockMappingStart
  | blockEnd
  | flowSequenceStart
  | flowSequenceEnd
  | flowMappingStart
  | flowMappingEnd
  | flowEntry
  | blockEntry
  | key
  | value
  | alias (name : Text)
  | anchor (name : Text)
  | tag (t : TagText)
  | scalar (t : Text) (plain : Bool)
  | streamEnd
deriving DecidableEq, Repr

/-- The tokens of a text as far as they are told. -/
structure Tokens where
  told : List Token
  /-- Why there are no more, if the text is refused. -/
  refusal : Option Refusal := none

/-- A place that may turn out to be the start of a key. -/
structure PossibleKey where
  flowLevel : Int
  tokenIndex : Nat
  required : Bool
  index : Nat
  line : Nat
  column : Nat

/-- What the reading of tokens carries along. -/
structure Scan where
  cursor : Cursor
  tokens : Array Token := #[]
  /-- How many flow collections are open. It falls below zero where more are closed. -/
  flowLevel : Int := 0
  indent : Int := -1
  /-- The indentations of the blocks around the current one. -/
  indents : List Int := []
  /-- Whether a key may start here. -/
  keyAllowed : Bool := true
  possibleKeys : List PossibleKey := []

namespace Scan

def inFlow (s : Scan) : Bool := s.flowLevel ≠ 0

def emit (t : Token) (s : Scan) : Scan := { s with tokens := s.tokens.push t }

def move (c : Cursor) (s : Scan) : Scan := { s with cursor := c }

def allowKey (b : Bool) (s : Scan) : Scan := { s with keyAllowed := b }

/-- Passes over characters and emits a token for them. -/
def take (n : Nat) (t : Token) (s : Scan) : Scan := (s.move (s.cursor.advance n)).emit t

/-- Skips blanks, comments and line ends. Behind a line end a key may start. -/
def skipBlanks : (bound : Nat) → Scan → Scan
  | 0, s => s
  | bound + 1, s =>
    let c := s.cursor.skipSpaces.skipComment
    match c.lineBreak? with
    | some (_, c) =>
      skipBlanks bound { s with cursor := c, keyAllowed := s.keyAllowed || !s.inFlow }
    | none => { s with cursor := c }

/-- Forgets the places that are no keys: a key stands on one line and is not too long. One that had
to be a key is an error. -/
def dropStaleKeys (s : Scan) : Option Scan :=
  let stale (k : PossibleKey) : Bool :=
    k.line ≠ s.cursor.line || 1024 < s.cursor.index - k.index
  if s.possibleKeys.any fun k => stale k && k.required then none
  else some { s with possibleKeys := s.possibleKeys.filter (!stale ·) }

/-- Closes the blocks that are indented more than a column. -/
def closeBlocks (column : Int) : List Int → Scan → Scan
  | [], s => s
  | outer :: indents, s =>
    if column < s.indent then
      closeBlocks column indents { s.emit .blockEnd with indent := outer, indents }
    else s

def unwind (column : Int) (s : Scan) : Scan :=
  if s.inFlow then s else closeBlocks column s.indents s

/-- Opens a block at a column that is indented more than the current one. -/
def openBlock (column : Nat) (s : Scan) : Option Scan :=
  if s.indent < column then
    some { s with indents := s.indent :: s.indents, indent := column }
  else none

/-- Forgets the possible key of the current flow level. -/
def removeKey (s : Scan) : Option Scan :=
  let here (k : PossibleKey) : Bool := k.flowLevel = s.flowLevel
  if s.possibleKeys.any fun k => here k && k.required then none
  else some { s with possibleKeys := s.possibleKeys.filter (!here ·) }

/-- Remembers the current place as a possible key. At the indentation of a block it has to be
one. -/
def saveKey (s : Scan) : Option Scan :=
  if s.keyAllowed then do
    let s ← s.removeKey
    let key : PossibleKey :=
      { flowLevel := s.flowLevel
        tokenIndex := s.tokens.size
        required := !s.inFlow && s.indent = s.cursor.column
        index := s.cursor.index
        line := s.cursor.line
        column := s.cursor.column }
    return { s with possibleKeys := key :: s.possibleKeys }
  else some s

/-! ### Directives, anchors and tags -/

def isWordChar (c : Char) : Bool := c.isAlphanum || c = '-' || c = '_'

/-- A non-empty word, and the place behind it. -/
def word? (c : Cursor) : Option (Text × Cursor) :=
  match c.span isWordChar with
  | ([], _) => none
  | found => some found

def digits? (c : Cursor) : Option (Nat × Cursor) :=
  match c.span Json.isDigit with
  | ([], _) => none
  | (ds, c) => some (Json.digitsValue ds, c)

def isTagChar (c : Char) : Bool := c.isAlphanum || ("-;/?:@&=+$,_.!~*'()[]%".toList).contains c

/-- Replaces escaped bytes by the characters that they encode. -/
def unescapeTag : Text → Option (List UInt8)
  | [] => some []
  | '%' :: a :: b :: t => do
    let high ← Json.hexValue? a
    let low ← Json.hexValue? b
    return UInt8.ofNat (high * 16 + low) :: (← unescapeTag t)
  | '%' :: _ => none
  | c :: t => do return String.utf8EncodeChar c ++ (← unescapeTag t)

/-- The non-empty text of a tag behind its handle. -/
def tagText? (c : Cursor) : Option (Text × Cursor) :=
  match c.span isTagChar with
  | ([], _) => none
  | (t, c) => do
    let bytes ← unescapeTag t
    let decoded ← String.fromUTF8? ⟨bytes.toArray⟩
    return (decoded.toList, c)

/-- A tag handle: one exclamation mark, or two with a word between them. -/
def tagHandle? (c : Cursor) : Option (Text × Cursor) :=
  if c.at? '!' then
    if c.peekAt 1 = some ' ' then some (['!'], c.step)
    else
      let (name, c) := c.step.span isWordChar
      if c.at? '!' then some ('!' :: name ++ ['!'], c.step) else none
  else none

def versionDirective? (c : Cursor) : Option (Token × Cursor) := do
  let (major, c) ← digits? c.skipSpaces
  if c.at? '.' then
    let (_, c) ← digits? c.step
    if endsLine [' '] c.peek then return (.versionDirective major, c) else none
  else none

def tagDirective? (c : Cursor) : Option (Token × Cursor) := do
  let (handle, c) ← tagHandle? c.skipSpaces
  if c.at? ' ' then
    let (start, c) ← tagText? c.skipSpaces
    if endsLine [' '] c.peek then return (.tagDirective handle start, c) else none
  else none

/-- A directive up to the end of its line. -/
def directive? (c : Cursor) : Option (Token × Cursor) := do
  let (name, c) ← word? c.step
  if endsLine [' '] c.peek then
    let (token, c) ←
      if name = ("YAML" : Text) then versionDirective? c
      else if name = ("TAG" : Text) then tagDirective? c
      else some (.otherDirective, c.skip (!isBreak ·))
    let c := c.skipSpaces.skipComment
    match c.lineBreak? with
    | some (_, c) => return (token, c)
    | none => if c.rest.isEmpty then return (token, c) else none
  else none

/-- The name behind the indicator of an anchor or an alias. -/
def anchorName? (c : Cursor) : Option (Text × Cursor) := do
  let (name, c) ← word? c.step
  if endsLine " \t?:,]\x7d%@\x60".toList c.peek then return (name, c) else none

/-- Whether a second exclamation mark comes before the tag ends. -/
def hasHandle (c : Cursor) : Bool :=
  let t := c.step.rest.takeWhile fun x => !(x = ' ' || isBreak x)
  t.contains '!'

def tag? (c : Cursor) : Option (TagText × Cursor) := do
  let (tag, c) ←
    if c.peekAt 1 = some '<' then do
      let (suffix, c) ← tagText? (c.advance 2)
      if c.at? '>' then some ((⟨none, suffix⟩ : TagText), c.step) else none
    else if isGap (c.peekAt 1) then some (⟨none, ['!']⟩, c.step)
    else do
      let (handle, c) ← if hasHandle c then tagHandle? c else some (['!'], c.step)
      let (suffix, c) ← tagText? c
      some (⟨some handle, suffix⟩, c)
  if endsLine [' '] c.peek then return (tag, c) else none

/-! ### One token -/

/-- A token that may start a key. -/
def keyStart (s : Scan) (read : Cursor → Option (Token × Cursor)) : Option Scan := do
  let s ← s.saveKey
  let (token, c) ← read s.cursor
  return ((s.allowKey false).move c).emit token

def documentMarker (t : Token) (s : Scan) : Option Scan := do
  let s ← (s.unwind (-1)).removeKey
  return (s.allowKey false).take 3 t

def flowStart (t : Token) (s : Scan) : Option Scan := do
  let s ← s.saveKey
  return ({ s with flowLevel := s.flowLevel + 1 }.allowKey true).take 1 t

/-- The end of a flow collection; it is left to the parser to refuse it where there is none. -/
def flowEnd (t : Token) (s : Scan) : Option Scan := do
  let s ← s.removeKey
  return ({ s with flowLevel := s.flowLevel - 1 }.allowKey false).take 1 t

/-- Opens a block at the current column, if it is indented more than the one around it. Outside flow
collections this may happen only where a key may start. -/
def startBlock (t : Token) (s : Scan) : Option Scan :=
  if s.inFlow then some s
  else if s.keyAllowed then some (((s.openBlock s.cursor.column).map (emit t)).getD s)
  else none

/-- An entry of a block sequence; in a flow collection it is left to the parser to refuse it. -/
def blockEntry (s : Scan) : Option Scan := do
  let s ← s.startBlock .blockSequenceStart
  let s ← (s.allowKey true).removeKey
  return s.take 1 .blockEntry

def explicitKey (s : Scan) : Option Scan := do
  let s ← s.startBlock .blockMappingStart
  let s ← (s.allowKey (!s.inFlow)).removeKey
  return s.take 1 .key

/-- Puts a token in at an index. -/
def insert (index : Nat) (t : Token) (s : Scan) : Scan :=
  { s with tokens := s.tokens.insertIdxIfInBounds index t }

/-- A colon. It makes a key of the possible key of its flow level, if there is one. -/
def colon (s : Scan) : Option Scan := do
  match s.possibleKeys.find? (·.flowLevel = s.flowLevel) with
  | some k =>
    let s := { s with possibleKeys := s.possibleKeys.filter (·.flowLevel ≠ s.flowLevel) }
    let s := s.insert k.tokenIndex .key
    let s :=
      if s.inFlow then s
      else ((s.openBlock k.column).map (insert k.tokenIndex .blockMappingStart)).getD s
    return (s.allowKey false).take 1 .value
  | none =>
    let s ← s.startBlock .blockMappingStart
    let s ← (s.allowKey (!s.inFlow)).removeKey
    return s.take 1 .value

def blockScalar (fold : Bool) (s : Scan) : Option Scan := do
  let s ← (s.allowKey true).removeKey
  let (t, c) ← blockScalar? fold s.indent s.cursor.step
  return (s.move c).emit (.scalar t false)

def plain (s : Scan) : Option Scan := do
  let s ← s.saveKey
  let (t, onNewLine, c) := plainScalar s.inFlow (s.indent + 1) s.cursor
  return ((s.allowKey onNewLine).move c).emit (.scalar t true)

/-- Characters that begin no plain scalar by themselves. -/
def indicators : Text := "-?:,[]\x7b\x7d#&*!|>'\"%@\x60".toList

def startsPlain (s : Scan) (x : Char) : Bool :=
  !(isGap (some x) || indicators.contains x) ||
    (!isGap (s.cursor.peekAt 1) && (x = '-' || (!s.inFlow && (x = '?' || x = ':'))))

/-- A scalar in quotes. -/
def quoted (double : Bool) (s : Scan) : ScanM Scan := do
  let s ← required s.saveKey
  let (t, c) ← quotedScalar double s.cursor
  return ((s.allowKey false).move c).emit (.scalar t false)

/-- The token that starts with a character other than a quote, at the cursor. -/
def token? (x : Char) (s : Scan) : Option Scan :=
  let c := s.cursor
  let beforeGap := isGap (c.peekAt 1)
  if x = '%' && c.column = 0 then do
    let s ← (s.unwind (-1)).removeKey
    let (t, c) ← directive? s.cursor
    return ((s.allowKey false).move c).emit t
  else if c.column = 0 && c.atMarker '-' then documentMarker .documentStart s
  else if c.column = 0 && c.atMarker '.' then documentMarker .documentEnd s
  else if x = '[' then flowStart .flowSequenceStart s
  else if x = '\x7b' then flowStart .flowMappingStart s
  else if x = ']' then flowEnd .flowSequenceEnd s
  else if x = '\x7d' then flowEnd .flowMappingEnd s
  else if x = ',' then do return (← (s.allowKey true).removeKey).take 1 .flowEntry
  else if x = '-' && beforeGap then blockEntry s
  else if x = '?' && (s.inFlow || beforeGap) then explicitKey s
  else if x = ':' && (s.inFlow || beforeGap) then colon s
  else if x = '*' then s.keyStart fun c => (anchorName? c).map fun (t, c) => (.alias t, c)
  else if x = '&' then s.keyStart fun c => (anchorName? c).map fun (t, c) => (.anchor t, c)
  else if x = '!' then s.keyStart fun c => (tag? c).map fun (t, c) => (.tag t, c)
  else if x = '|' && !s.inFlow then blockScalar false s
  else if x = '>' && !s.inFlow then blockScalar true s
  else if startsPlain s x then plain s
  else none

/-- The token that starts with a character, at the cursor. -/
def token (x : Char) (s : Scan) : ScanM Scan :=
  if x = '\'' then s.quoted false
  else if x = '"' then s.quoted true
  else required (s.token? x)

/-- The next token behind blanks, or the end of all tokens. -/
def fetch (s : Scan) : ScanM Scan := do
  let s := s.skipBlanks s.cursor.bound
  let s ← required s.dropStaleKeys
  let s := s.unwind s.cursor.column
  match s.cursor.peek with
  | none =>
    let s ← required (s.unwind (-1)).removeKey
    return s.emit .streamEnd
  | some x => s.token x

/-- The number of tokens in front of which no key can be put in any more. -/
def told (s : Scan) : Nat := s.possibleKeys.foldl (fun n k => min n k.tokenIndex) s.tokens.size

/-- The tokens that have been told when a text is refused. -/
def refused (told : Nat) (s : Scan) (refusal : Refusal) : Tokens :=
  { told := s.tokens.toList.take told, refusal }

/-- All tokens from here on, behind those told so far. Every token takes at least one character. -/
def run : (bound told : Nat) → Scan → Tokens
  | 0, told, s => s.refused told .malformed
  | bound + 1, told, s =>
    if s.tokens.back? = some .streamEnd then { told := s.tokens.toList }
    else
      match s.dropStaleKeys with
      | none => s.refused told .malformed
      | some s =>
        match s.fetch with
        | .error refusal => s.refused s.told refusal
        | .ok next => run bound s.told next

end Scan

/-- Characters that a YAML text may hold. -/
def isAllowed (c : Char) : Bool :=
  let n := c.toNat
  n = 9 || n = 10 || n = 13 || (0x20 ≤ n && n ≤ 0x7E) || n = 0x85 ||
    (0xA0 ≤ n && n ≠ 0xFFFE && n ≠ 0xFFFF)

/-- The tokens of a text. -/
def tokens (t : Text) : Tokens :=
  if t.all isAllowed then
    let c : Cursor := { rest := t }
    -- a byte order mark may come first
    let c := if c.at? '\uFEFF' then c.step else c
    Scan.run (c.bound + 1) 0 { cursor := c }
  else { told := [], refusal := some .malformed }

end HttpSnippet.Yaml
