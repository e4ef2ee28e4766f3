import HttpSnippet.Text.Blank

/-!
# Literals

Two kinds of literal carry a user's text into a program. A single-quoted literal follows the rules
of the language of the program; a double-quoted one is a JSON string, which both languages' tools
read alike. Escaping works character by character, so a literal ends at its own closing quote
whatever text it holds.
-/
namespace HttpSnippet

/-- The languages that snippets are written in. -/
inductive Dialect where
  | javascript
  | php
deriving DecidableEq, Repr

/-- One character inside a single-quoted literal. PHP knows no escape for line breaks and keeps
them as they are. -/
def Dialect.escapeChar : Dialect → Char → Text
  | _, '\\' => ['\\', '\\']
  | _, '\'' => ['\\', '\'']
  | .javascript, '\n' => ['\\', 'n']
  | .javascript, '\r' => ['\\', 'r']
  | _, c => [c]

/-- The inside of a single-quoted literal. -/
def Dialect.escape (d : Dialect) (t : Text) : Text := t.flatMap d.escapeChar

/-- The text as it is, or without white space around it. -/
def Text.trimmed (trim : Bool) (t : Text) : Text := if trim then t.strip else t

namespace Json

/-- A 16-bit unit as an escape. -/
def escapeUnit (n : Nat) : Text := '\\' :: 'u' :: Text.hex 4 n

/-- One character inside a JSON string. With `ascii` everything outside the printable ASCII
characters is escaped, beyond 16 bits as a surrogate pair. -/
def escapeChar (ascii : Bool) (c : Char) : Text :=
  let n := c.toNat
  if c = '"' || c = '\\' then ['\\', c]
  else if c = '\n' then ['\\', 'n']
  else if c = '\r' then ['\\', 'r']
  else if c = '\t' then ['\\', 't']
  else if c = '\x08' then ['\\', 'b']
  else if c = '\x0c' then ['\\', 'f']
  else if n < 0x20 then escapeUnit n
  else if !ascii || n < 0x7F then [c]
  else if n < 0x10000 then escapeUnit n
  else
    escapeUnit (0xD800 + (n - 0x10000) / 0x400) ++ escapeUnit (0xDC00 + (n - 0x10000) % 0x400)

/-- A JSON string with its quotes. -/
def quote (ascii : Bool) (t : Text) : Text := '"' :: t.flatMap (escapeChar ascii) ++ ['"']

end Json
end HttpSnippet
