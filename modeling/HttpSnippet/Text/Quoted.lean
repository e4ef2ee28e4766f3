import HttpSnippet.Text.Printable

/-!
# Quoted display of texts

Messages and listings show a text between quotes with everything unprintable written as an escape.
The quote is single unless the text holds single quotes and no double ones.
-/
namespace HttpSnippet.Text

/-- The quote that a displayed text stands in. -/
def displayQuote (t : Text) : Char :=
  if t.contains '\'' && !t.contains '"' then '"' else '\''

/-- One character inside a displayed text. -/
def displayChar (quote : Char) (c : Char) : Text :=
  if c = quote || c = '\\' then ['\\', c]
  else if c = '\n' then ['\\', 'n']
  else if c = '\r' then ['\\', 'r']
  else if c = '\t' then ['\\', 't']
  else if isPrintable c then [c]
  -- the shortest escape that holds the code point
  else if c.toNat < 0x100 then '\\' :: 'x' :: hex 2 c.toNat
  else if c.toNat < 0x10000 then '\\' :: 'u' :: hex 4 c.toNat
  else '\\' :: 'U' :: hex 8 c.toNat

def display (t : Text) : Text :=
  let quote := displayQuote t
  quote :: t.flatMap (displayChar quote) ++ [quote]

end HttpSnippet.Text
