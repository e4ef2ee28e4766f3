import HttpSnippet.Text.Ranges

/-!
# White space

Stripping removes the separators of Unicode 14.0 and the ASCII control characters that count as
line or field separators. Zero-width spaces and the byte order mark are not white space.
-/
namespace HttpSnippet.Text

/-- Closed ranges of white space, ascending and apart. -/
def blankRanges : List (Nat × Nat) := [
  (0x9, 0xD), (0x1C, 0x20), (0x85, 0x85), (0xA0, 0xA0), (0x1680, 0x1680), (0x2000, 0x200A),
  (0x2028, 0x2029), (0x202F, 0x202F), (0x205F, 0x205F), (0x3000, 0x3000)]

def isBlank (c : Char) : Bool := inRanges blankRanges c.toNat

/-- The text without leading white space. -/
def stripLeft (t : Text) : Text := t.dropWhile isBlank

/-- The text without leading and trailing white space. -/
def strip (t : Text) : Text := (stripLeft (stripLeft t).reverse).reverse

end HttpSnippet.Text
