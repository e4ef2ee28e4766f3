import HttpSnippet.Snippet.Literal

/-!
# Program fragments

A fragment is program text with its line breaks and its literals kept apart from the code around
them. What a user wrote enters a fragment inside a literal only, and indentation follows a line
break only, so a fragment does not depend on how it will be indented.
-/
namespace HttpSnippet

inductive Piece where
  /-- Code, written as it is. -/
  | code (t : Text)
  /-- A line break, and the indentation of the next line. -/
  | newline (level : Nat)
  /-- A single-quoted literal. -/
  | literal (d : Dialect) (t : Text)
  /-- A double-quoted literal. -/
  | string (ascii : Bool) (t : Text)
  /-- A single-quoted literal with its inside written as it is. -/
  | verbatim (t : Text)
deriving DecidableEq, Repr

abbrev Fragment := List Piece

namespace Piece

def render (indent : Text) : Piece → Text
  | .code t => t
  | .newline level => '\n' :: Text.repeated level indent
  | .literal d t => '\'' :: d.escape t ++ ['\'']
  | .string ascii t => Json.quote ascii t
  | .verbatim t => '\'' :: t ++ ['\'']

end Piece

namespace Fragment

instance : Coe String Fragment := ⟨fun s => [.code s.toList]⟩

def render (indent : Text) (f : Fragment) : Text := f.flatMap (Piece.render indent)

/-- The fragment as a line of its own at some level, without a break at its end. -/
def renderAt (indent : Text) (level : Nat) (f : Fragment) : Text :=
  Text.repeated level indent ++ render indent f

/-- Fragments with a separator between them. -/
def join (sep : Fragment) (fs : List Fragment) : Fragment := sep.intercalate fs

/-- Fragments on lines of their own at some level, with commas between them. -/
def commaLines (level : Nat) (fs : List Fragment) : Fragment :=
  join [.code ",", .newline level] fs

end Fragment
end HttpSnippet
