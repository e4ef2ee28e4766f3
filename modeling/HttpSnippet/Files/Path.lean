import HttpSnippet.Text.Case

/-!
# Paths

A path is kept in parts: repeated slashes and single dots say nothing and are dropped, and the empty
path is the current directory. Two dots stay, because what they mean depends on the files.
-/
namespace HttpSnippet

structure Path where
  /-- The slashes that a path from the root starts with. -/
  root : Text := []
  parts : List Text := []
deriving DecidableEq, Repr

namespace Path

/-- Two leading slashes are kept apart from one; more count as one. -/
def rootOf : Text → Text
  | ['/', '/'] => ['/', '/']
  | '/' :: '/' :: c :: _ => if c = '/' then ['/'] else ['/', '/']
  | '/' :: _ => ['/']
  | _ => []

def ofText (t : Text) : Path :=
  { root := rootOf t
    parts := (t.splitOn '/').filter fun part => !(part.isEmpty || part = ['.']) }

def text (p : Path) : Text :=
  if p.root.isEmpty && p.parts.isEmpty then ['.'] else p.root ++ Text.join "/" p.parts

/-- The last part. -/
def name (p : Path) : Text := p.parts.getLast?.getD []

/-- The part of the name from its last dot on, unless the dot stands first or last. -/
def suffix (p : Path) : Text :=
  match p.name.cutLast? '.' with
  | some (before, after) => if before.isEmpty || after.isEmpty then [] else '.' :: after
  | none => []

end Path
end HttpSnippet
