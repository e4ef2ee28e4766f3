import HttpSnippet.Snippet.Fragment

/-!
# Programs as lines

A program is a list of lines, each with its level of indentation. The indentation itself is chosen
when the program is rendered.
-/
namespace HttpSnippet

structure Line where
  level : Nat
  content : Fragment
deriving DecidableEq, Repr

namespace Line

/-- The line with the break that ends it. -/
def render (indent : Text) (l : Line) : Text := l.content.renderAt indent l.level ++ ['\n']

/-- An empty line. -/
def blank : Line := ⟨0, []⟩

end Line

abbrev Program := List Line

namespace Program

def render (indent : Text) (p : Program) : Text := p.flatMap (Line.render indent)

/-- Lines that stand in a program only under a condition. -/
def when (condition : Bool) (p : Program) : Program := if condition then p else []

end Program
end HttpSnippet
