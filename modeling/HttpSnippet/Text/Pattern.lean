import HttpSnippet.Text.Case

/-!
# Patterns

A pattern is matched at the beginning of a text by search. Each part tries its ways in turn, the
longest first, and gives way to the next one as long as what follows finds no place.
-/
namespace HttpSnippet

inductive Pattern where
  /-- These characters, without regard to case. -/
  | letters (t : Text)
  /-- At least one character, up to the end of the line. -/
  | line
  | optional (p : Pattern)
  /-- One pattern behind the other. -/
  | followed (p q : Pattern)
  /-- The end of the text, or the line feed that ends it. -/
  | finish

namespace Pattern

/-- What stands behind some letters. -/
def behindLetters? : Text → Text → Option Text
  | [], t => some t
  | _ :: _, [] => none
  | l :: ls, c :: t => if Text.sameCaseless c l then behindLetters? ls t else none

/-- Passes over the rest of a line, and goes back character by character until what follows
succeeds. -/
def searchLine (next : Text → Bool) : Text → Bool
  | [] => next []
  | c :: t => (c ≠ '\n' && searchLine next t) || next (c :: t)

/-- Whether the text begins with the pattern in such a way that what follows succeeds on the
rest. -/
def search : Pattern → (Text → Bool) → Text → Bool
  | .letters ls, next, t => (behindLetters? ls t).any next
  | .line, _, [] => false
  | .line, next, c :: t => c ≠ '\n' && searchLine next t
  | .optional p, next, t => p.search next t || next t
  | .followed p q, next, t => p.search (q.search next) t
  | .finish, next, t => (t = [] || t = ['\n']) && next t

/-- Whether a text begins with the pattern. -/
def accepts (p : Pattern) (t : Text) : Bool := p.search (fun _ => true) t

end Pattern
end HttpSnippet
