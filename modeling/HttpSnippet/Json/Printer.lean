import HttpSnippet.Json.Basic
import HttpSnippet.Number.Shortest
import HttpSnippet.Snippet.Fragment

/-!
# Writing JSON

A value is written as a fragment: strings are double-quoted literals and everything else is code.
The flat layouts stay on one line; the indented one gives every item and member a line of its own.
-/
namespace HttpSnippet.Json

inductive Layout where
  /-- No space after separators. -/
  | compact
  /-- A space after separators. -/
  | spaced
  /-- One line for each item and member. -/
  | indented
deriving DecidableEq, Repr

def Layout.colon : Layout → Text
  | .compact => ":"
  | _ => ": "

/-- What stands after an opening bracket, for contents at `level`. -/
def Layout.opened : Layout → Nat → Fragment
  | .indented, level => [.newline level]
  | _, _ => []

def Layout.comma : Layout → Nat → Fragment
  | .compact, _ => ","
  | .spaced, _ => ", "
  | .indented, level => [.code ",", .newline level]

/-- The text of a floating-point number. The special values have names that JSON does not know. -/
def floatText : Binary64 → Text
  | .nan => "NaN"
  | .infinity false => "Infinity"
  | .infinity true => "-Infinity"
  | x => x.notate

mutual
/-- A value whose first line stands at `level`. -/
def fragment (layout : Layout) (ascii : Bool) (level : Nat) : Json → Fragment
  | .null => "null"
  | .bool true => "true"
  | .bool false => "false"
  | .int n => [.code (Text.ofInt n)]
  | .float x => [.code (floatText x)]
  | .str t => [.string ascii t]
  | .arr [] => "[]"
  | .arr (v :: vs) =>
    .code "[" :: layout.opened (level + 1) ++ fragment layout ascii (level + 1) v ++
      itemFragments layout ascii (level + 1) vs ++ layout.opened level ++ "]"
  | .obj [] => "\x7b\x7d"
  | .obj ((k, v) :: ms) =>
    .code "\x7b" :: layout.opened (level + 1) ++ .string ascii k :: .code layout.colon ::
      fragment layout ascii (level + 1) v ++
      memberFragments layout ascii (level + 1) ms ++ layout.opened level ++ "\x7d"

/-- Further items, each behind its comma. -/
def itemFragments (layout : Layout) (ascii : Bool) (level : Nat) : List Json → Fragment
  | [] => []
  | v :: vs =>
    layout.comma level ++ fragment layout ascii level v ++ itemFragments layout ascii level vs

/-- Further members, each behind its comma. -/
def memberFragments (layout : Layout) (ascii : Bool) (level : Nat) : List (Text × Json) → Fragment
  | [] => []
  | (k, v) :: ms =>
    layout.comma level ++ .string ascii k :: .code layout.colon :: fragment layout ascii level v ++
      memberFragments layout ascii level ms
end

/-- The value on one line. -/
def write (layout : Layout) (ascii : Bool) (v : Json) : Text :=
  Fragment.render [] (fragment layout ascii 0 v)

end HttpSnippet.Json
