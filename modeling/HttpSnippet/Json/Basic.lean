import HttpSnippet.Text.Basic
import HttpSnippet.Number.Binary64

/-!
# JSON values

Integers have any size and stay apart from floating-point numbers. The members of an object keep the
order in which their names first appeared.
-/
namespace HttpSnippet

inductive Json where
  | null
  | bool (b : Bool)
  | int (n : Int)
  | float (x : Binary64)
  | str (t : Text)
  | arr (items : List Json)
  | obj (members : List (Text × Json))
deriving Repr, Inhabited, BEq

namespace Json

/-- Sets a member. A repeated name keeps its first place and takes the last value. -/
def insertMember (name : Text) (value : Json) : List (Text × Json) → List (Text × Json)
  | [] => [(name, value)]
  | (n, v) :: rest =>
    if n = name then (n, value) :: rest else (n, v) :: insertMember name value rest

mutual
/-- How many collections stand inside each other. -/
def depth : Json → Nat
  | .arr items => depthOfItems items + 1
  | .obj members => depthOfMembers members + 1
  | _ => 0

def depthOfItems : List Json → Nat
  | [] => 0
  | v :: vs => max v.depth (depthOfItems vs)

def depthOfMembers : List (Text × Json) → Nat
  | [] => 0
  | (_, v) :: ms => max v.depth (depthOfMembers ms)
end

end Json
end HttpSnippet
