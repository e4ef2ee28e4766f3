import HttpSnippet.Text.Basic

/-!
# Grouping by key

An object keeps all values of a key at the place where the key first stood. Reading the groups one
after another gives the pairs in their old order exactly if no key returns after another one.
-/
namespace HttpSnippet

/-- Adds a value to the group of its key, or opens a group at the end. -/
def addToGroup {α : Type} (key : Text) (value : α) : List (Text × List α) → List (Text × List α)
  | [] => [(key, [value])]
  | (k, vs) :: rest =>
    if k = key then (k, vs ++ [value]) :: rest else (k, vs) :: addToGroup key value rest

def groupByKey {α : Type} (pairs : List (Text × α)) : List (Text × List α) :=
  pairs.foldl (fun groups (key, value) => addToGroup key value groups) []

/-- The keys without those that repeat the key right before them. -/
def keyRuns : List Text → List Text
  | [] => []
  | [k] => [k]
  | k :: l :: rest => if k = l then keyRuns (l :: rest) else k :: keyRuns (l :: rest)

/-- Whether a list holds an element twice. -/
def hasRepeat : List Text → Bool
  | [] => false
  | k :: rest => rest.contains k || hasRepeat rest

/-- Whether some key returns after another key came between. -/
def interleavesKeys (keys : List Text) : Bool := hasRepeat (keyRuns keys)

end HttpSnippet
