import HttpSnippet.Text.Basic

/-!
# Character properties as ranges

A property of characters is kept as closed ranges of code points.
-/
namespace HttpSnippet.Text

def inRanges (ranges : List (Nat × Nat)) (n : Nat) : Bool :=
  ranges.any fun (first, last) => first ≤ n && n ≤ last

end HttpSnippet.Text
