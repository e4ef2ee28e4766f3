/-!
# Texts

A text is a list of Unicode characters, so readers and writers are recursion on data. String
literals stand for their characters.

Surrogates are code points without a character, and no text holds one. An escape can still name one
outside a pair; a reader then puts a character of a private plane in its place. What is written for
such a text shows the stand-in, and the encoding of the text is left to the host.
-/
namespace HttpSnippet

abbrev Text := List Char

namespace Text

instance : Coe String Text := ⟨String.toList⟩

/-- The stand-in for a surrogate, a character of its own for each. -/
def standIn (surrogate : Nat) : Char := Char.ofNat (0x10F000 + (surrogate - 0xD800))

def isStandIn (c : Char) : Bool := 0x10F000 ≤ c.toNat && c.toNat < 0x10F800

/-- The surrogate that a stand-in is there for. -/
def surrogateOf (c : Char) : Nat := 0xD800 + (c.toNat - 0x10F000)

/-- The decimal digits of a number. -/
def ofNat (n : Nat) : Text := Nat.toDigits 10 n

def ofInt : Int → Text
  | .ofNat n => ofNat n
  | .negSucc n => '-' :: ofNat (n + 1)

/-- The last `width` hexadecimal digits of a number, in lower case. -/
def hex : Nat → Nat → Text
  | 0, _ => []
  | width + 1, n => hex width (n / 16) ++ [Nat.digitChar (n % 16)]

/-- The parts before and after the first occurrence of a non-empty separator. -/
def cut? (t sep : Text) : Option (Text × Text) :=
  match t with
  | [] => none
  | c :: rest =>
    if sep.isPrefixOf (c :: rest) then some ([], (c :: rest).drop sep.length)
    else (cut? rest sep).map fun (before, after) => (c :: before, after)

/-- The parts before and after the last occurrence of a character. -/
def cutLast? (sep : Char) : Text → Option (Text × Text)
  | [] => none
  | c :: t =>
    match cutLast? sep t with
    | some (before, after) => some (c :: before, after)
    | none => if c = sep then some ([], t) else none

/-- The pieces between the occurrences of a character; one more than there are occurrences. -/
def splitOn (sep : Char) : Text → List Text
  | [] => [[]]
  | c :: t =>
    match splitOn sep t with
    | [] => [[c]]
    | piece :: pieces => if c = sep then [] :: piece :: pieces else (c :: piece) :: pieces

def join (sep : Text) (pieces : List Text) : Text := sep.intercalate pieces

/-- `t` written `n` times. -/
def repeated (n : Nat) (t : Text) : Text := (List.replicate n t).flatten

theorem splitOn_ne_nil (sep : Char) (t : Text) : splitOn sep t ≠ [] := by
  cases t with
  | nil => simp [splitOn]
  | cons c t =>
    unfold splitOn
    split
    · simp
    · split <;> simp

/-- Joining the pieces with the separator gives the text back. -/
theorem join_splitOn (sep : Char) (t : Text) : join [sep] (splitOn sep t) = t := by
  induction t with
  | nil => rfl
  | cons c t ih =>
    unfold splitOn
    split
    · next h => exact absurd h (splitOn_ne_nil sep t)
    · next piece pieces h =>
      rw [h] at ih
      split
      · next hc => subst hc; simp [join, List.intercalate] at *; exact ih
      · next hc =>
        cases pieces with
        | nil => simpa [join, List.intercalate] using ih
        | cons p ps => simpa [join, List.intercalate] using ih

end Text
end HttpSnippet
