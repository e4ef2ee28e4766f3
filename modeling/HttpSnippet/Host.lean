import HttpSnippet.Text.Basic

/-!
# The host of a run

A run is bounded by the computer that it takes place on and by the calls that it is made from. Data
inside data is gone through by one call inside another, and the call stack has room for some number
of them; an indentation has to fit into the memory. None of these bounds is the program's own, so
they are parameters here, and what is proved holds on every host.
-/
namespace HttpSnippet

-- powers are those of the core library, also where another library has its own
attribute [local instance (high)] instPowNat

/-- A place in the program that goes through nested collections by calls inside each other. -/
inductive Site where
  /-- The data of a JSON file is read. -/
  | file
  /-- The nodes of a YAML file are put together. -/
  | nodes
  /-- A mapping of a YAML file takes in what another one has taken in. -/
  | merges
  /-- A mapping of a YAML file stands for the text under its bare equals sign. -/
  | texts
  /-- The variables of a request are given as data and written as JSON. -/
  | givenVariables
  /-- A request is copied before it is brought into normal form. -/
  | copy
  /-- A raw body is read as JSON. -/
  | rawReading
  /-- The value of a raw body is written as JSON again. -/
  | rawWriting
  /-- The variables of a GraphQL body are read as JSON. -/
  | variablesReading
  /-- The variables of a GraphQL body, or the whole body, are written as JSON again. -/
  | variablesWriting
deriving DecidableEq, Repr

/-- What was under way when the room for calls came to its end. -/
inductive Descent where
  | readingArray
  | readingObject
  | writing
  /-- The value is written over several lines. -/
  | layingOut
  | copying
  | composing
deriving DecidableEq, Repr

def Descent.message (d : Descent) : Text :=
  "maximum recursion depth exceeded" ++ match d with
    | .readingArray => " while decoding a JSON array from a unicode string"
    | .readingObject => " while decoding a JSON object from a unicode string"
    | .writing => " while encoding a JSON object"
    | .layingOut | .copying | .composing => ""

/-- What one run has room for, and what it can encode. -/
class Host where
  /-- The longest indentation of one level that fits into the memory. Characters are counted in a
  signed word of 64 bits. -/
  maxIndent : Nat
  maxIndent_lt : maxIndent < 2 ^ (63 : Nat)
  /-- How many collections can be entered inside each other. -/
  room : Site → Nat
  /-- Whether a text has no encoding, which is so if a stand-in in it is there for a surrogate. -/
  isUnencodable : Text → Bool
  exists_standIn {t : Text} : isUnencodable t = true → ∃ c ∈ t, Text.isStandIn c = true

namespace Host

/-- A host of a usual size. Every stand-in is there for a surrogate. -/
abbrev usual : Host where
  maxIndent := 2 ^ (32 : Nat)
  maxIndent_lt := by decide
  room
    | .nodes | .copy => 480
    | _ => 950
  isUnencodable t := t.any Text.isStandIn
  exists_standIn h := by simpa using h

end Host
end HttpSnippet
