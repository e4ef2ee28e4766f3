import HttpSnippet.Text.Digit
import HttpSnippet.Text.Quoted

/-!
# Words of a command line

A command has flags with long names, which may be shortened as long as they stay unambiguous, and
short ones, which may share a dash. A value stands behind an equals sign or in the next word. Words
behind a double dash are never flags, and neither are negative numbers or words with a space.
-/
namespace HttpSnippet.CommandLine

/-- What is wrong with a command line. -/
inductive UsageCause where
  | ambiguous (word : Text) (candidates : List Text)
  | noValue (flag : List Text)
  | unusedValue (flag : List Text) (value : Text)
  | notInteger (flag : List Text) (value : Text)
  | negative (flag : List Text) (value : Int)
  | noChoice (what : Text) (value : Text) (choices : List Text)
  | missing (what : List Text)
  | unknown (words : List Text)
deriving DecidableEq, Repr

/-- Why the reading of a command line stops. -/
inductive Stop where
  /-- The user asked for help. -/
  | help
  | usage (cause : UsageCause)
deriving DecidableEq, Repr

namespace UsageCause

def flagText (names : List Text) : Text := "argument " ++ Text.join "/" names ++ ": "

def message : UsageCause → Text
  | .ambiguous word candidates =>
    "ambiguous option: " ++ word ++ " could match " ++ Text.join ", " candidates
  | .noValue flag => flagText flag ++ "expected one argument"
  | .unusedValue flag value => flagText flag ++ "ignored explicit argument " ++ value.display
  | .notInteger flag value => flagText flag ++ "Invalid integer '" ++ value ++ "'."
  | .negative flag value =>
    flagText flag ++ "Value must not be negative, got " ++ Text.ofInt value ++ "."
  | .noChoice what value choices =>
    flagText [what] ++ "invalid choice: " ++ value.display ++ " (choose from " ++
      Text.join ", " (choices.map (·.display)) ++ ")"
  | .missing what => "the following arguments are required: " ++ Text.join ", " what
  | .unknown words => "unrecognized arguments: " ++ Text.join " " words

end UsageCause

/-- What stands in the place of a flag's value. -/
inductive Operand (α : Type) where
  | value (a : α)
  /-- There is no value: the double dash, which stands for none, is taken away. -/
  | nothing
deriving DecidableEq, Repr

namespace Operand

/-- A value as it was given: a double dash leaves nothing. -/
def ofText (t : Text) : Operand Text := if t = "--".toList then .nothing else .value t

def value? {α : Type} : Operand α → Option α
  | .value a => some a
  | .nothing => none

/-- The operand with its value read. Where there is no value, nothing is wrong with it. -/
def read {α β : Type} (f : α → Except Stop β) : Operand α → Except Stop (Operand β)
  | .value a => (f a).map .value
  | .nothing => .ok .nothing

end Operand

/-- A flag, and what it does to the arguments of its command. It is told the name it was given under
and what was given for its value; without `hasValue` that is nothing. -/
structure Flag (σ : Type) where
  names : List Text
  hasValue : Bool := false
  required : Bool := false
  apply : (name : Text) → (given : Operand Text) → σ → Except Stop σ

/-- A word of a command line, seen by a command with some flags. -/
inductive Word (σ : Type) where
  | plain (t : Text)
  /-- The double dash behind which no word is a flag. -/
  | separator
  /-- A word that looks like a flag and is none. -/
  | unknown (t : Text)
  | flag (f : Flag σ) (name : Text) (value : Option Text)

def Word.isFlagLike {σ : Type} : Word σ → Bool
  | .unknown _ | .flag _ _ _ => true
  | _ => false

/-- A word as it was given. -/
def Word.text {σ : Type} : Word σ → Text
  | .plain t | .unknown t => t
  | .separator => "--"
  | .flag _ name value => name ++ ((value.map ('=' :: ·)).getD [])

/-- A dash with decimal digits, among which a point may stand. A line end at the end is passed
over. -/
def isNegativeNumber (t : Text) : Bool :=
  let isDecimal (c : Char) : Bool := (Text.decimalValue? c).isSome
  match t with
  | '-' :: t =>
    let t := if t.getLast? = some '\n' then t.dropLast else t
    match t.dropWhile isDecimal with
    | [] => !t.isEmpty
    | '.' :: places => !places.isEmpty && places.all isDecimal
    | _ => false
  | _ => false

/-- A flag that is given, with its name and what was given for its value. -/
structure FlagUse (σ : Type) where
  flag : Flag σ
  name : Text
  given : Operand Text := .nothing

section
variable {σ : Type}

/-- All names of flags with their flags, in order. -/
def namesOf (flags : List (Flag σ)) : List (Text × Flag σ) :=
  flags.flatMap fun f => f.names.map (·, f)

def flagOf? (flags : List (Flag σ)) (name : Text) : Option (Flag σ) :=
  ((namesOf flags).find? (·.1 = name)).map (·.2)

/-- The text before the first equals sign, and the text behind it. -/
def splitValue (t : Text) : Text × Option Text :=
  match t.cut? "=" with
  | some (name, value) => (name, some value)
  | none => (t, none)

/-- The flags that a word may be short for, with the value that it gives them. -/
def candidates (flags : List (Flag σ)) (t : Text) : List (Text × Flag σ × Option Text) :=
  match t with
  | '-' :: '-' :: _ =>
    let (start, value) := splitValue t
    (namesOf flags).filterMap fun (name, f) =>
      if start.isPrefixOf name then some (name, f, value) else none
  | _ =>
    (namesOf flags).filterMap fun (name, f) =>
      if name = t.take 2 then some (name, f, some (t.drop 2))
      else if t.isPrefixOf name then some (name, f, none)
      else none

/-- What a word is to a command. -/
def classify (flags : List (Flag σ)) (t : Text) : Except Stop (Word σ) :=
  let (name, value) := splitValue t
  match t, flagOf? flags t, flagOf? flags name with
  | '-' :: _ :: _, some f, _ => .ok (.flag f t none)
  | '-' :: _ :: _, none, some f => .ok (.flag f name value)
  | '-' :: _ :: _, none, none =>
    match candidates flags t with
    | [(name, f, value)] => .ok (.flag f name value)
    | [] =>
      if isNegativeNumber t || t.contains ' ' then .ok (.plain t) else .ok (.unknown t)
    | several => .error (.usage (.ambiguous t (several.map (·.1))))
  | _, _, _ => .ok (.plain t)

/-- All words of a command line. -/
def classifyAll (flags : List (Flag σ)) : List Text → Except Stop (List (Word σ))
  | [] => .ok []
  | t :: ts =>
    if t = "--".toList then .ok (.separator :: ts.map .plain)
    else do return (← classify flags t) :: (← classifyAll flags ts)

/-- The flags that share a dash, up to the first one with a value. The rest of the word behind a
flag has to be further flags. -/
def shared (flags : List (Flag σ)) (f : Flag σ) (name : Text) :
    Text → Except Stop (List (FlagUse σ))
  | [] => .ok [⟨f, name, .nothing⟩]
  | c :: rest =>
    match flagOf? flags ['-', c] with
    | none => .error (.usage (.unusedValue f.names (c :: rest)))
    | some g => do
      let others ← if g.hasValue then .ok [⟨g, ['-', c], .ofText rest⟩]
        else shared flags g ['-', c] rest
      return ⟨f, name, .nothing⟩ :: others

/-- The flags that a word stands for when it carries a value itself. -/
def withValue (flags : List (Flag σ)) (f : Flag σ) (name value : Text) :
    Except Stop (List (FlagUse σ)) :=
  if f.hasValue then .ok [⟨f, name, .ofText value⟩]
  else if name[1]? ≠ some '-' && !value.isEmpty then shared flags f name value
  else .error (.usage (.unusedValue f.names value))

/-- What the words of a command line came to. -/
structure Reading (σ : Type) where
  arguments : σ
  /-- The first names of the flags that were given. -/
  given : List (List Text) := []
  /-- The words that the command has no use for. -/
  leftover : List Text := []

def Reading.use (r : Reading σ) (uses : List (FlagUse σ)) : Except Stop (Reading σ) :=
  uses.foldlM (fun r u => do
    return { r with
      arguments := ← u.flag.apply u.name u.given r.arguments
      given := u.flag.names :: r.given }) r

/-- Takes the words of a command that has flags only. -/
def Reading.takeWords (flags : List (Flag σ)) : List (Word σ) → Reading σ → Except Stop (Reading σ)
  | [], r => .ok r
  | .flag f name (some value) :: words, r => do
    takeWords flags words (← r.use (← withValue flags f name value))
  | .flag f name none :: words, r => do
    if f.hasValue then
      match words with
      | .plain value :: words => takeWords flags words (← r.use [⟨f, name, .ofText value⟩])
      | _ => throw (.usage (.noValue f.names))
    else takeWords flags words (← r.use [⟨f, name, .nothing⟩])
  | word :: words, r => takeWords flags words { r with leftover := r.leftover ++ [word.text] }

/-- Reads the words of a command that has flags only. -/
def readFlags (flags : List (Flag σ)) (start : σ) (words : List Text) :
    Except Stop (Reading σ) := do
  let r ← Reading.takeWords flags (← classifyAll flags words) { arguments := start }
  match (flags.filter fun f => f.required && !r.given.contains f.names).map (·.names) with
  | [] => return r
  | missing => throw (.usage (.missing (missing.map (Text.join "/"))))

end
end HttpSnippet.CommandLine
