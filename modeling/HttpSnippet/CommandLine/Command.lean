import HttpSnippet.CommandLine.Syntax
import HttpSnippet.Files.Path
import HttpSnippet.Number.Integer
import HttpSnippet.Options.Basic

/-!
# Commands

The three commands of the program with their flags: to generate a snippet, to list the targets, and
to list the options of a target.
-/
namespace HttpSnippet.CommandLine

/-- Options that were given as flags. -/
structure Overrides where
  indentKind : Option (Operand IndentKind) := none
  indentCount : Option (Operand Nat) := none
  requestTimeout : Option (Operand Nat) := none
  followRedirect : Option Bool := none
  trimBody : Option Bool := none
deriving DecidableEq, Repr

/-- The value that a flag sets an option to. A flag without a value sets it to an empty list, which
is no value of any option. -/
def Operand.option {α : Type} (f : α → Value) : Operand α → Value
  | .value a => f a
  | .nothing => .list []

/-- The overrides by option id. -/
def Overrides.fields (o : Overrides) : Fields :=
  let field {α : Type} (id : String) (value : Option α) (f : α → Value) : Fields :=
    (value.map fun a => (Value.str id, f a)).toList
  field "indentType" o.indentKind (Operand.option fun k => .str k.name) ++
    field "indentCount" o.indentCount (Operand.option fun n => .int n) ++
    field "requestTimeout" o.requestTimeout (Operand.option fun n => .int n) ++
    field "followRedirect" o.followRedirect .bool ++
    field "trimRequestBody" o.trimBody .bool

structure GenerateArguments where
  target : Operand Text := .nothing
  request : Operand Path := .nothing
  optionsFile : Option (Operand Path) := none
  overrides : Overrides := {}
  out : Option (Operand Path) := none
  verbose : Bool := false
deriving DecidableEq, Repr

inductive Command where
  | generate (arguments : GenerateArguments)
  | listTargets
  | listOptions (target : Operand Text)
deriving DecidableEq, Repr

/-- Why there is no command: the program or command that was to read it, and the reason. -/
structure CommandError where
  program : Text
  stop : Stop
deriving DecidableEq, Repr

def programName : Text := "request-codegen"

/-- How the commands are called. -/
def usageLines : List Text := [
  "usage: request-codegen generate --target ID --request FILE [--options FILE]",
  "         [--indent-type Tab|Space] [--indent-count N] [--timeout MS]",
  "         [--follow-redirect | --no-follow-redirect] [--trim-body] [--out FILE] [-v]",
  "       request-codegen list-targets",
  "       request-codegen list-options --target ID"]

def helpFlag (σ : Type) : Flag σ :=
  { names := ["-h", "--help"], apply := fun _ _ _ => .error .help }

/-- A path as the value of a flag. -/
def pathValue (value : Text) : Except Stop Path := .ok (.ofText value)

/-- The value of a flag that has to be a natural number. -/
def naturalValue (flag : List Text) (value : Text) : Except Stop Nat :=
  match Number.readInteger value with
  | .error _ => .error (.usage (.notInteger flag value))
  | .ok n => if n < 0 then .error (.usage (.negative flag n)) else .ok n.toNat

def GenerateArguments.override (a : GenerateArguments) (f : Overrides → Overrides) :
    GenerateArguments :=
  { a with overrides := f a.overrides }

/-- The value of a flag that has to be the name of a kind of indentation. -/
def indentKindValue (value : Text) : Except Stop IndentKind :=
  match IndentKind.all.find? (·.name = value) with
  | some kind => .ok kind
  | none => .error (.usage (.noChoice "--indent-type" value (IndentKind.all.map (·.name))))

def generateFlags : List (Flag GenerateArguments) := [
  helpFlag GenerateArguments,
  { names := ["--target"], hasValue := true, required := true
    apply := fun _ given a => .ok { a with target := given } },
  { names := ["--request"], hasValue := true, required := true
    apply := fun _ given a => do return { a with request := ← given.read pathValue } },
  { names := ["--options"], hasValue := true
    apply := fun _ given a => do return { a with optionsFile := some (← given.read pathValue) } },
  { names := ["--indent-type"], hasValue := true
    apply := fun _ given a => do
      let kind ← given.read indentKindValue
      return a.override fun o => { o with indentKind := some kind } },
  { names := ["--indent-count"], hasValue := true
    apply := fun _ given a => do
      let n ← given.read (naturalValue ["--indent-count"])
      return a.override fun o => { o with indentCount := some n } },
  { names := ["--timeout"], hasValue := true
    apply := fun _ given a => do
      let n ← given.read (naturalValue ["--timeout"])
      return a.override fun o => { o with requestTimeout := some n } },
  { names := ["--follow-redirect", "--no-follow-redirect"]
    apply := fun name _ a =>
      .ok (a.override fun o =>
        { o with followRedirect := some (name = "--follow-redirect".toList) }) },
  { names := ["--trim-body"]
    apply := fun _ _ a => .ok (a.override fun o => { o with trimBody := some true }) },
  { names := ["--out"], hasValue := true
    apply := fun _ given a => do return { a with out := some (← given.read pathValue) } },
  { names := ["-v", "--verbose"], apply := fun _ _ a => .ok { a with verbose := true } }]

def listOptionsFlags : List (Flag (Operand Text)) := [
  helpFlag (Operand Text),
  { names := ["--target"], hasValue := true, required := true
    apply := fun _ given _ => .ok given }]

def commandNames : List Text := ["generate", "list-targets", "list-options"]

/-- Reads the words behind the name of a command. Words without a use are left over. -/
def readCommand (name : Text) (words : List Text) : Except CommandError (Command × List Text) :=
  let within {σ : Type} (flags : List (Flag σ)) (start : σ) (f : σ → Command) :
      Except CommandError (Command × List Text) :=
    match readFlags flags start words with
    | .ok r => .ok (f r.arguments, r.leftover)
    | .error stop => .error ⟨programName ++ ' ' :: name, stop⟩
  if name = "generate".toList then within generateFlags {} .generate
  else if name = "list-targets".toList then within [helpFlag Unit] () fun _ => .listTargets
  else if name = "list-options".toList then within listOptionsFlags .nothing .listOptions
  else .error ⟨programName, .usage (.noChoice "command" name commandNames)⟩

/-- Stops at the first flag among the words before the command: the only known one asks for help. -/
def askedForHelp : List (Word Unit) → Except Stop Unit
  | .flag f name (some value) :: _ => do
    let uses ← withValue [helpFlag Unit] f name value
    let _ ← Reading.use { arguments := () } uses
  | .flag _ _ none :: _ => .error .help
  | _ :: words => askedForHelp words
  | [] => .ok ()

/-- The words before the name of the command, and those from it on. -/
def splitAtCommand (words : List Text) : Except Stop (List Text × List Text) := do
  let leading := (← classifyAll [helpFlag Unit] words).takeWhile (·.isFlagLike)
  askedForHelp leading
  return words.splitAt leading.length

/-- Reads a command line. Words without a use are an error once the command was read to its end. -/
def parse (words : List Text) : Except CommandError Command := do
  let fail {α : Type} (stop : Stop) : Except CommandError α := .error ⟨programName, stop⟩
  let (before, rest) ← (splitAtCommand words).mapError fun stop => ⟨programName, stop⟩
  match rest with
  | [] | [['-', '-']] => fail (.usage (.missing ["command"]))
  | name :: words =>
    let (command, leftover) ← readCommand name words
    match before ++ leftover with
    | [] => return command
    | leftover => fail (.usage (.unknown leftover))

end HttpSnippet.CommandLine
