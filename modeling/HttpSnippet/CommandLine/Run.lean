import HttpSnippet.CommandLine.Command
import HttpSnippet.CommandLine.Notice
import HttpSnippet.Files.Load

/-!
# Running commands

A command is a function of the files it finds: it answers with what it prints, the files as it
leaves them, and a code. Output appears only when the command succeeds, and a file is written only
as its last step.
-/
namespace HttpSnippet.CommandLine

/-- What a command leaves behind. -/
structure Outcome where
  code : Nat := 0
  out : Text := []
  /-- The lines of the error stream. -/
  messages : List Text := []
  files : FileTree
deriving DecidableEq, Repr

/-- An error that a command has no message for. -/
inductive Failure where
  | load (error : LoadError)
  | conversion (error : ConversionError)
  /-- The snippet has no encoding. A file that it should go to is there and empty then. -/
  | unencodable (snippet : Text) (files : FileTree)
  /-- The snippet goes to a path that no file can have. -/
  | badPath (p : Path)
  /-- The flag for the target has no value. -/
  | noTarget
  /-- The flag for a file has no value. -/
  | noPath
deriving DecidableEq, Repr

def Failure.message : Failure → Text
  | .load error => error.message
  | .conversion error => error.message
  | .unencodable snippet _ => Text.Utf8.encodeMessage snippet
  | .badPath p => FileError.message p .nulInside
  | .noTarget => "a target is expected where nothing stands"
  | .noPath => "a path is expected where nothing stands"

/-- Whether a failed load is reported as a fault of the configuration. -/
def isReported : LoadError → Bool
  | .notFound _ _ | .noMapping _ | .badJson _ _ _ _ _ | .badYaml _ | .badRequest _ => true
  | _ => false

/-- The options file laid under the flags. A flag for the file without a value is like none. -/
def mergedOptions [Host] (files : FileTree) (a : GenerateArguments) : Except LoadError Fields := do
  let fields ← match a.optionsFile.bind (·.value?) with
    | some p => loadOptions files p
    | none => .ok []
  return fields.overlay a.overrides.fields

/-- The request in a file, and the options that a command line asks for. -/
def loadInputs [Host] (files : FileTree) (a : GenerateArguments) (request : Path) :
    Except LoadError (Request × Fields) := do
  let r ← loadRequest files request
  return (r, ← mergedOptions files a)

/-- The value of a flag that cannot do without one. -/
def needed {α : Type} (given : Operand α) (failure : Failure) : Except Failure α :=
  match given with
  | .value a => .ok a
  | .nothing => .error failure

/-- Prints a snippet, or writes it to a file. A file is opened, and so emptied, before the snippet
is encoded. -/
def deliver [Host] (files : FileTree) (a : GenerateArguments) (notices : List Notice)
    (snippet : Text) : Except Failure Outcome :=
  let log (notices : List Notice) : List Text := if a.verbose then notices.map (·.line) else []
  match a.out with
  | none =>
    if Host.isUnencodable snippet then .error (.unencodable snippet files)
    else .ok { out := snippet, messages := log notices, files }
  | some .nothing => .error .noPath
  | some (.value p) =>
    let bytes := if Host.isUnencodable snippet then [] else Text.Utf8.encode snippet
    match files.write p bytes with
    | .ok files =>
      if Host.isUnencodable snippet then .error (.unencodable snippet files)
      else .ok { messages := log (notices ++ [.written p.text]), files }
    | .error .nulInside => .error (.badPath p)
    | .error e =>
      .ok { code := 1
            messages := log notices ++ ["Error writing " ++ p.text ++ ": " ++ e.message p]
            files }

def runGenerate [Host] (files : FileTree) (a : GenerateArguments) : Except Failure Outcome := do
  let refused (log : List Text) (message : Text) : Outcome :=
    { code := 1, messages := log ++ [message], files }
  let id ← needed a.target .noTarget
  match Target.ofId? id with
  | none => return refused [] ("Error: " ++ Target.unknownMessage id)
  | some target =>
    let c : Converter := { target }
    let log : List Text := if a.verbose then [(Notice.selected target).line] else []
    match loadInputs files a (← needed a.request .noPath) with
    | .error e =>
      if isReported e then return refused log ("Error loading config: " ++ e.message)
      else throw (.load e)
    | .ok (r, options) =>
      match c.generateFor r (.map options) with
      | .ok snippet =>
        deliver files a (.selected target :: c.notices r (.map options)) snippet
      | .error (.write (.unknownMode mode)) =>
        return refused log ("Error generating snippet: " ++ WriteError.message (.unknownMode mode))
      | .error e => throw (.conversion e)

/-- One line for each target: its id and its name. -/
def targetLines : List Text := Target.all.map fun t => t.id ++ '\t' :: t.label

/-- The lines about an option. -/
def optionLines (spec : OptionSpec) : List Text :=
  let choices : List Text := match spec.choices with
    | none | some [] => []
    | some names => ["  Choices: " ++ Text.join ", " names]
  let description : List Text := if spec.description.isEmpty then [] else ["  " ++ spec.description]
  [spec.id ++ " (" ++ spec.kind.name ++ ", default: " ++ spec.default.display ++ ")",
    "  " ++ spec.label] ++ choices ++ description

def endLines (lines : List Text) : Text := lines.flatMap (· ++ ['\n'])

def runCommand [Host] (files : FileTree) : Command → Except Failure Outcome
  | .generate a => runGenerate files a
  | .listTargets => .ok { out := endLines targetLines, files }
  | .listOptions target => do
    let id ← needed target .noTarget
    match Target.ofId? id with
    | some _ => return { out := endLines (commonSpecs.flatMap optionLines), files }
    | none => return { code := 1, messages := ["Error: " ++ Target.unknownMessage id], files }

/-- The line that a command line ends with when it cannot be read. -/
def CommandError.message (e : CommandError) : Text :=
  match e.stop with
  | .help => []
  | .usage cause => e.program ++ ": error: " ++ cause.message

/-- The code that a command line ends with when it cannot be read. -/
def CommandError.code (e : CommandError) : Nat :=
  match e.stop with
  | .help => 0
  | .usage _ => 2

/-- Reads a command line and runs its command. -/
def run [Host] (files : FileTree) (words : List Text) : Except Failure Outcome :=
  match parse words with
  | .ok command => runCommand files command
  | .error e =>
    match e.stop with
    | .help => .ok { out := endLines usageLines, files }
    | .usage _ => .ok { code := e.code, messages := [e.message], files }

end HttpSnippet.CommandLine
