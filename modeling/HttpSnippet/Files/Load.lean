import HttpSnippet.Converter
import HttpSnippet.Files.Tree
import HttpSnippet.Yaml.Reader

/-!
# Loading descriptions from files

A request or a set of options is kept in a JSON or YAML file that holds a mapping. The suffix of the
name decides between the two. Files are UTF-8, and all line ends are read as line feeds.
-/
namespace HttpSnippet

-- powers are those of the core library, also where another library has its own
attribute [local instance (high)] instPowNat

/-- What a file is loaded for. -/
inductive FileRole where
  | request
  | options
deriving DecidableEq, Repr

namespace FileRole

def title : FileRole → Text
  | .request => "Request"
  | .options => "Options"

def name : FileRole → Text
  | .request => "request"
  | .options => "options"

end FileRole

inductive LoadError where
  | notFound (role : FileRole) (p : Path)
  | noMapping (role : FileRole)
  | badJson (role : FileRole) (fault : Json.Fault) (line column position : Nat)
  | badYaml (role : FileRole)
  /-- The request in the file has issues. -/
  | badRequest (issues : List Issue)
  /-- The request in the file has a layout that cannot be recognised. -/
  | broken (fault : Fault)
  | unreadable (p : Path) (error : FileError)
  | undecodable (error : Text.Utf8.DecodeError)
  /-- A number or a date has the right form and no value. -/
  | noValue (message : Text)
  /-- A number is too large for what it stands for. -/
  | tooLarge
  /-- A text that should be a date is none. -/
  | noDate
  /-- A mapping stands where the text of a date should. -/
  | noDateText
  /-- A scalar has none of the names for truth values. -/
  | badBool
  /-- A number has no text at all. -/
  | noDigits
  /-- There is no room for a collection inside those around it. -/
  | tooDeep (descent : Descent)
deriving DecidableEq, Repr

namespace LoadError

def message : LoadError → Text
  | .notFound role p => role.title ++ " file not found: " ++ p.text
  | .noMapping role => role.title ++ " file must contain a mapping"
  | .badJson role fault line column position =>
    "Invalid JSON in " ++ role.name ++ " file: " ++ fault.message ++ ": line " ++ Text.ofNat line ++
      " column " ++ Text.ofNat column ++ " (char " ++ Text.ofNat position ++ ")"
  | .badYaml role => "Invalid YAML in " ++ role.name ++ " file"
  | .badRequest issues => ConversionError.message (.request issues)
  | .unreadable p error => error.message p
  | .undecodable error => error.message
  | .noValue message => message
  | .broken fault => fault.message
  | .tooLarge => "a number is too large"
  | .noDate => "a date has another form"
  | .noDateText => "a mapping stands where the text of a date should"
  | .badBool => "a truth value has an unknown name"
  | .noDigits => "a number has no digits"
  | .tooDeep descent => descent.message

end LoadError

/-- The text with carriage returns, and such before line feeds, as line feeds. -/
def Text.unifyLineEnds : Text → Text
  | [] => []
  | '\r' :: '\n' :: t => '\n' :: unifyLineEnds t
  | c :: t => (if c = '\r' then '\n' else c) :: unifyLineEnds t

/-- The line and the column of a position, counted from one. -/
def Text.lineColumn (t : Text) (position : Nat) : Nat × Nat :=
  let before := t.take position
  (before.count '\n' + 1, (before.reverse.takeWhile (· ≠ '\n')).length + 1)

namespace FileRole

def readJson [Host] (role : FileRole) (t : Text) : Except LoadError Value :=
  match Json.readWithin (Host.room .file) t with
  | .ok v => .ok (.ofJson v)
  | .error (.syntaxError fault position) =>
    let (line, column) := t.lineColumn position
    .error (.badJson role fault line column position)
  | .error (.numeralTooLong digits) =>
    .error (.noValue (Number.IntegerFault.message t 10 (.tooLong digits)))
  | .error (.tooDeep descent) => .error (.tooDeep descent)

/-- How often a collection that contains itself is given inside itself in a request. The checks of a
request go no deeper. -/
def maxTurns : Nat := 8

/-- The data of a YAML file. Options are looked at one by one. -/
def readYaml [Host] (role : FileRole) (t : Text) : Except LoadError Value :=
  let data := match role with
    | .request => Yaml.read maxTurns t
    | .options => Yaml.readParts t
  data.mapError fun
    | .malformed => .badYaml role
    | .badNumeral t base fault => .noValue (fault.message t base)
    | .tooLarge => .tooLarge
    | .badFloat t => .noValue ("could not convert string to float: " ++ t.display)
    | .badDate reason => .noValue reason
    | .noDate => .noDate
    | .noDateText => .noDateText
    | .noCharacter code =>
      if code < 2 ^ (31 : Nat) then .noValue "chr() arg not in range(0x110000)" else .tooLarge
    | .tooDeep => .tooDeep .composing
    | .badBool => .badBool
    | .noDigits => .noDigits

def isJson (p : Path) : Bool := p.suffix.toLower = (".json" : Text)

/-- How many bytes of a YAML file are decoded at once. -/
def pieceSize : Nat := 8192

/-- Where the character begins that stands at a place in well-formed UTF-8. -/
def characterStart (bytes : List UInt8) (n : Nat) : Nat :=
  let isContinuation (b : UInt8) : Bool := 0x80 ≤ b.toNat && b.toNat < 0xC0
  let behind := (bytes.take (n + 1)).reverse.takeWhile isContinuation
  n - behind.length

/-- The place of the byte that shows an error. Of a surrogate it is the third one, and a sequence
that is cut off is shown by the end. -/
def shownAt (bytes : List UInt8) (e : Text.Utf8.DecodeError) : Nat :=
  let isSurrogate := e.lead = 0xED && (bytes[e.position + 1]?.any fun b => 0xA0 ≤ b && b < 0xC0)
  match e.fault with
  | .invalidStart => e.position
  | .invalidContinuation => if isSurrogate then e.position + 2 else e.position + e.size
  | .unexpectedEnd => bytes.length

/-- An error with its position in the piece that shows it. A sequence that the end of a piece cuts
off belongs to the next one, and the end of the file shows only what it cuts off itself. -/
def inPiece (bytes : List UInt8) (e : Text.Utf8.DecodeError) : Text.Utf8.DecodeError :=
  let shown := shownAt bytes e
  let boundary := shown / pieceSize * pieceSize
  if bytes.length ≤ shown || e.position < boundary then { e with position := 0 }
  else if boundary = 0 || e.position = boundary then { e with position := e.position - boundary }
  else { e with position := e.position - characterStart bytes boundary }

/-- The text of a file. JSON is decoded as a whole and YAML piece by piece. -/
def decode (p : Path) (bytes : List UInt8) : Except LoadError Text :=
  match Text.Utf8.decode bytes with
  | .ok t => .ok t.unifyLineEnds
  | .error e => .error (.undecodable (if isJson p then e else inPiece bytes e))

/-- The mapping in a file; a file without any data counts as an empty one. -/
def load [Host] (role : FileRole) (files : FileTree) (p : Path) : Except LoadError Fields := do
  match files.find p with
  | .ok _ => pure ()
  | .error .nameTooLong => throw (.unreadable p .nameTooLong)
  | .error _ => throw (.notFound role p)
  let bytes ← (files.read p).mapError (.unreadable p)
  let t ← decode p bytes
  let v ← if isJson p then role.readJson t else role.readYaml t
  match v with
  | .null => return []
  | .map fields => return fields
  | _ => throw (.noMapping role)

end FileRole

/-- The request inside the wrapper of a collection item, if there is one. -/
def unwrapRequest (fields : Fields) : Fields :=
  match fields.get? "request" with
  | some (.map inner) => inner
  | _ => fields

def loadRequest [Host] (files : FileTree) (p : Path) : Except LoadError Request := do
  let fields ← FileRole.request.load files p
  match Reading.request (.map (unwrapRequest fields)) with
  | .valid r => return r
  | .invalid issues => throw (.badRequest issues)
  | .broken fault => throw (.broken fault)

def loadOptions [Host] (files : FileTree) (p : Path) : Except LoadError Fields :=
  FileRole.options.load files p

end HttpSnippet
