import HttpSnippet.Check.Scalar

/-!
# Options of a conversion

The options themselves, and the schema that a caller is shown: each entry describes one option by
its id, its kind and its default.
-/
namespace HttpSnippet

-- powers are those of the core library, also where another library has its own
attribute [local instance (high)] instPowNat

inductive IndentKind where
  | tab
  | space
deriving DecidableEq, Repr

namespace IndentKind

def all : List IndentKind := [.tab, .space]

def name : IndentKind → Text
  | .tab => "Tab"
  | .space => "Space"

def char : IndentKind → Char
  | .tab => '\t'
  | .space => ' '

end IndentKind

structure Options where
  indentKind : IndentKind := .space
  indentCount : Nat := 2
  requestTimeout : Nat := 0
  followRedirect : Bool := true
  trimBody : Bool := false
deriving DecidableEq, Repr

/-- Why there is no indentation of one level. -/
inductive IndentFault where
  /-- It has more characters than can be counted in a signed word of 64 bits. -/
  | uncountable
  /-- There is no room for it. -/
  | noRoom
deriving DecidableEq, Repr

namespace Options

/-- The indentation of one level. -/
def indent (o : Options) : Text := List.replicate o.indentCount o.indentKind.char

/-- The indentation of one level, unless it is too long. -/
def indentation [Host] (o : Options) : Except IndentFault Text :=
  if 2 ^ (63 : Nat) ≤ o.indentCount then .error .uncountable
  else if Host.maxIndent < o.indentCount then .error .noRoom
  else .ok o.indent

end Options

inductive OptionKind where
  | positiveInteger
  | enum
  | boolean
deriving DecidableEq, Repr

namespace OptionKind

def all : List OptionKind := [.positiveInteger, .enum, .boolean]

def name : OptionKind → Text
  | .positiveInteger => "positiveInteger"
  | .enum => "enum"
  | .boolean => "boolean"

end OptionKind

/-- One entry of an option schema. -/
structure OptionSpec where
  label : Text
  id : Text
  kind : OptionKind
  default : Value
  choices : Option (List Text) := none
  description : Text := []
deriving Repr, BEq

/-- The schema of every target. -/
def commonSpecs : List OptionSpec := [
  { label := "Set indentation count"
    id := "indentCount"
    kind := .positiveInteger
    default := .int 2
    description := "Set the number of indentation characters to add per code level" },
  { label := "Set indentation type"
    id := "indentType"
    kind := .enum
    default := .str "Space"
    choices := some ["Tab", "Space"]
    description := "Select the character used to indent lines of code" },
  { label := "Set request timeout"
    id := "requestTimeout"
    kind := .positiveInteger
    default := .int 0
    description := "Set number of milliseconds the request should wait for a response" ++
      " before timing out (use 0 for infinity)" },
  { label := "Follow redirects"
    id := "followRedirect"
    kind := .boolean
    default := .bool true
    description := "Automatically follow HTTP redirects" },
  { label := "Trim request body fields"
    id := "trimRequestBody"
    kind := .boolean
    default := .bool false
    description :=
      "Remove white space and additional lines that may affect the server's response" }]

namespace Reading

def optionSpec : Reading OptionSpec := mapping "OptionSpec" fun fields =>
  (OptionSpec.mk <$> fields.required "name" string
    <*> fields.required "id" string
    <*> fields.required "type" (oneOf OptionKind.all OptionKind.name)
    <*> fields.required "default" .valid
    <*> fields.optionalAs ["availableOptions", "available_options"] none (nullable (list string))
    <*> fields.optional "description" [] string).and (fields.onlyKnown [
      ["name"], ["id"], ["type"], ["default"], ["availableOptions", "available_options"],
      ["description"]]) |>.map (·.1)

/-- The names of an option: its id and the name of its field. -/
def optionNames : List (List Text) := [
  ["indentType", "indent_type"], ["indentCount", "indent_count"],
  ["requestTimeout", "request_timeout"], ["followRedirect", "follow_redirect"],
  ["trimRequestBody", "trim_request_body"]]

def options : Reading Options := mapping "CodegenOptions" fun fields =>
  (Options.mk <$> fields.optionalAs ["indentType", "indent_type"] .space
      (oneOf IndentKind.all IndentKind.name)
    <*> fields.optionalAs ["indentCount", "indent_count"] 2 natural
    <*> fields.optionalAs ["requestTimeout", "request_timeout"] 0 natural
    <*> fields.optionalAs ["followRedirect", "follow_redirect"] true bool
    <*> fields.optionalAs ["trimRequestBody", "trim_request_body"] false bool).and
      (fields.onlyKnown optionNames) |>.map (·.1)

end Reading
end HttpSnippet
