import HttpSnippet.Host
import HttpSnippet.Text.Utf8
import HttpSnippet.Value.Basic

/-!
# Checked reading

Loose values are read into typed ones with all their faults collected: each issue names the place
and the cause. Data so odd that a layout cannot even be recognised breaks the reading off instead,
with a fault of its own, and so does data that nests too deep.
-/
namespace HttpSnippet

/-- One step from a value to a part of it. -/
inductive Step where
  | field (name : Text)
  | index (n : Nat)
deriving DecidableEq, Repr

/-- What is wrong at some place. -/
inductive Cause where
  | noString
  | undecodableString
  | noBool
  | unreadableBool
  | noInteger
  | unreadableInteger
  | fractionalInteger
  | nonFiniteInteger
  | oversizedInteger
  | negativeInteger
  | unwritableInteger
  | endlessData
  | noList
  | missing
  | unknownField
  | noMapping (model : Text)
  | notAllowed (allowed : List Text)
deriving DecidableEq, Repr

structure Issue where
  path : List Step
  cause : Cause
deriving DecidableEq, Repr

/-- What breaks a reading off. -/
inductive Fault where
  /-- A value is of no use where it stands. -/
  | wrongKind
  /-- Something other than a text is taken apart as a text. -/
  | noText
  /-- A key that has to be there is missing. -/
  | noKey
  /-- There is no room to enter a collection. -/
  | tooDeep (descent : Descent)
deriving DecidableEq, Repr

def Fault.message : Fault → Text
  | .wrongKind => "a value is of no use where it stands"
  | .noText => "a text is expected where another value stands"
  | .noKey => "a key is missing"
  | .tooDeep descent => descent.message

/-- The outcome of a reading. -/
inductive Checked (α : Type) where
  | valid (a : α)
  | invalid (issues : List Issue)
  | broken (fault : Fault)
deriving Repr

/-- Names in quotes, with commas and a final "or". -/
def quotedChoices (names : List Text) : Text :=
  let quoted := names.map fun n => '\'' :: n ++ ['\'']
  match quoted.reverse with
  | [] => []
  | [only] => only
  | last :: before => Text.join ", " before.reverse ++ " or " ++ last

def Cause.message : Cause → Text
  | .noString => "Input should be a valid string"
  | .undecodableString =>
    "Input should be a valid string, unable to parse raw data as a unicode string"
  | .noBool => "Input should be a valid boolean"
  | .unreadableBool => "Input should be a valid boolean, unable to interpret input"
  | .noInteger => "Input should be a valid integer"
  | .unreadableInteger => "Input should be a valid integer, unable to parse string as an integer"
  | .fractionalInteger => "Input should be a valid integer, got a number with a fractional part"
  | .nonFiniteInteger => "Input should be a finite number"
  | .oversizedInteger => "Unable to parse input string as an integer, exceeded maximum size"
  | .negativeInteger => "Input should be greater than or equal to 0"
  | .unwritableInteger =>
    "Value error, Exceeds the limit (4300 digits) for integer string conversion; " ++
      "use sys.set_int_max_str_digits() to increase the limit"
  | .endlessData => "Value error, Circular reference detected"
  | .noList => "Input should be a valid list"
  | .missing => "Field required"
  | .unknownField => "Extra inputs are not permitted"
  | .noMapping model => "Input should be a valid dictionary or instance of " ++ model
  | .notAllowed allowed => "Input should be " ++ quotedChoices allowed

/-- The short name of a cause. -/
def Cause.code : Cause → Text
  | .noString => "string_type"
  | .undecodableString => "string_unicode"
  | .noBool => "bool_type"
  | .unreadableBool => "bool_parsing"
  | .noInteger => "int_type"
  | .unreadableInteger => "int_parsing"
  | .fractionalInteger => "int_from_float"
  | .nonFiniteInteger => "finite_number"
  | .oversizedInteger => "int_parsing_size"
  | .negativeInteger => "greater_than_equal"
  | .unwritableInteger | .endlessData => "value_error"
  | .noList => "list_type"
  | .missing => "missing"
  | .unknownField => "extra_forbidden"
  | .noMapping _ => "model_type"
  | .notAllowed _ => "enum"

namespace Checked

def map {α β : Type} (f : α → β) : Checked α → Checked β
  | .valid a => .valid (f a)
  | .invalid issues => .invalid issues
  | .broken fault => .broken fault

/-- Both outcomes together: issues add up, and the first break wins over all issues. -/
def and {α β : Type} (x : Checked α) (y : Checked β) : Checked (α × β) :=
  match x, y with
  | .valid a, .valid b => .valid (a, b)
  | .broken fault, _ => .broken fault
  | _, .broken fault => .broken fault
  | .invalid issues, .invalid more => .invalid (issues ++ more)
  | .invalid issues, .valid _ => .invalid issues
  | .valid _, .invalid issues => .invalid issues

/-- Outcomes combine like the parts that they are outcomes for. -/
instance : Applicative Checked where
  pure := .valid
  seq f x := (Checked.and f (x ())).map fun (f, a) => f a

def issue {α : Type} (cause : Cause) : Checked α := .invalid [⟨[], cause⟩]

/-- The outcome for a part, reported from the whole. -/
def under {α : Type} (step : Step) : Checked α → Checked α
  | .invalid issues => .invalid (issues.map fun i => { i with path := step :: i.path })
  | outcome => outcome

/-- Goes on with a result. -/
def bind {α β : Type} (x : Checked α) (f : α → Checked β) : Checked β :=
  match x with
  | .valid a => f a
  | .invalid issues => .invalid issues
  | .broken fault => .broken fault

/-- The outcome for a value without parts. -/
def ofScalar {α : Type} : Except Cause α → Checked α
  | .ok a => .valid a
  | .error cause => .issue cause

/-- The outcome of a recognition that may stumble. -/
def ofExcept {α : Type} : Except Fault α → Checked α
  | .ok a => .valid a
  | .error fault => .broken fault

end Checked

/-- A reading of loose values. -/
abbrev Reading (α : Type) := Value → Checked α

/-- The entries of a mapping, as far as fields are looked up in it. -/
abbrev Fields := List (Value × Value)

namespace Fields

def get? (fields : Fields) (name : Text) : Option Value := Value.find? (.str name) fields

def has (fields : Fields) (name : Text) : Bool := (fields.get? name).isSome

/-- The first of several names that is there, with its value. -/
def first? (fields : Fields) (names : List Text) : Option (Text × Value) :=
  names.findSome? fun name => (fields.get? name).map (name, ·)

/-- A field that has to be there. -/
def required {α : Type} (fields : Fields) (name : Text) (reading : Reading α) : Checked α :=
  match fields.get? name with
  | some v => (reading v).under (.field name)
  | none => .invalid [⟨[.field name], .missing⟩]

/-- A field that may be given under one of several names. The first name that is there counts. -/
def optionalAs {α : Type} (fields : Fields) (names : List Text) (default : α)
    (reading : Reading α) : Checked α :=
  match fields.first? names with
  | some (name, v) => (reading v).under (.field name)
  | none => .valid default

def optional {α : Type} (fields : Fields) (name : Text) (default : α) (reading : Reading α) :
    Checked α :=
  fields.optionalAs [name] default reading

/-- Issues for the fields that are none of the given ones. A field with two names counts as known
under the first of them that is there. -/
def onlyKnown (fields : Fields) (known : List (List Text)) : Checked Unit :=
  let used := known.filterMap fun names => (fields.first? names).map (·.1)
  let unknown := fields.filterMap fun (k, _) =>
    match k with
    | .str name => if used.contains name then none else some name
    | _ => none
  if unknown.isEmpty then .valid ()
  else .invalid (unknown.map fun name => ⟨[.field name], .unknownField⟩)

end Fields

namespace Reading

/-- A text, or octets that are one in UTF-8. -/
def stringOf (v : Value) : Except Cause Text :=
  match v with
  | .str t => .ok t
  | .octets bytes => (Text.Utf8.decode bytes).mapError fun _ => .undecodableString
  | _ => .error .noString

def string : Reading Text := fun v => .ofScalar (stringOf v)

/-- A value that may be null. -/
def nullable {α : Type} (reading : Reading α) : Reading (Option α)
  | .null => .valid none
  | v => (reading v).map some

def itemsFrom {α : Type} (reading : Reading α) : Nat → List Value → Checked (List α)
  | _, [] => .valid []
  | n, v :: vs =>
    (((reading v).under (.index n)).and (itemsFrom reading (n + 1) vs)).map fun (a, as) => a :: as

def list {α : Type} (reading : Reading α) : Reading (List α)
  | .list items | .set items => itemsFrom reading 0 items
  | _ => .issue .noList

/-- One of the values of a list, given by its name. -/
def oneOf {α : Type} (all : List α) (name : α → Text) : Reading α := fun v =>
  match (stringOf v).toOption.bind fun t => all.find? (name · = t) with
  | some a => .valid a
  | none => .issue (.notAllowed (all.map name))

/-- A mapping with the fields of a model. -/
def mapping {α : Type} (model : Text) (reading : Fields → Checked α) : Reading α
  | .map fields => reading fields
  | _ => .issue (.noMapping model)

end Reading
end HttpSnippet
