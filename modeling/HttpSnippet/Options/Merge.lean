import HttpSnippet.Options.Basic
import HttpSnippet.Value.Display

/-!
# Merging options with a schema

A caller's options are laid over the defaults of a schema. A value that its entry does not admit
gives way to the default, and ids that the schema does not know are dropped; neither is an error.
-/
namespace HttpSnippet.Options

/-- Whether a schema entry admits a value. A truth value is no integer here. -/
def admits (spec : OptionSpec) (v : Value) : Bool :=
  match spec.kind, v with
  | .boolean, .bool _ => true
  | .positiveInteger, .int n => 0 ≤ n
  | .enum, v => (spec.choices.getD []).any fun choice => v.sameKey (.str choice)
  | _, _ => false

/-- What a caller gave, as far as ids can be looked up in it. -/
inductive Given where
  /-- A mapping of ids to values. -/
  | mapping (entries : List (Value × Value))
  /-- A list: it may name ids and has no values for them. -/
  | names (items : List Value)
  /-- A text: it may hold ids and has no values for them. -/
  | letters (t : Text)

/-- Nothing at all counts as an empty mapping. -/
def Given.ofValue? (v : Value) : Option Given :=
  if v.isTruthy then
    match v with
    | .map entries => some (.mapping entries)
    | .list items => some (.names items)
    | .str t => some (.letters t)
    | _ => none
  else some (.mapping [])

/-- The keys that the schema is compared with. -/
def Given.keys : Given → List Value
  | .mapping entries => entries.map (·.1)
  | .names items => items
  | .letters t => t.map fun c => .str [c]

/-- The value that was given for an id. -/
def Given.value? (given : Given) (id : Text) : Option Value :=
  match given with
  | .mapping entries => Value.find? (.str id) entries
  | .names _ | .letters _ => none

/-- Whether an id is found in what was given. -/
def Given.holds (given : Given) (id : Text) : Bool :=
  match given with
  | .mapping _ => (given.value? id).isSome
  | .names items => items.any (·.sameKey (.str id))
  | .letters t => id.isEmpty || (t.cut? id).isSome

/-- The given ids that the schema does not know, each once. -/
def Given.unknown (given : Given) (specs : List OptionSpec) : List Value :=
  given.keys.filter fun k => !specs.any fun spec => k.sameKey (.str spec.id)

/-- Whether the given ids can be listed and have values: unknown ones are texts, and every id of the
schema that is found has a value. -/
def Given.usable (given : Given) (specs : List OptionSpec) : Bool :=
  (given.unknown specs).all (fun | .str _ => true | _ => false) &&
    specs.all fun spec => !given.holds spec.id || (given.value? spec.id).isSome

/-- The value that an entry contributes. -/
def chosen (given : Given) (spec : OptionSpec) : Value :=
  match given.value? spec.id with
  | some v => if admits spec v then v else spec.default
  | none => spec.default

/-- The name of the field of an option. -/
def fieldName? (id : Text) : Option Text :=
  Reading.optionNames.findSome? fun
    | [key, name] => if key = id then some name else none
    | _ => none

/-- The options' fields, with the values chosen for them; of two entries with one id the later
counts. -/
def chosenFields (given : Given) (specs : List OptionSpec) : Fields :=
  specs.foldl (fun fields spec =>
    match fieldName? spec.id with
    | some name => Value.insertEntry (.str name) (chosen given spec) fields
    | none => fields) []

/-- The options that a caller's value and a schema come to. -/
def merge (v : Value) (specs : List OptionSpec) : Checked Options :=
  match Given.ofValue? v with
  | none => .broken .wrongKind
  | some given =>
    if given.usable specs then Reading.options (.map (chosenFields given specs))
    else .broken .wrongKind

/-- What is said about an option that was not taken over. -/
inductive Notice where
  | replaced (spec : OptionSpec) (v : Value)
  | ignored (ids : List Text)
deriving Repr

/-- The ids in ascending order, each once. -/
def sortedIds (ids : List Value) : List Text :=
  let texts := ids.filterMap fun | .str t => some t | _ => none
  texts.eraseDups.mergeSort fun a b => !(b < a)

def notices (v : Value) (specs : List OptionSpec) : List Notice :=
  match Given.ofValue? v with
  | none => []
  | some given =>
    let replaced := specs.filterMap fun spec =>
      match given.value? spec.id with
      | some v => if admits spec v then none else some (.replaced spec v)
      | none => none
    match sortedIds (given.unknown specs) with
    | [] => replaced
    | ids => replaced ++ [.ignored ids]

def Notice.message : Notice → Text
  | .replaced spec v =>
    "Option " ++ spec.id ++ "=" ++ v.display ++ " is not a valid " ++ spec.kind.name ++
      ", using default " ++ spec.default.display
  | .ignored ids => "Ignoring unknown options: " ++ Text.join ", " ids

end HttpSnippet.Options
