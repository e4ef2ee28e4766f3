import HttpSnippet.Yaml.Content
import HttpSnippet.Yaml.Document

/-!
# Reading YAML

The graph of a document becomes a loose value. It is surveyed level by level, so an error nearer to
the root comes first: scalars are read, keys are checked, and mappings take in what they merge. Then
the values are put together. A collection inside itself is given again as often as is asked for.
-/
namespace HttpSnippet.Yaml

/-- How far a graph has been surveyed. -/
structure Survey where
  graph : Graph
  /-- A bound for the merges of one mapping. -/
  merges : Nat
  /-- The values of the scalars that have been met. -/
  scalars : Array (Option Value)
  met : Array Bool
  /-- The collections that have been met and not entered, the last one first. -/
  pending : List NodeId := []

abbrev SurveyM := StateT Survey ReadM

namespace Survey

/-- The text of a scalar, or of what a mapping has under a bare equals sign. -/
def textOf (g : Graph) : (room : Nat) → NodeId → ReadM Text
  | 0, _ => .error .tooDeep
  | room + 1, i =>
    match g.node i with
    | .scalar _ t => .ok t
    | .sequence _ _ => .error .malformed
    | .mapping _ entries =>
      match entries.find? fun (k, _) => (g.node k).tag = .value with
      | some (_, v) => textOf g room v
      | none => .error .malformed

variable [Host]

/-- The value of a node with the tag of a scalar. -/
def scalarAt (g : Graph) (i : NodeId) : ReadM Value := do
  let t ← textOf g (Host.room .texts + 1) i
  match g.node i with
  | .mapping .timestamp _ => throw .noDateText
  | n => scalarValue n.tag t

/-- Reads a scalar, or puts a collection off. A node that has been met before stays as it is. -/
def meet (i : NodeId) : SurveyM Unit := do
  if (← get).met[i]?.getD true then return
  modify fun s => { s with met := s.met.setIfInBounds i true }
  if ((← get).graph.node i).tag.isCollection then
    modify fun s => { s with pending := i :: s.pending }
  else
    let v ← scalarAt (← get).graph i
    modify fun s => { s with scalars := s.scalars.setIfInBounds i (some v) }

/-- Meets a key, which has to be a scalar, and its value. -/
def meetEntry (entry : NodeEntry) : SurveyM Unit := do
  meet entry.1
  unless ((← get).scalars[entry.1]?.bind id).isSome do throw .malformed
  meet entry.2

/-- Puts the merged entries of a mapping in place. -/
def settle (i : NodeId) : SurveyM Unit := do
  let s ← get
  let graph ← s.graph.settle (s.merges + 1) (Host.room .merges) [] i
  set { s with graph }

/-- Meets the parts of a collection, which has to be one of its tag. -/
def enter (i : NodeId) : SurveyM Unit := do
  match (← get).graph.node i with
  | .sequence .seq items => items.forM meet
  | .sequence .pairs items =>
    items.forM fun item => do
      match (← get).graph.node item with
      | .mapping _ [(k, v)] => meet k; meet v
      | _ => throw .malformed
  | .mapping .map _ | .mapping .set _ =>
    settle i
    ((← get).graph.entries i).forM meetEntry
  | _ => throw .malformed

/-- Enters the collections of one level after another. Each level has nodes that were not met
before, so the size of the graph is a bound. -/
def enterAll : (bound : Nat) → SurveyM Unit
  | 0 => return
  | bound + 1 => do
    let level := (← get).pending.reverse
    modify fun s => { s with pending := [] }
    level.forM enter
    enterAll bound

/-- The survey of all nodes that belong to a document. -/
def of (g : Graph) (root : NodeId) : ReadM Survey := do
  let start : Survey :=
    { graph := g
      merges := g.merges
      scalars := Array.replicate g.size none
      met := Array.replicate g.size false }
  let ((), s) ← (do meet root; enterAll g.size).run start
  return s

end Survey

/-! ### Putting values together -/

/-- How far a node is on the way to its value. -/
inductive Stage where
  | ahead
  | underWay
  | done (v : Value)

/-- A key with its place in the graph. -/
abbrev PlacedKey := NodeId × Value

/-- Entries of which a later one replaces an earlier one with its key. Keys that share a node are
the same, even where their value is no number and so equals nothing. -/
def effective {α : Type} (entries : List (PlacedKey × α)) : List (Value × α) :=
  let same (a b : PlacedKey) : Bool := a.1 = b.1 || a.2.sameKey b.2
  let kept := entries.foldl (fun fields (k, v) => Value.insertBy same k v fields) []
  kept.map fun (k, v) => (k.2, v)

namespace Survey

/-- The value of a node, put together once. A node inside itself has the value that `again` gives.
Every nested call starts a node, so the size of the graph is a bound. -/
def build (g : Graph) (again : NodeId → Value) : (bound : Nat) → NodeId →
    StateM (Array Stage) Value
  | 0, i => return again i
  | bound + 1, i => do
    let keyed (entries : List NodeEntry) : StateM (Array Stage) (List (PlacedKey × NodeId)) :=
      entries.mapM fun (k, v) => do return ((k, ← build g again bound k), v)
    let valued (entries : List (Value × NodeId)) : StateM (Array Stage) (List (Value × Value)) :=
      entries.mapM fun (k, v) => do return (k, ← build g again bound v)
    match (← get)[i]?.getD .underWay with
    | .done v => return v
    | .underWay => return again i
    | .ahead =>
      modify (·.setIfInBounds i .underWay)
      let v ← match g.node i with
        | .scalar _ t => pure (.str t)
        | .sequence .pairs items => do
          let pairs ← (items.flatMap g.entries).mapM fun (a, b) => do
            return .pair (← build g again bound a) (← build g again bound b)
          pure (.list pairs)
        | .sequence _ items => do pure (.list (← items.mapM (build g again bound)))
        | .mapping .set entries => do pure (.set ((effective (← keyed entries)).map (·.1)))
        | .mapping _ entries => do pure (.map (← valued (effective (← keyed entries))))
      modify (·.setIfInBounds i (.done v))
      return v

/-- What a scalar has been read as; collections are still ahead. -/
def stages (s : Survey) : Array Stage :=
  s.scalars.map fun
    | some v => .done v
    | none => .ahead

/-- The values of all nodes below the root, and of the root, where a collection may stand inside
itself `turns` times. -/
def values (s : Survey) (root : NodeId) (turns : Nat) : Value × Array Stage :=
  let leaf (i : NodeId) : Value := .again (s.graph.isMapping i)
  let pass (again : NodeId → Value) : Value × Array Stage :=
    (build s.graph again (s.graph.size + 1) root).run s.stages
  turns.repeat (fun before => pass fun i =>
    match before.2[i]?.getD .ahead with
    | .done v => v
    | _ => leaf i) (pass leaf)

/-- The value of a node, put together by itself. -/
def alone (s : Survey) (i : NodeId) : Value :=
  match s.scalars[i]?.bind id with
  | some v => v
  | none => (s.values i 0).1

end Survey

variable [Host]

/-- The survey of the document in a text, with its root; there is none in an empty text. -/
def survey? (t : Text) : ReadM (Option (Survey × NodeId)) :=
  match document t with
  | .error .malformed => .error .malformed
  | .error (.noCharacter code) => .error (.noCharacter code)
  | .error .tooDeep => .error .tooDeep
  | .ok none => .ok none
  | .ok (some (g, root)) => do return some (← Survey.of g root, root)

/-- Reads a text that holds one document; an empty one is null. -/
def read (turns : Nat) (t : Text) : ReadM Value := do
  let some (s, root) ← survey? t | return .null
  return (s.values root turns).1

/-- Reads a text that holds a mapping whose parts are looked at one by one. Each part is put
together by itself, so a part that contains the mapping has it whole. -/
def readParts (t : Text) : ReadM Value := do
  let some (s, root) ← survey? t | return .null
  match s.graph.node root with
  | .mapping .map entries =>
    return .map (effective (entries.map fun (k, v) => ((k, s.alone k), s.alone v)))
  | _ => return s.alone root

end HttpSnippet.Yaml
