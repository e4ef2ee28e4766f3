import HttpSnippet.Yaml.Graph
import HttpSnippet.Yaml.Token

/-!
# Documents

The tokens of a text describe one document, a graph of nodes. An alias stands for the node of its
anchor, which has to come before it; that node may be one that the alias lies in.
-/
namespace HttpSnippet.Yaml

/-- What the reading of nodes carries along. -/
structure Parse where
  tokens : List Token
  /-- How many more collections can be entered. -/
  room : Nat
  graph : Graph := {}
  /-- The anchors so far, with their nodes. -/
  anchors : List (Text × NodeId) := []
  /-- The starts of tags that handles stand for. -/
  handles : List (Text × Text) := []

/-- Why the nodes cannot be put together. -/
inductive Stop where
  | malformed
  /-- There is no room for a collection inside those around it. -/
  | tooDeep
  /-- One more token is needed than the text has. -/
  | noToken
deriving DecidableEq, Repr

abbrev ParseM := StateT Parse (Except Stop)

namespace Parse

def fail {α : Type} : ParseM α := throw .malformed

def peek : ParseM Token := do
  match (← get).tokens with
  | t :: _ => return t
  | [] => throw .noToken

def drop : ParseM Unit := modify fun p => { p with tokens := p.tokens.drop 1 }

/-- Takes a token that has to come next. -/
def expect (t : Token) : ParseM Unit := do
  if (← peek) = t then drop else fail

/-- Goes inside a collection and comes back, if there is room. -/
def inside {α : Type} (parts : ParseM α) : ParseM α := do
  match (← get).room with
  | 0 => throw .tooDeep
  | room + 1 =>
    modify fun p => { p with room }
    let a ← parts
    modify fun p => { p with room := room + 1 }
    return a

/-- Adds a node to the graph. -/
def add (n : Node) : ParseM NodeId := do
  let i := (← get).graph.size
  modify fun p => { p with graph := p.graph.add n }
  return i

/-- Adds an empty scalar. -/
def empty : ParseM NodeId := add .empty

/-- The tags known by name behind the common start of tags. -/
def knownTags : List (Text × Tag) := [
  ("null", .null), ("bool", .bool), ("int", .int), ("float", .float), ("timestamp", .timestamp),
  ("str", .str), ("binary", .binary), ("seq", .seq), ("map", .map), ("set", .set),
  ("omap", .pairs), ("pairs", .pairs), ("merge", .merge), ("value", .value)]

def commonStart : Text := "tag:yaml.org,2002:"

def tagOf (t : Text) : Tag :=
  ((knownTags.find? fun (name, _) => commonStart ++ name = t).map (·.2)).getD .other

/-- The whole text of a tag. -/
def tagText (t : TagText) : ParseM Text := do
  match t.handle with
  | none => return t.suffix
  | some handle =>
    let some (_, start) := (← get).handles.find? (·.1 = handle) | fail
    return start ++ t.suffix

/-- An anchor and a tag before a node, in either order. -/
def properties : ParseM (Option Text × Option Text) := do
  match ← peek with
  | .anchor name =>
    drop
    match ← peek with
    | .tag t => drop; return (some name, some (← tagText t))
    | _ => return (some name, none)
  | .tag t =>
    drop
    match ← peek with
    | .anchor name => drop; return (some name, some (← tagText t))
    | _ => return (none, some (← tagText t))
  | _ => return (none, none)

/-- The tag of a collection: the plain exclamation mark asks for the usual one. -/
def collectionTag (usual : Tag) (tag : Option Text) : Tag :=
  match tag with
  | none => usual
  | some t => if t = ['!'] then usual else tagOf t

def scalarNode (tag : Option Text) (t : Text) (plain : Bool) : Node :=
  match tag with
  | none => .scalar (if plain then Plain.tag t else .str) t
  | some name => .scalar (if name = ['!'] then Plain.tag t else tagOf name) t

/-- The place for a node with an anchor. Two nodes with one anchor are refused. -/
def reserve (anchor : Option Text) : ParseM NodeId := do
  let i ← empty
  if let some name := anchor then
    if (← get).anchors.any (·.1 = name) then fail
    modify fun p => { p with anchors := (name, i) :: p.anchors }
  return i

/-- Whether a node is left out before a token. -/
def endsFlowItem : Token → Bool
  | .value | .flowEntry | .flowSequenceEnd | .flowMappingEnd => true
  | _ => false

def endsBlockItem : Token → Bool
  | .key | .value | .blockEnd => true
  | _ => false

mutual
/-- A node. Inside a block it may be a block itself, and a sequence may have no indentation of its
own where `indentless` allows it. -/
def node (block indentless : Bool) : (bound : Nat) → ParseM NodeId
  | 0 => fail
  | bound + 1 => do
    if let .alias name := ← peek then
      drop
      let some (_, i) := (← get).anchors.find? (·.1 = name) | fail
      return i
    let (anchor, tag) ← properties
    -- a node begins with the token behind its properties, and only then its anchor counts
    let _ ← peek
    let i ← reserve anchor
    let n ← content block indentless (anchor.isSome || tag.isSome) tag bound
    modify fun p => { p with graph := p.graph.set i n }
    return i

/-- The content of a node behind its properties. -/
def content (block indentless hasProperties : Bool) (tag : Option Text) :
    (bound : Nat) → ParseM Node
  | 0 => fail
  | bound + 1 => do
    let seq (items : List NodeId) : Node := .sequence (collectionTag .seq tag) items
    let map (entries : List NodeEntry) : Node := .mapping (collectionTag .map tag) entries
    match ← peek with
    | .scalar t plain => drop; return scalarNode tag t plain
    | .flowSequenceStart => drop; return seq (← inside (flowItems true bound))
    | .flowMappingStart => drop; return map (← inside (flowMembers true bound))
    | .blockEntry =>
      if indentless then return seq (← inside (bareItems bound)) else emptyContent
    | .blockSequenceStart =>
      if block then drop; return seq (← inside (blockItems bound)) else emptyContent
    | .blockMappingStart =>
      if block then drop; return map (← inside (blockMembers bound)) else emptyContent
    | _ => emptyContent
where
  emptyContent : ParseM Node :=
    if hasProperties then return scalarNode tag [] true else fail

/-- The items of a block sequence up to its end. -/
def blockItems : (bound : Nat) → ParseM (List NodeId)
  | 0 => fail
  | bound + 1 => do
    match ← peek with
    | .blockEntry =>
      drop
      let item ← match ← peek with
        | .blockEntry | .blockEnd => empty
        | _ => node true false bound
      return item :: (← blockItems bound)
    | _ => expect .blockEnd; return []

/-- The items of a sequence without an indentation of its own. -/
def bareItems : (bound : Nat) → ParseM (List NodeId)
  | 0 => fail
  | bound + 1 => do
    match ← peek with
    | .blockEntry =>
      drop
      let item ← match ← peek with
        | .blockEntry | .key | .value | .blockEnd => empty
        | _ => node true false bound
      return item :: (← bareItems bound)
    | _ => return []

/-- The members of a block mapping up to its end. Key and value may each be left out. -/
def blockMembers : (bound : Nat) → ParseM (List NodeEntry)
  | 0 => fail
  | bound + 1 => do
    match ← peek with
    | .key =>
      drop
      let k ← if endsBlockItem (← peek) then empty else node true true bound
      let v ← match ← peek with
        | .value =>
          drop
          if endsBlockItem (← peek) then empty else node true true bound
        | _ => empty
      return (k, v) :: (← blockMembers bound)
    | _ => expect .blockEnd; return []

/-- The value behind a key in a flow collection. -/
def flowValue : (bound : Nat) → ParseM NodeId
  | 0 => fail
  | bound + 1 => do
    match ← peek with
    | .value => drop; if endsFlowValue (← peek) then empty else node false false bound
    | _ => empty
where
  endsFlowValue : Token → Bool
    | .flowEntry | .flowSequenceEnd | .flowMappingEnd => true
    | _ => false

/-- The only member of a mapping that a key makes of an item in a flow sequence. -/
def flowPair : (bound : Nat) → ParseM NodeEntry
  | 0 => fail
  | bound + 1 => do
    let k ← if endsFlowItem (← peek) then empty else node false false bound
    let v ← flowValue bound
    return (k, v)

/-- The items of a flow sequence up to its end. A key makes an item a mapping of its own. -/
def flowItems (first : Bool) : (bound : Nat) → ParseM (List NodeId)
  | 0 => fail
  | bound + 1 => do
    if (← peek) = .flowSequenceEnd then
      drop
      return []
    unless first do expect .flowEntry
    match ← peek with
    | .key =>
      drop
      let item ← add (.mapping .map [← inside (flowPair bound)])
      return item :: (← flowItems false bound)
    | .flowSequenceEnd => drop; return []
    | _ => do
      let item ← node false false bound
      return item :: (← flowItems false bound)

/-- The members of a flow mapping up to its end. A node without a key token has no value. -/
def flowMembers (first : Bool) : (bound : Nat) → ParseM (List NodeEntry)
  | 0 => fail
  | bound + 1 => do
    if (← peek) = .flowMappingEnd then
      drop
      return []
    unless first do expect .flowEntry
    match ← peek with
    | .key =>
      drop
      let member ← flowPair bound
      return member :: (← flowMembers false bound)
    | .flowMappingEnd => drop; return []
    | _ => do
      let k ← node false false bound
      let v ← empty
      return (k, v) :: (← flowMembers false bound)
end

/-- The handles that are known without a directive. -/
def defaultHandles : List (Text × Text) := [("!", "!"), ("!!", commonStart)]

/-- The directives before a document, up to its marker. -/
def directives (version : Bool) (handles : List (Text × Text)) :
    (bound : Nat) → ParseM (List (Text × Text))
  | 0 => fail
  | bound + 1 => do
    match ← peek with
    | .versionDirective major =>
      if version || major ≠ 1 then fail
      drop
      directives true handles bound
    | .tagDirective handle start =>
      if handles.any (·.1 = handle) then fail
      drop
      directives version (handles ++ [(handle, start)]) bound
    | .otherDirective => drop; directives version handles bound
    | _ => return handles

/-- The content of a document behind its marker. -/
def documentContent (bound : Nat) : ParseM NodeId := do
  match ← peek with
  | .versionDirective _ | .tagDirective _ _ | .otherDirective | .documentStart | .documentEnd
  | .streamEnd => empty
  | _ => node true false bound

/-- The root of the only document of a text, if there is any. -/
def document (bound : Nat) : ParseM (Option NodeId) := do
  let explicit := match ← peek with
    | .versionDirective _ | .tagDirective _ _ | .otherDirective | .documentStart => true
    | _ => false
  if (← peek) = .streamEnd then return none
  let n ←
    if explicit then do
      let handles ← directives false [] bound
      expect .documentStart
      modify fun p => { p with handles := handles ++ defaultHandles }
      documentContent bound
    else do
      modify fun p => { p with handles := defaultHandles }
      node true false bound
  -- nothing but end markers may follow
  modify fun p => { p with tokens := p.tokens.dropWhile (· = .documentEnd) }
  if (← peek) = .streamEnd then return some n
  else
    let _ ← directives false [] bound
    fail

end Parse

/-- The graph of the document that a text holds, and its root; an empty text has none. A text that
is refused is so only where one of its tokens is missed. -/
def document [Host] (t : Text) : ScanM (Option (Graph × NodeId)) :=
  let { told, refusal } := tokens t
  let start : Parse := { tokens := told, room := Host.room .nodes }
  -- every three nested calls take a token
  match (Parse.document (3 * (told.length + 2))).run start with
  | .ok (root, p) => .ok (root.map (p.graph, ·))
  | .error .malformed => .error .malformed
  | .error .tooDeep => .error .tooDeep
  | .error .noToken => .error (refusal.getD .malformed)

end HttpSnippet.Yaml
