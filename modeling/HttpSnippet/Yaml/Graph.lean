import HttpSnippet.Yaml.Content

/-!
# Graphs of nodes

A document is a graph of scalars, sequences and mappings with their tags. A collection names its
parts by their places in the graph, so an alias shares a node, and a collection may contain itself.
-/
namespace HttpSnippet.Yaml

/-- The place of a node in its graph. -/
abbrev NodeId := Nat

/-- The places of a key and its value. -/
abbrev NodeEntry := NodeId × NodeId

inductive Node where
  | scalar (tag : Tag) (t : Text)
  | sequence (tag : Tag) (items : List NodeId)
  | mapping (tag : Tag) (entries : List NodeEntry)
deriving DecidableEq, Repr

namespace Node

/-- An empty scalar. -/
def empty : Node := .scalar .null []

def tag : Node → Tag
  | .scalar tag _ | .sequence tag _ | .mapping tag _ => tag

def withTag (tag : Tag) : Node → Node
  | .scalar _ t => .scalar tag t
  | .sequence _ items => .sequence tag items
  | .mapping _ entries => .mapping tag entries

end Node

structure Graph where
  nodes : Array Node := #[]

namespace Graph

def size (g : Graph) : Nat := g.nodes.size

def node (g : Graph) (i : NodeId) : Node := g.nodes[i]?.getD .empty

def add (g : Graph) (n : Node) : Graph := { nodes := g.nodes.push n }

def set (g : Graph) (i : NodeId) (n : Node) : Graph := { nodes := g.nodes.setIfInBounds i n }

def entries (g : Graph) (i : NodeId) : List NodeEntry :=
  match g.node i with
  | .mapping _ entries => entries
  | _ => []

def isMapping (g : Graph) (i : NodeId) : Bool := g.node i matches .mapping _ _

/-! ### Merging

An entry under a merge key stands for the entries of another mapping, or of a list of mappings,
where an earlier one wins over a later one. Merged entries come before those of the mapping itself.
-/

def isMerge (g : Graph) (entry : NodeEntry) : Bool := (g.node entry.1).tag = .merge

/-- The number of merge keys. -/
def merges (g : Graph) : Nat :=
  g.nodes.foldl (fun n node =>
    match node with
    | .mapping _ entries => n + entries.countP g.isMerge
    | _ => n) 0

/-- The source of the first merge among entries, and the entries without it. -/
def firstMerge? (g : Graph) : List NodeEntry → Option (NodeId × List NodeEntry)
  | [] => none
  | entry :: rest =>
    if g.isMerge entry then some (entry.2, rest)
    else (g.firstMerge? rest).map fun (source, rest) => (source, entry :: rest)

/-- The graph in which a bare equals sign is a text where it stands as a key. -/
def settleKeys (g : Graph) (entries : List NodeEntry) : Graph :=
  entries.foldl (fun g (k, _) =>
    if (g.node k).tag = .value then g.set k ((g.node k).withTag .str) else g) g

/-- The entries that a source contributes, after the mappings that it names have been settled. Later
mappings of a list stand first, since what comes last counts. -/
def contribution (settle : NodeId → Graph → ReadM Graph) (source : NodeId) (g : Graph) :
    ReadM (Graph × List NodeEntry) :=
  let join (part : Graph × List NodeEntry) (i : NodeId) : ReadM (Graph × List NodeEntry) :=
    if part.1.isMapping i then (settle i part.1).map fun g => (g, g.entries i ++ part.2)
    else .error .malformed
  match g.node source with
  | .mapping _ _ => join (g, []) source
  | .sequence _ items => items.foldlM join (g, [])
  | .scalar _ _ => .error .malformed

/-- The graph in which a mapping has entries in place of its merges; `merged` has those of the
merges that are already taken. A mapping that is met again on the way contributes what it holds by
then. There is no such graph if something else than mappings is merged in, or if there is no room
for the merges inside each other. Every call takes a merge out of the graph, so their number is a
bound. -/
def settle : (bound room : Nat) → (merged : List NodeEntry) → NodeId → Graph → ReadM Graph
  | 0, _, _, _, _ => .error .malformed
  | bound + 1, room, merged, i, g =>
    match g.node i with
    | .mapping tag entries =>
      match g.firstMerge? entries with
      | none =>
        let g := if merged.isEmpty then g else g.set i (.mapping tag (merged ++ entries))
        .ok (g.settleKeys entries)
      | some (source, rest) => do
        let g := g.set i (.mapping tag rest)
        let inner (i : NodeId) (g : Graph) : ReadM Graph :=
          match room with
          | 0 => .error .tooDeep
          | room + 1 => settle bound room [] i g
        let (g, more) ← contribution inner source g
        settle bound room (merged ++ more) i g
    | _ => .error .malformed

end Graph
end HttpSnippet.Yaml
