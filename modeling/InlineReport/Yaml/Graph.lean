import InlineReport.Yaml.Node
import InlineReport.Yaml.Scalar

/-!
# The graph of a settings text

The tree of a text becomes a graph: its nodes stand in an array, and a collection names the
nodes that it holds by their numbers. An alias is no node of its own but another mention of
the node with its anchor, which may also be a collection that the alias stands in. An anchor
that comes twice and an alias without an anchor before it are refused.

Each node has a **kind**, which its tag names, or else the spelling of a scalar shows. The
kind need not go with what the node holds: a mapping may be tagged as a string.
-/

namespace InlineReport

namespace Yaml

/-- What a node is made into. -/
inductive NodeKind
  | scalar (kind : ScalarKind)
  | list
  /-- A list of pairs. -/
  | pairs
  | table
  | set
  | unknown
deriving DecidableEq, Repr

namespace NodeKind

/-- The kinds by their tags. -/
def tags : List (String × NodeKind) :=
  [("null", .null), ("bool", .bool), ("int", .int), ("float", .fraction), ("timestamp", .instant),
   ("binary", .bytes), ("str", .string), ("merge", .merge), ("value", .whole)].map
    (fun (name, kind) => (name, scalar kind)) ++
  [("seq", list), ("omap", pairs), ("pairs", pairs), ("map", table), ("set", set)]

/-- What the tags of all known kinds begin with. -/
def tagStart : String := "tag:yaml.org,2002:"

/-- The kind that a tag names, or another one if there is no tag. -/
def ofTag (tag : Option Text) (other : NodeKind) : NodeKind :=
  match tag with
  | none => other
  | some tag =>
    ((tags.find? fun (name, _) => (tagStart ++ name).toList == tag).map (·.2)).getD unknown

end NodeKind

/-- What a node holds; the numbers are those of other nodes. -/
inductive Content
  | scalar (text : WideText)
  | sequence (items : List Nat)
  | mapping (entries : List (Nat × Nat))
deriving DecidableEq, Repr

/-- A node of a graph. -/
structure GraphNode where
  kind : NodeKind
  content : Content
deriving DecidableEq, Repr

/-- The nodes of a text, at their numbers. -/
abbrev Graph := Array GraphNode

namespace Graph

/-- Whether a node is of a kind. -/
def isOfKind (g : Graph) (kind : ScalarKind) (n : Nat) : Bool :=
  g[n]?.any (·.kind == .scalar kind)

/-- The entries of a mapping. -/
def entries? (g : Graph) (n : Nat) : Option (List (Nat × Nat)) :=
  match g[n]? with
  | some { content := .mapping entries, .. } => some entries
  | _ => none

/-- The text of a scalar, or of what stands for a whole mapping; mappings that stand for each
other have none. -/
def textWithin? (g : Graph) : (depth : Nat) → (n : Nat) → Option WideText
  | 0, _ => none
  | depth + 1, n => do
    match (← g[n]?).content with
    | .scalar text => some text
    | .sequence _ => none
    | .mapping entries =>
      textWithin? g depth (← entries.find? fun (key, _) => g.isOfKind .whole key).2

/-- The text that a node stands for. -/
def text? (g : Graph) (n : Nat) : Option WideText := g.textWithin? (g.size + 1) n

end Graph

/-! ### From a tree to a graph -/

/-- The nodes met so far, and the numbers of those with an anchor. -/
structure GraphBuilder where
  graph : Graph := #[]
  anchors : List (Text × Nat) := []

namespace GraphBuilder

/-- Adds a node, whose anchor has to be new. -/
def push? (b : GraphBuilder) (anchor : Option Text) (node : GraphNode) :
    Option (Nat × GraphBuilder) :=
  let n := b.graph.size
  let graph := b.graph.push node
  match anchor with
  | none => some (n, { b with graph })
  | some name =>
    if (b.anchors.lookup name).isSome then none
    else some (n, { graph, anchors := (name, n) :: b.anchors })

/-- Says what a node holds. -/
def fill (b : GraphBuilder) (n : Nat) (content : Content) : GraphBuilder :=
  { b with graph := b.graph.modify n ({ · with content }) }

mutual

/-- Adds a tree. A collection is added before what it holds, so that an alias in it may
mention it. -/
def add? (b : GraphBuilder) : Node → Option (Nat × GraphBuilder)
  | .alias name => (b.anchors.lookup name).map (·, b)
  | .scalar p isPlain text =>
    let kind := if isPlain then ScalarKind.ofPlainWide text else .string
    b.push? p.anchor { kind := NodeKind.ofTag p.tag (.scalar kind), content := .scalar text }
  | .sequence p items => do
    let (n, b) ← b.push? p.anchor { kind := NodeKind.ofTag p.tag .list, content := .sequence [] }
    let (items, b) ← addAll? b items
    return (n, b.fill n (.sequence items))
  | .mapping p entries => do
    let (n, b) ← b.push? p.anchor { kind := NodeKind.ofTag p.tag .table, content := .mapping [] }
    let (entries, b) ← addEntries? b entries
    return (n, b.fill n (.mapping entries))

/-- Adds the items of a sequence. -/
def addAll? (b : GraphBuilder) : List Node → Option (List Nat × GraphBuilder)
  | [] => some ([], b)
  | item :: items => do
    let (n, b) ← add? b item
    let (ns, b) ← addAll? b items
    return (n :: ns, b)

/-- Adds the entries of a mapping. -/
def addEntries? (b : GraphBuilder) : List (Node × Node) → Option (List (Nat × Nat) × GraphBuilder)
  | [] => some ([], b)
  | (key, value) :: entries => do
    let (k, b) ← add? b key
    let (v, b) ← add? b value
    let (kvs, b) ← addEntries? b entries
    return ((k, v) :: kvs, b)

end

end GraphBuilder

/-- The graph of a tree, and the number of its root. -/
def Graph.ofNode? (root : Node) : Option (Nat × Graph) :=
  (({} : GraphBuilder).add? root).map fun (n, b) => (n, b.graph)

end Yaml

end InlineReport
