import InlineReport.Yaml.Layout
import InlineReport.Yaml.Merge

/-!
# The value of a settings text

The nodes of a graph are made into values. A scalar is made when it is first mentioned; a
collection gets an empty container then, and the container waits to be filled. Waiting
containers are filled one after the other, in the order in which they were mentioned, and
each node is made only once. So a container may well hold itself.

Sources are merged into a mapping when its table or set is filled. The key of a table is no
container, and each item of a list of pairs is a mapping that has one entry at that time.

Two things are left open: how deeply collections may be nested, and in which order the items of a
set come.
-/

namespace InlineReport

namespace Yaml

/-! ### Tables -/

/-- Adds an entry to others. If the key is there already, it stays in its place and gets
the new value. -/
def putEntry (key value : Value) : List (Value × Value) → List (Value × Value)
  | [] => [(key, value)]
  | (k, v) :: entries =>
    if k.sameKey key then (k, value) :: entries else (k, v) :: putEntry key value entries

/-- The entries of a table in which later entries win. -/
def tableOf (entries : List (Value × Value)) : List (Value × Value) :=
  entries.foldl (fun t (key, value) => putEntry key value t) []

/-! ### Making values -/

/-- The values made so far. -/
structure Loading where
  graph : Graph
  /-- The values of the nodes that have been mentioned. -/
  values : List (Nat × Value) := []
  store : Store := #[]
  /-- The nodes whose containers wait to be filled, and the numbers of these. -/
  waiting : List (Nat × Nat) := []

namespace Loading

/-- Gives a node its value. -/
def give (l : Loading) (n : Nat) (v : Value) : Value × Loading :=
  (v, { l with values := (n, v) :: l.values })

/-- Gives a node an empty container, which waits to be filled. -/
def «open» (l : Loading) (n : Nat) (c : Container) : Value × Loading :=
  let number := l.store.size
  { l with store := l.store.push c, waiting := l.waiting ++ [(n, number)] }.give n
    (.container number)

/-- The value of a node that is mentioned. An instant cannot be told by a mapping. -/
def valueOf? (l : Loading) (n : Nat) : Option (Value × Loading) :=
  match l.values.lookup n with
  | some v => some (v, l)
  | none => do
    match (← l.graph[n]?).kind with
    | .scalar kind =>
      guard (kind ≠ .instant ∨ (l.graph.entries? n).isNone)
      return l.give n (← kind.value? n (← l.graph.text? n))
    | .list | .pairs => some (l.open n (.list []))
    | .table => some (l.open n (.table []))
    | .set => some (l.open n (.set []))
    | .unknown => none

/-- The values of nodes. -/
def valuesOf? (l : Loading) : List Nat → Option (List Value × Loading)
  | [] => some ([], l)
  | n :: ns => do
    let (v, l) ← l.valueOf? n
    let (vs, l) ← valuesOf? l ns
    return (v :: vs, l)

/-- The values of entries, whose keys have to pass a test. -/
def entriesOf? (test : Value → Bool) (l : Loading) :
    List (Nat × Nat) → Option (List (Value × Value) × Loading)
  | [] => some ([], l)
  | (key, value) :: entries => do
    let (key, l) ← l.valueOf? key
    guard (test key)
    let (value, l) ← l.valueOf? value
    let (entries, l) ← entriesOf? test l entries
    return ((key, value) :: entries, l)

/-- The only entries of mappings. -/
def soleEntries? (l : Loading) (ns : List Nat) : Option (List (Nat × Nat)) :=
  ns.mapM fun n =>
    match l.graph.entries? n with
    | some [entry] => some entry
    | _ => none

/-- Adds pairs to the store. -/
def pushPairs (l : Loading) : List (Value × Value) → List Value × Loading
  | [] => ([], l)
  | (first, second) :: more =>
    let number := l.store.size
    let (vs, l) := pushPairs { l with store := l.store.push (.pair first second) } more
    (.container number :: vs, l)

/-- Fills the container of a number. -/
def put (l : Loading) (number : Nat) (c : Container) : Loading :=
  { l with store := l.store.modify number fun _ => c }

/-- The entries of a mapping with its sources merged into it, as those of a table. -/
def tableEntries? (l : Loading) (n : Nat) : Option (List (Value × Value) × Loading) := do
  let graph ← l.graph.merge? n
  let (entries, l) ← entriesOf? Value.isKey { l with graph } (← graph.entries? n)
  return (tableOf entries, l)

/-- Fills the container of a node. -/
def fill? (arrange : List Value → List Value) (l : Loading) (n number : Nat) : Option Loading := do
  let node ← l.graph[n]?
  match node.kind, node.content with
  | .list, .sequence items =>
    let (vs, l) ← l.valuesOf? items
    return l.put number (.list vs)
  | .pairs, .sequence items =>
    let (entries, l) ← entriesOf? (fun _ => true) l (← l.soleEntries? items)
    let (vs, l) := l.pushPairs entries
    return l.put number (.list vs)
  | .table, .mapping _ =>
    let (entries, l) ← l.tableEntries? n
    return l.put number (.table entries)
  | .set, .mapping _ =>
    let (entries, l) ← l.tableEntries? n
    return l.put number (.set (arrange (entries.map (·.1))))
  | _, _ => none

/-- Fills the waiting containers; there are no more of them than nodes. -/
def run? (arrange : List Value → List Value) : (fuel : Nat) → Loading → Option Loading
  | 0, _ => none
  | fuel + 1, l =>
    match l.waiting with
    | [] => some l
    | (n, number) :: waiting => do run? arrange fuel (← { l with waiting }.fill? arrange n number)

end Loading

/-! ### Texts -/

/-- The value of a text and the containers that it refers to, if its collections are not nested
too deeply; null if the text holds no document, and `none` if it is ill-formed. -/
def load? (deepest : Nat) (arrange : List Value → List Value) (s : Text) :
    Option (Value × Store) := do
  match ← Node.document? (← tokens? s) with
  | none => return (.null, #[])
  | some root =>
    guard (root.depth ≤ deepest)
    let (n, graph) ← Graph.ofNode? root
    let (v, l) ← ({ graph } : Loading).valueOf? n
    return (v, (← l.run? arrange (graph.size + 1)).store)

end Yaml

end InlineReport
