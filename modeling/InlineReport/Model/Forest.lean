import InlineReport.Model.Basic

/-!
# The forest of inline copies

Placing copies into texts makes a graph on the versions. It should be a forest: each
copy stands in one place, a compiled version stands nowhere, and no copy is placed below
itself. `Model.forestFaults` lists what is wrong with it, and `Model.descendants` walks
over the copies below a version with a stack of those still to be met.
-/

namespace InlineReport

/-- A way in which placements fail to be a forest. -/
inductive ForestFault
  | shared (child : Int) (first second : Nat)
  | compiled (child : Int) (parent : Nat)
  | cycle (child : Int)
deriving DecidableEq, Repr

/-- The text of a fault. -/
def ForestFault.message : ForestFault → String
  | shared child first second => s!"version {child} inlined into both {first} and {second}"
  | compiled child parent => s!"top-level version {child} listed as inline child of {parent}"
  | cycle child => s!"inline cycle through version {child}"

namespace Model

/-- The first parent of each child that has been met, and the faults that were found. -/
structure ForestWalk where
  parents : Registry Int Nat := .empty
  faults : List ForestFault := []

/-- Meets the edge from `parent` to `child`. Only the first edge to a child counts; a
further one is a fault. -/
def meetEdge (m : Model) (walk : ForestWalk) (edge : Nat × Int) : Except Failure ForestWalk :=
  let (parent, child) := edge
  match walk.parents.get? child with
  | some first => .ok { walk with faults := walk.faults ++ [.shared child first parent] }
  | none => do
    let v ← m.version child
    return {
      parents := walk.parents.insert child parent
      faults := walk.faults ++ if v.isInline then [] else [.compiled child parent] }

/-- The edges of the graph, from parent to child. -/
def edges (m : Model) : List (Nat × Int) :=
  m.versions.toList.flatMap fun v => v.inlines.map (v.handle, ·)

/-- Whether the way up from a version takes at least `steps` steps. -/
def climbs (parents : Registry Int Nat) : (steps : Nat) → (version : Int) → Bool
  | 0, _ => true
  | steps + 1, v =>
    match parents.get? v with
    | some parent => climbs parents steps parent
    | none => false

/-- What is wrong with the graph as a forest. A way up that has more steps than there
are children meets some child twice. -/
def forestFaults (m : Model) : Except Failure (List ForestFault) := do
  let walk ← m.edges.foldlM m.meetEdge {}
  let cycles := walk.parents.keys.filter (climbs walk.parents (walk.parents.size + 1))
  return walk.faults ++ cycles.map .cycle

/-- How deep copies can be nested in a forest: no deeper than there are versions. -/
def depthBound (m : Model) : Nat := m.versions.size + 1

/-- The walk over the copies that the numbers on a stack refer to, each before the ones
below it, behind the versions that have been met, the last one first. Each version that
is met is a step. -/
def walkDown (m : Model) : (steps : Nat) → (met : List Version) → (stack : List Int) →
    Except Failure (List Version)
  | _, met, [] => .ok met.reverse
  | 0, _, _ :: _ => .error Overrun.nesting
  | steps + 1, met, child :: stack => do
    let v ← m.version child
    walkDown m steps (v :: met) (v.inlines ++ stack)

/-- More steps than a walk takes that comes to an end: no version has more copies in it
than there are edges, and a way down that does not go round is no longer than there are
versions. -/
def stepBound (m : Model) : Nat := Nat.pow (m.edges.length + 1) m.depthBound

/-- The versions below a version, each before the ones below it. -/
def descendants (m : Model) (handle : Int) : Except Failure (List Version) := do
  let v ← m.version handle
  m.walkDown m.stepBound [] v.inlines

end Model

end InlineReport
