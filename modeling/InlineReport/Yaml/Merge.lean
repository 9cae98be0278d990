import InlineReport.Yaml.Graph

/-!
# Merging mappings

A mapping may name sources whose entries are merged into it: a mapping, or a sequence of
mappings of which the first one wins. The entries of the sources come to stand before the own
ones, and of two entries with equal keys the later one will give the value.

Merging changes the graph for good, since other nodes may mention the mapping too, and before
the entries of a source are taken, its own sources are merged into it. A mapping may be a source
of itself, directly or not; then the entries count that it has left at that moment. Each step
takes the mention of a source out of its mapping and none is ever put in, so that their number
bounds the steps.
-/

namespace InlineReport

namespace Yaml

namespace Graph

/-- Replaces the entries of a mapping. -/
def setEntries (g : Graph) (n : Nat) (entries : List (Nat × Nat)) : Graph :=
  g.modify n ({ · with content := .mapping entries })

/-- Whether an entry mentions sources. -/
def isMerge (g : Graph) (entry : Nat × Nat) : Bool := g.isOfKind .merge entry.1

/-- How many entries of mappings mention sources. -/
def mergeCount (g : Graph) : Nat :=
  g.foldl (fun count node => count + match node.content with
    | .mapping entries => entries.countP g.isMerge
    | _ => 0) 0

/-- Takes the first mention of sources out of a mapping. -/
def takeMerge? (g : Graph) (n : Nat) : Option (Nat × Graph) := do
  let entries ← g.entries? n
  let (_, source) ← entries.find? g.isMerge
  return (source, g.setEntries n (entries.eraseP g.isMerge))

/-- The mappings that a mention of sources means, the first one first. -/
def sources? (g : Graph) (n : Nat) : Option (List Nat) := do
  match (← g[n]?).content with
  | .scalar _ => none
  | .sequence items => some items
  | .mapping _ => some [n]

/-- Takes the key that stands for a whole mapping as a string. -/
def settleKey (g : Graph) (key : Nat) : Graph :=
  if g.isOfKind .whole key then g.modify key ({ · with kind := .scalar .string }) else g

/-- Puts entries from sources before those of a mapping, in which no sources are mentioned any
more. -/
def finish? (g : Graph) (n : Nat) (found : List (Nat × Nat)) : Option Graph := do
  let entries ← g.entries? n
  let g := entries.foldl (fun g (key, _) => g.settleKey key) g
  return if found.isEmpty then g else g.setEntries n (found ++ entries)

/-- The entries of sources after `merge` has merged their own sources into them. -/
def takeEntries? (merge : Graph → Nat → Option Graph) (g : Graph) :
    List Nat → Option (List (List (Nat × Nat)) × Graph)
  | [] => some ([], g)
  | n :: ns => do
    let g ← merge g n
    let entries ← g.entries? n
    let (parts, g) ← takeEntries? merge g ns
    return (entries :: parts, g)

/-- Merges sources into a mapping, given the entries found so far. -/
def mergeWithin? : (fuel : Nat) → Graph → (n : Nat) → (found : List (Nat × Nat)) → Option Graph
  | 0, _, _, _ => none
  | fuel + 1, g, n, found =>
    match g.takeMerge? n with
    | none => g.finish? n found
    | some (source, g) => do
      let (parts, g) ←
        takeEntries? (fun g n => mergeWithin? fuel g n []) g (← g.sources? source)
      mergeWithin? fuel g n (found ++ parts.reverse.flatten)

/-- Merges sources into a mapping. -/
def merge? (g : Graph) (n : Nat) : Option Graph := mergeWithin? (g.mergeCount + 1) g n []

end Graph

end Yaml

end InlineReport
