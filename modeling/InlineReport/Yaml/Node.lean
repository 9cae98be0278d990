import InlineReport.Yaml.Token

/-!
# The tree of a settings text

Tokens are put together to a tree of scalars, sequences and mappings. A node may carry a
tag and an anchor, and an alias stands for the node with its anchor; both are kept as
they are. What is left out where a node is expected is an empty plain scalar.

A text holds at most one document (`document?`). The parser goes down the tree; each of its
steps but the last takes a token, so that a multiple of their number bounds the steps.
-/

namespace InlineReport

namespace Yaml

/-- What is said about a node in front of it. -/
structure Properties where
  anchor : Option Text := none
  tag : Option Text := none
deriving DecidableEq, Repr

/-- A node of the tree of a text. -/
inductive Node
  | alias (name : Text)
  | scalar (props : Properties) (isPlain : Bool) (text : WideText)
  | sequence (props : Properties) (items : List Node)
  | mapping (props : Properties) (entries : List (Node × Node))

namespace Node

/-- What is left out. -/
def empty : Node := scalar {} true []

/-! ### Tags -/

/-- What the handle of a tag stands for. -/
abbrev Handles := List (Text × Text)

/-- The handles that need no directive. -/
def standardHandles : Handles :=
  [("!".toList, "!".toList), ("!!".toList, "tag:yaml.org,2002:".toList)]

/-- The tag that says no more than that a scalar is taken as a plain one. -/
def isBareTag (tag : Text) : Bool := tag = ['!']

/-- The full name of a tag, if its handle is known. -/
def tagOf? (handles : Handles) (name : TagName) : Option Text :=
  match name.handle with
  | none => some name.rest
  | some handle => (handles.lookup handle).map (· ++ name.rest)

/-- The properties ahead, an anchor and a tag in either order. -/
def properties? (handles : Handles) : List Token → Option (Properties × List Token)
  | .anchor a :: .tag t :: ts | .tag t :: .anchor a :: ts => do
    return ({ anchor := a, tag := ← tagOf? handles t }, ts)
  | .anchor a :: ts => some ({ anchor := a }, ts)
  | .tag t :: ts => do return ({ tag := ← tagOf? handles t }, ts)
  | ts => some ({}, ts)

/-- The properties without a tag that says nothing about the kind of the node. -/
def Properties.plain (p : Properties) : Properties :=
  if p.tag.any isBareTag then { p with tag := none } else p

/-- A scalar; the tag `!` makes it plain. -/
def ofScalar (p : Properties) (isPlain : Bool) (text : WideText) : Node :=
  scalar (Properties.plain p) (isPlain || p.tag.any isBareTag) text

/-! ### Nodes -/

/-- Where a node stands. -/
inductive Place
  /-- Inside brackets, where only brackets hold further nodes. -/
  | flow
  /-- In a block. -/
  | block
  /-- A key or a value in a block, where a sequence needs no further indentation. -/
  | entry
deriving DecidableEq, Repr

mutual

/-- Reads a node. -/
def node? (handles : Handles) : (fuel : Nat) → Place → List Token → Option (Node × List Token)
  | 0, _, _ => none
  | _ + 1, _, .alias name :: ts => some (.alias name, ts)
  | fuel + 1, place, ts => do
    let (p, ts) ← properties? handles ts
    match ts with
    | .scalar isPlain text :: ts => return (ofScalar p isPlain text, ts)
    | .flowSequenceStart :: ts =>
      let (items, ts) ← flowItems? handles fuel ts
      return (sequence (Properties.plain p) items, ts)
    | .flowMappingStart :: ts =>
      let (entries, ts) ← flowEntries? handles fuel ts
      return (mapping (Properties.plain p) entries, ts)
    | t :: rest =>
      if t = .blockSequenceStart ∧ place ≠ .flow then
        let (items, ts) ← blockItems? handles fuel rest
        return (sequence (Properties.plain p) items, ts)
      else if t = .blockMappingStart ∧ place ≠ .flow then
        let (entries, ts) ← blockEntries? handles fuel rest
        return (mapping (Properties.plain p) entries, ts)
      else if t = .blockEntry ∧ place = .entry then
        let (items, ts) ← looseItems? handles fuel ts
        return (sequence (Properties.plain p) items, ts)
      else if p = {} then none
      else return (ofScalar p true [], ts)
    | [] => if p = {} then none else return (ofScalar p true [], [])

/-- Reads a node that is left out where one of the tokens `stops` is ahead. -/
def nodeBefore? (handles : Handles) (stops : List Token) (place : Place) :
    (fuel : Nat) → List Token → Option (Node × List Token)
  | 0, _ => none
  | fuel + 1, ts =>
    if ts.head?.any stops.contains then some (empty, ts) else node? handles fuel place ts

/-- Reads the value of a key if its colon is ahead. -/
def valueBefore? (handles : Handles) (stops : List Token) (place : Place) :
    (fuel : Nat) → List Token → Option (Node × List Token)
  | 0, _ => none
  | fuel + 1, .value :: ts => nodeBefore? handles stops place fuel ts
  | _ + 1, ts => some (empty, ts)

/-- Reads the items of a block sequence. -/
def blockItems? (handles : Handles) : (fuel : Nat) → List Token → Option (List Node × List Token)
  | fuel + 1, .blockEntry :: ts => do
    let (item, ts) ← nodeBefore? handles [.blockEntry, .blockEnd] .block fuel ts
    let (items, ts) ← blockItems? handles fuel ts
    return (item :: items, ts)
  | _ + 1, .blockEnd :: ts => some ([], ts)
  | _, _ => none

/-- Reads the items of a sequence that is not indented further than its key. -/
def looseItems? (handles : Handles) : (fuel : Nat) → List Token → Option (List Node × List Token)
  | 0, _ => none
  | fuel + 1, .blockEntry :: ts => do
    let (item, ts) ← nodeBefore? handles [.blockEntry, .key, .value, .blockEnd] .block fuel ts
    let (items, ts) ← looseItems? handles fuel ts
    return (item :: items, ts)
  | _ + 1, ts => some ([], ts)

/-- Reads the entries of a block mapping. -/
def blockEntries? (handles : Handles) :
    (fuel : Nat) → List Token → Option (List (Node × Node) × List Token)
  | fuel + 1, .key :: ts => do
    let stops := [.key, .value, .blockEnd]
    let (key, ts) ← nodeBefore? handles stops .entry fuel ts
    let (value, ts) ← valueBefore? handles stops .entry fuel ts
    let (entries, ts) ← blockEntries? handles fuel ts
    return ((key, value) :: entries, ts)
  | _ + 1, .blockEnd :: ts => some ([], ts)
  | _, _ => none

/-- Reads the items between square brackets. An item with a colon is a mapping of one
entry. -/
def flowItems? (handles : Handles) : (fuel : Nat) → List Token → Option (List Node × List Token)
  | 0, _ => none
  | _ + 1, .flowSequenceEnd :: ts => some ([], ts)
  | fuel + 1, ts => do
    let (item, ts) ← match ts with
      | .key :: ts => do
        let (key, ts) ← nodeBefore? handles [.value, .flowEntry, .flowSequenceEnd] .flow fuel ts
        let (value, ts) ← valueBefore? handles [.flowEntry, .flowSequenceEnd] .flow fuel ts
        pure (mapping {} [(key, value)], ts)
      | ts => node? handles fuel .flow ts
    match ts with
    | .flowEntry :: ts => do
      let (items, ts) ← flowItems? handles fuel ts
      return (item :: items, ts)
    | .flowSequenceEnd :: ts => return ([item], ts)
    | _ => none

/-- Reads the entries between curly brackets. An entry without a colon is a key with
nothing as its value. -/
def flowEntries? (handles : Handles) :
    (fuel : Nat) → List Token → Option (List (Node × Node) × List Token)
  | 0, _ => none
  | _ + 1, .flowMappingEnd :: ts => some ([], ts)
  | fuel + 1, ts => do
    let (entry, ts) ← match ts with
      | .key :: ts => do
        let (key, ts) ← nodeBefore? handles [.value, .flowEntry, .flowMappingEnd] .flow fuel ts
        let (value, ts) ← valueBefore? handles [.flowEntry, .flowMappingEnd] .flow fuel ts
        pure ((key, value), ts)
      | ts => do
        let (key, ts) ← node? handles fuel .flow ts
        pure ((key, empty), ts)
    match ts with
    | .flowEntry :: ts => do
      let (entries, ts) ← flowEntries? handles fuel ts
      return (entry :: entries, ts)
    | .flowMappingEnd :: ts => return ([entry], ts)
    | _ => none

end

/-! ### Documents -/

/-- What the directives in front of a document say. -/
structure Heading where
  hasVersion : Bool := false
  handles : Handles := []

/-- Takes a directive into account. A second version or a second meaning of a handle is
refused, and so is a version other than the first. -/
def Heading.add? (h : Heading) : Directive → Option Heading
  | .version major => if h.hasVersion ∨ major ≠ 1 then none else some { h with hasVersion := true }
  | .tag handle uriStart =>
    if (h.handles.lookup handle).isSome then none
    else some { h with handles := (handle, uriStart) :: h.handles }
  | .other => some h

/-- Reads the directives ahead. -/
def heading? (h : Heading) : List Token → Option (Heading × List Token)
  | .directive d :: ts => do heading? (← h.add? d) ts
  | ts => some (h, ts)

/-- Whether a token has no place in a document. -/
def isOutside : Token → Bool
  | .directive _ | .documentStart | .documentEnd => true
  | _ => false

/-- The root of the only document of a text: `some none` if there is no document, `none` if
the text is ill-formed or holds several documents. -/
def document? (tokens : List Token) : Option (Option Node) :=
  let fuel := 4 * tokens.length + 4
  match tokens with
  | [] => some none
  | .documentEnd :: _ => none
  | _ => do
    let (heading, ts) ← heading? {} tokens
    let (ts, mayBeEmpty) ← match ts with
      | .documentStart :: ts => pure (ts, true)
      | ts => if ts.length < tokens.length then none else pure (ts, false)
    let (root, ts) ←
      if mayBeEmpty ∧ ts.head?.all isOutside then pure (empty, ts)
      else node? (heading.handles ++ standardHandles) fuel .block ts
    if ts.all (· = .documentEnd) then return some root else none

end Node

/-! ### Depth -/

namespace Node

mutual

/-- The number of nodes on the longest way down. -/
def depth : Node → Nat
  | .alias _ => 1
  | scalar .. => 1
  | sequence _ items => depths items + 1
  | mapping _ entries => entryDepths entries + 1

/-- The greatest depth of items. -/
def depths : List Node → Nat
  | [] => 0
  | item :: items => max (depth item) (depths items)

/-- The greatest depth of the keys and values of entries. -/
def entryDepths : List (Node × Node) → Nat
  | [] => 0
  | (key, value) :: entries => max (max (depth key) (depth value)) (entryDepths entries)

end

end Node

end Yaml

end InlineReport
