import InlineReport.Model.Forest
import InlineReport.Model.Lookup
import InlineReport.Model.Register
import InlineReport.Trace.Ir
import InlineReport.Trace.RefusalLog
import InlineReport.Trace.Source

/-!
# From a trace to a model

The three streams are applied one after the other: source blocks introduce files,
functions, versions and copies; IR blocks add the operations left in the code; refusals
say why a function was not inlined.

A block that refers to something unknown stops the work. What earlier blocks did stays
done, and so does the part of the block before the fault, so each step gives a
`Progress`: the model as it is, and the failure that stopped the work, if any.
-/

namespace InlineReport

/-- A model, and the failure that has stopped the work on it. -/
structure Progress where
  model : Model
  failure : Option Failure := none

namespace Progress

/-- Goes on with a step unless the work has stopped. -/
def andThen (p : Progress) (step : Model → Progress) : Progress :=
  match p.failure with
  | none => step p.model
  | some _ => p

/-- Takes a step for each item of a list, until one fails. -/
def forAll {α : Type} (step : Model → α → Progress) (m : Model) (items : List α) : Progress :=
  items.foldl (fun (p : Progress) item => p.andThen (step · item)) { model := m }

/-- The model, if the work has not stopped. -/
def result (p : Progress) : Except Failure Model :=
  match p.failure with
  | none => .ok p.model
  | some e => .error e

variable {α : Type}

theorem foldl_of_failure (step : Model → α → Progress) (m : Model) (e : Failure) (items : List α) :
    items.foldl (fun (p : Progress) item => p.andThen (step · item)) ⟨m, some e⟩ = ⟨m, some e⟩ := by
  induction items with
  | nil => rfl
  | cons item items ih => exact ih

@[simp]
theorem forAll_nil (step : Model → α → Progress) (m : Model) : forAll step m [] = { model := m } :=
  rfl

theorem forAll_cons (step : Model → α → Progress) (m : Model) (item : α) (items : List α) :
    forAll step m (item :: items) =
      (step m item).andThen fun m => forAll step m items := by
  unfold forAll
  rw [List.foldl_cons]
  cases h : step m item with
  | mk model failure =>
    cases failure with
    | none => simp [h, andThen]
    | some e => simpa [h, andThen] using foldl_of_failure step model e items

end Progress

namespace Model

/-- The failure of a lookup, with what it was made for. -/
def unresolved (context : String) (failure : LookupFailure) : Failure :=
  .trace (.unresolved failure context)

/-! ### Source blocks -/

/-- What a block of an inline copy is called in an error. -/
def inlineContext (b : SourceBlock) : String :=
  s!"inline source {b.file}:{b.name} id\x7b{b.compileId},{b.secondId}\x7d"

/-- Places the copy `child` of `owner` where a block says. -/
def placeCopy (m : Model) (context : String) (owner child : Nat) (place : Placement) : Progress :=
  match m.version owner with
  | .error e => ⟨m, some e⟩
  | .ok owner =>
    match m.copyOf owner place.parentId with
    | .error e => ⟨m, some (unresolved context e)⟩
    | .ok parent =>
      if parent.handle = child then
        ⟨m, some (.trace (.inlineCycle s!"{context} is placed inside itself"))⟩
      else
        { model :=
            (m.modifyVersion child fun v => { v with offset := place.offset }).modifyVersion
              parent.handle fun v => { v with inlines := v.inlines ++ [(child : Int)] } }

/-- Applies the block of an inline copy. Its deoptimisations are those of the code that
runs, which is the version that owns the copy. -/
def applyInline (m : Model) (b : SourceBlock) : Progress :=
  let context := inlineContext b
  match m.fileVersion b.file b.compileId with
  | .error e => ⟨m, some (unresolved context e)⟩
  | .ok owner =>
    match m.registerCopy owner b.name b.secondId b.code with
    | .error e => ⟨m, some e⟩
    | .ok grown =>
      let grown := grown.modifyVersion owner.handle fun v =>
        { v with deopts := v.deopts ++ b.deopts }
      match b.placement with
      | none => { model := grown }
      | some place => grown.placeCopy context owner.handle m.nextHandle place

/-- Applies the block of a compiled version. -/
def applyCompiled (m : Model) (b : SourceBlock) : Model :=
  let grown := ((m.registerFile b.file).registerFunction b.file b.name).registerVersion
    b.file b.name b.compileId b.code
  grown.modifyVersion m.nextHandle fun v => { v with deopts := v.deopts ++ b.deopts }

/-- Applies a source block. -/
def applySource (m : Model) (b : SourceBlock) : Progress :=
  if b.isInline then m.applyInline b else { model := m.applyCompiled b }

/-- Whether one of the given versions has been deoptimised. -/
def anyDeopted (m : Model) (handles : List Nat) : Bool :=
  handles.any fun h => (m.versions[h]?).any (!·.deopts.isEmpty)

/-- Marks the functions that calls by name can mean as deoptimised or not. -/
def markDeopted (m : Model) : Model :=
  m.homes.entries.foldl
    (fun m (name, path) => m.modifyFunction path name fun f =>
      { f with deopted := m.anyDeopted f.versions }) m

/-- Requires the placements to be a forest. -/
def requireForest (m : Model) : Progress :=
  match m.forestFaults with
  | .error e => ⟨m, some e⟩
  | .ok [] => { model := m }
  | .ok faults =>
    ⟨m, some (.trace (.inlineCycle ("; ".intercalate (faults.map ForestFault.message))))⟩

/-- Applies source blocks in order. -/
def applySources (m : Model) (blocks : List SourceBlock) : Progress :=
  ((Progress.forAll applySource m blocks).andThen requireForest).andThen
    fun m => { model := m.markDeopted }

/-! ### IR blocks -/

/-- What an IR block is called in an error. -/
def irContext (b : IrBlock) : String := s!"IR block {b.file}:{b.name}:{b.compileId}"

/-- Adds a change to the version with the given handle, or to its copy. -/
def applyChange (context : String) (handle : Nat) (m : Model) (c : Change) : Progress :=
  match m.version handle with
  | .error e => ⟨m, some e⟩
  | .ok owner =>
    match m.copyOf owner (c.inlineId.getD 0) with
    | .error e => ⟨m, some (unresolved context e)⟩
    | .ok target =>
      { model := m.modifyVersion target.handle fun v =>
          { v with runtime := v.runtime ++ [⟨c.offset, c.kind⟩] } }

/-- Applies an IR block: adds its changes to the version it belongs to. -/
def applyIr (m : Model) (b : IrBlock) : Progress :=
  match m.functionVersion b.file b.name b.compileId with
  | .error e => ⟨m, some (unresolved (irContext b) e)⟩
  | .ok v => Progress.forAll (applyChange (irContext b) v.handle) m b.changes

/-- Applies IR blocks in order. -/
def applyIrs (m : Model) (blocks : List IrBlock) : Progress :=
  Progress.forAll applyIr m blocks

/-! ### Refusals -/

/-- Notes the reason of a refusal with the function that the call means, if any. -/
def applyRefusal (m : Model) (r : Refusal) : Model :=
  match m.homes.get? r.callee with
  | none => m
  | some path => m.modifyFunction path r.callee fun f => { f with refusal := r.reason }

/-- Notes the reasons of refusals; the last one for a function stays. -/
def applyRefusals (m : Model) (notices : List Refusal) : Model :=
  notices.foldl applyRefusal m

/-! ### The three streams -/

/-- What is noted after each stream. -/
inductive BuildNote
  | sources (blocks files functions : Nat)
  | ir (blocks : Nat)
  | refusals (notices : Nat)
deriving DecidableEq, Repr

/-- The text of a note. -/
def BuildNote.message : BuildNote → String
  | sources blocks files functions =>
    s!"Loaded {blocks} source blocks ({files} files, {functions} functions)"
  | ir blocks => s!"Applied {blocks} IR blocks"
  | refusals notices => s!"Applied {notices} inlining refusal notices"

/-- The model that a source stream makes, and a note. -/
def ofSources (code : Text) : Except Failure (Model × BuildNote) := do
  let blocks ← scanSources code
  let m ← (applySources .empty blocks).result
  return (m, .sources blocks.length m.files.size m.homes.size)

/-- The model with an IR stream applied, and a note. -/
def withIr (m : Model) (ir : Text) : Except Failure (Model × BuildNote) := do
  let blocks ← scanIr ir
  let m ← (m.applyIrs blocks).result
  return (m, .ir blocks.length)

/-- The model with a run log applied, and a note. -/
def withLog (m : Model) (log : Text) : Model × BuildNote :=
  let notices := scanRefusals log
  (m.applyRefusals notices, .refusals notices.length)

/-- The model of a trace, and the notes up to where the work ended. -/
def buildNoted (code ir log : Text) : List BuildNote × Except Failure Model :=
  match ofSources code with
  | .error e => ([], .error e)
  | .ok (m, first) =>
    match m.withIr ir with
    | .error e => ([first], .error e)
    | .ok (m, second) =>
      let (m, third) := m.withLog log
      ([first, second, third], .ok m)

end Model

/-- The model of a trace, given its source stream, its IR stream and its run log. -/
def buildModel (code ir log : Text) : Except Failure Model := (Model.buildNoted code ir log).2

end InlineReport
