import InlineReport.View.Code
import InlineReport.View.Json

/-!
# The summary

The summary says in data what the page shows: the files with their functions, the
compiled versions of each function, and for each version the tree of the copies inlined
into it. Totals over the whole model come last.
-/

namespace InlineReport

/-- A copy in the tree of inlined copies. -/
inductive CopyEntry
  | mk (name : String) (secondId : Int) (offset : Int) (calls : Registry String Nat)
      (inlines : List CopyEntry)

/-- A compiled version. -/
structure VersionEntry where
  compileId : Option Int
  deopts : List String
  calls : Registry String Nat
  inlineCount : Nat
  inlines : List CopyEntry

/-- A function. -/
structure FunctionEntry where
  name : String
  deopted : Bool
  refusal : String
  versions : List VersionEntry

/-- A file. -/
structure FileEntry where
  path : String
  functions : List FunctionEntry

/-- The totals of a model. -/
structure Totals where
  files : Nat
  functions : Nat
  versions : Nat
  copies : Nat
  deopts : Nat

/-- The summary of a model. -/
structure Summary where
  files : List FileEntry
  totals : Totals

namespace Summary

/-! ### From a model -/

/-- How many operations of each kind a version has, by the kind shown. -/
def calls (v : Version) : Registry String Nat :=
  v.runtime.foldl (fun counts call =>
    let kind := displayKind call.kind
    counts.insert kind ((counts.get? kind).getD 0 + 1)) .empty

/-- The trees of the copies placed in a version, nested at most `depth` deep. -/
def treesWithin (m : Model) : (depth : Nat) → (handles : List Int) → Except Failure (List CopyEntry)
  | _, [] => .ok []
  | 0, _ :: _ => .error Overrun.nesting
  | depth + 1, handles => handles.mapM fun handle => do
    let v ← m.version handle
    return .mk v.name v.secondId v.offset (calls v) (← treesWithin m depth v.inlines)

/-- The entry of a compiled version. -/
def versionEntry (lim : Limits) (m : Model) (handle : Nat) : Except Failure VersionEntry := do
  let v ← m.version handle
  return {
    compileId := v.compileId
    deopts := v.deopts
    calls := calls v
    inlineCount := (← m.descendants handle).length
    inlines := ← treesWithin m (min m.depthBound lim.treeDepth) v.inlines }

/-- The entry of a function. -/
def functionEntry (lim : Limits) (m : Model) (f : Function) : Except Failure FunctionEntry := do
  return {
    name := f.name
    deopted := f.deopted
    refusal := f.refusal
    versions := ← f.versions.mapM (versionEntry lim m) }

/-- The entry of a file. -/
def fileEntry (lim : Limits) (m : Model) (file : SourceFile) : Except Failure FileEntry := do
  return {
    path := file.path
    functions := ← file.functions.values.mapM (functionEntry lim m) }

/-- The totals of a model. -/
def totalsOf (m : Model) : Totals where
  files := m.files.size
  functions := m.homes.size
  versions := m.compiled.length
  copies := m.copies.length
  deopts := (m.versions.toList.flatMap (·.deopts)).length

end Summary

/-- The summary of a model. -/
def summary (lim : Limits) (m : Model) : Except Failure Summary := do
  return {
    files := ← m.files.values.mapM (Summary.fileEntry lim m)
    totals := Summary.totalsOf m }

/-! ### As JSON -/

namespace Summary

/-- The version of the layout of the summary. -/
def schemaVersion : Nat := 1

/-- Counts by name. -/
def callsJson (calls : Registry String Nat) : Json :=
  .obj (calls.entries.map fun (kind, n) => (kind, .num n))

mutual

/-- A copy and the copies below it. -/
def copyJson : CopyEntry → Json
  | .mk name secondId offset calls inlines => .obj [
      ("name", .str name),
      ("second_id", .num secondId),
      ("pos", .num offset),
      ("runtime_calls", callsJson calls),
      ("inlines", .arr (copiesJson inlines))]

/-- A list of copies. -/
def copiesJson : List CopyEntry → List Json
  | [] => []
  | entry :: entries => copyJson entry :: copiesJson entries

end

/-- A compiled version. -/
def versionJson (v : VersionEntry) : Json := .obj [
  ("compile_id", v.compileId.elim .null fun id => .num id),
  ("deopts", .arr (v.deopts.map .str)),
  ("runtime_calls", callsJson v.calls),
  ("inline_count", .num v.inlineCount),
  ("inlines", .arr (copiesJson v.inlines))]

/-- A function. -/
def functionJson (f : FunctionEntry) : Json := .obj [
  ("name", .str f.name),
  ("deopted", .bool f.deopted),
  ("did_not_inline_reason", if f.refusal.isEmpty then .null else .str f.refusal),
  ("versions", .arr (f.versions.map versionJson))]

/-- A file. -/
def fileJson (file : FileEntry) : Json := .obj [
  ("path", .str file.path),
  ("functions", .arr (file.functions.map functionJson))]

/-- The totals. -/
def totalsJson (t : Totals) : Json := .obj [
  ("files", .num t.files),
  ("functions", .num t.functions),
  ("versions", .num t.versions),
  ("inline_copies", .num t.copies),
  ("deopts", .num t.deopts)]

/-- The summary as a JSON value. -/
def toJson (s : Summary) : Json := .obj [
  ("schema_version", .num schemaVersion),
  ("files", .arr (s.files.map fileJson)),
  ("stats", totalsJson s.totals)]

end Summary

end InlineReport
