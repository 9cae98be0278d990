import InlineReport.Host.Basic
import InlineReport.Settings.Check
import InlineReport.Settings.Merge

/-!
# Settings files

The settings of a run come from any number of files, each laid over the ones before it. A
file that is missing, cannot be read, or does not hold a table is passed over with a
warning. If no files are named, a file of a fixed name is used, and it may be missing.

The same files can be checked instead; then everything that is wrong with them is told.

What the text of a file stands for is settled by the loader of the host.
-/

namespace InlineReport

namespace Settings

variable {m : Type → Type} [Monad m] [MonadExceptOf Failure m] [Host m]

/-- The name of the settings file that is used if none is named. -/
def fileName : String := ".jitlens.yml"

/-- What a settings file may hold. -/
inductive Content
  | unreadable
  /-- Something other than a table. -/
  | other
  | table (raw : RawSettings)

/-- What a settings file holds, given what its text has been loaded as. A file that holds
nothing, or a value that counts as nothing, holds the empty table. -/
def Content.ofLoaded : Option (Value × Store) → Content
  | none => .unreadable
  | some (v, store) =>
    if v.isNothing store then .table {}
    else
      match v.entries? store with
      | some entries => .table { store, entries }
      | none => .other

/-- What the settings file at a path holds. -/
def contentOf (p : Path) : m Content :=
  tryCatchThe Failure
    (do
      match Utf8.decode? (← Host.readBytes p) with
      | none => return .unreadable
      | some text => return .ofLoaded (← Host.load? (Text.unifyNewlines text)))
    fun _ => return .unreadable

/-! ### Loading -/

/-- Warns that a file is passed over. -/
def warn (before : String) (p : Path) (after : String) : m Unit :=
  Host.log { level := .warning, source := .settings
             message := wide before ++ p.text ++ wide after }

/-- Settings with the file at a path laid over them. -/
def loadFile (base : Settings) (p : Path) : m Settings := do
  if ← Host.isThere p then
    match ← contentOf p with
    | .unreadable =>
      warn "Failed to load " p " (...). Skipping."
      return base
    | .other =>
      warn "Config " p " is not a mapping; skipping."
      return base
    | .table raw =>
      match merge (← Host.limits) base raw with
      | .ok s => return s
      | .error e => throw e
  else
    warn "Config " p " not found; skipping."
    return base

/-- The settings for a folder, from the named files or else from the one of the fixed
name. -/
def load (folder : Path) (files : Option (List Path)) : m Settings := do
  match files with
  | some files => (files.map folder.join).foldlM loadFile {}
  | none =>
    let file := folder.join (.ofString fileName)
    if ← Host.isThere file then loadFile {} file else return {}

/-! ### Checking -/

/-- A complaint about the file at a path. -/
def complaint (p : Path) (what : WideText) : WideText := p.text ++ wide ": " ++ what

/-- What is wrong with the settings file at a path. -/
def checkFile (p : Path) : m (List WideText) := do
  if ← Host.isThere p then
    match ← contentOf p with
    | .unreadable => return [complaint p (wide "failed to read (...)")]
    | .other => return [complaint p (wide "config must be a mapping")]
    | .table raw =>
      match raw.check (← Host.limits) with
      | .ok faults => return faults.map fun f => complaint p f.message
      | .error e => throw e
  else return [complaint p (wide "file not found")]

/-- What is wrong with the settings files at several paths. -/
def checkFiles (files : List Path) : m (List WideText) := return (← files.mapM checkFile).flatten

end Settings

end InlineReport
