import InlineReport.Command.Request
import InlineReport.Command.Trace
import InlineReport.Model.Build
import InlineReport.Settings.Load
import InlineReport.Settings.Show
import InlineReport.View.Page
import InlineReport.View.Summary

/-!
# Doing what is asked for

Each request is carried out on a host and ends with a code: zero if all went well, one if a
file or a process could not be had or something is missing, two if the trace is at fault.
A failure of any other kind, and one outside of the making of a report, ends the run without
a code.
-/

namespace InlineReport

namespace Request

variable {m : Type → Type} [Monad m] [MonadExceptOf Failure m] [Host m]

/-- Tells something in the log. -/
def tell (level : LogLevel) (message : WideText) : m Unit :=
  Host.log { level, source := .command, message }

/-- A result, or the failure in its place. -/
def orThrow {α : Type} : Except Failure α → m α
  | .ok a => return a
  | .error e => throw e

/-- The path that a text names in a folder. -/
def pathIn (folder : Path) (s : WideText) : Path := folder.join (.ofText s)

/-- The absolute path of a folder. -/
def folderAt (s : String) : m Path := Host.resolve (.ofString s)

/-- The settings files that are named, if any. -/
def namedFiles (files : List String) : Option (List Path) :=
  if files.isEmpty then none else some (files.map .ofString)

/-- The settings for a folder with those of a command line over them. -/
def settingsFor (folder : Path) (flags : ReportFlags) : m Settings :=
  return flags.apply (← Settings.load folder (namedFiles flags.files))

/-! ### Reports -/

/-- Writes a report, and tells so. -/
def writeReport (what : String) (path : Path) (report : Except Failure Text) : m Unit := do
  Host.makeFolders path.parent
  Host.writeText path (← orThrow report)
  tell .info (wide s!"Wrote {what} report to " ++ path.text)

/-- Writes the page on a model. The page of a title that has surrogates cannot be written; the
file stays empty then. -/
def writePage (path : Path) (model : Model) (title : WideText) : m Unit := do
  let lim ← Host.limits
  match WideText.text? title with
  | some title => writeReport "HTML" path (View.page lim model (String.ofList title))
  | none =>
    Host.makeFolders path.parent
    let _ ← orThrow (View.page lim model "")
    Host.writeText path []
    throw (Failure.overrun .surrogate)

/-- Reads a trace, and gives its model. -/
def readModel (folder : Path) (s : Settings) : m Model := do
  let texts ← readTexts folder s
  let (notes, result) := Model.buildNoted texts.code texts.ir texts.log
  for note in notes do
    Host.log { level := .debug, source := .model, message := wide note.message }
  orThrow result

/-- Writes the reports on a trace, and gives its model. -/
def writeReports (folder : Path) (s : Settings) : m Model := do
  let model ← readModel folder s
  writePage (pathIn folder s.htmlPath) model s.title
  match s.jsonPath with
  | none | some [] => return model
  | some path =>
    let lim ← Host.limits
    writeReport "JSON" (pathIn folder path) ((summary lim model).map (·.toJson.render))
    return model

/-- What is told about a model. -/
def overview (model : Model) : String :=
  let functions := model.files.values.flatMap (·.functions.values)
  let deopted := (functions.filter (·.deopted)).length
  s!"{model.files.size} files, {model.homes.size} functions ({deopted} deopted), " ++
    s!"{model.compiled.length} compiled versions"

/-- Makes a report, and gives the code that the run ends with. -/
def reporting (make : m Model) : m Nat :=
  tryCatchThe Failure
    (do
      let model ← make
      tell .info (wide (overview model))
      return 0)
    fun
      | .host e => do
        tell .error (wide ("Cannot read trace files: " ++ e.message))
        return 1
      | .trace e => do
        tell .error (wide e.message)
        return 2
      | e => throw e

/-! ### Requests -/

/-- Reports on the traces in a folder. -/
def performReport (folder : String) (flags : ReportFlags) : m Nat := do
  let folder ← folderAt folder
  let s ← settingsFor folder flags
  reporting (writeReports folder s)

/-- Runs a script in a folder and reports on it. Two dashes before the script do not
count. -/
def performRun (folder : String) (flags : ReportFlags) (script : List String) : m Nat := do
  let folder ← folderAt folder
  let s ← settingsFor folder flags
  match (if script.head? = some "--" then script.tail else script) with
  | [] =>
    tell .error (wide "No script given to run under trace.")
    return 1
  | script =>
    reporting do
      let _ ← runTraced folder s script
      writeReports folder s

/-- Makes a settings file, unless there is something at its path that may not be
overwritten. -/
def performMake (folder : String) (output : Option String) (preset : Preset) (overwrite : Bool) :
    m Nat := do
  let folder ← folderAt folder
  let name := (output.filter (!·.isEmpty)).getD Settings.fileName
  let target := pathIn folder (wide name)
  if !overwrite && (← Host.isThere target) then
    tell .error (wide "Config " ++ target.text ++
      wide " already exists. Use --force to overwrite.")
    return 1
  else
    Host.makeFolders target.parent
    Host.writeText target preset.text.toList
    tell .info (wide "Wrote config to " ++ target.text)
    return 0

/-- Prints settings, or writes them to a file. -/
def performShow (folder : String) (files : List String) (output : Option String) : m Nat := do
  let folder ← folderAt folder
  let s ← Settings.load folder (namedFiles files)
  match output with
  | none | some "" => Host.print (s.text ++ ['\n'])
  | some output =>
    let target := pathIn folder (wide output)
    Host.makeFolders target.parent
    Host.writeText target s.text
  return 0

/-- Checks the named settings files, or the one of the fixed name, which has to be there. -/
def performCheck (folder : String) (files : List String) : m Nat := do
  let folder ← folderAt folder
  let standard := pathIn folder (wide Settings.fileName)
  if files.isEmpty && !(← Host.isThere standard) then
    tell .error (wide "Config " ++ standard.text ++ wide " not found.")
    return 1
  else
    let paths := if files.isEmpty then [standard] else files.map fun s => pathIn folder (wide s)
    match ← Settings.checkFiles paths with
    | [] =>
      tell .info (wide "Config valid.")
      return 0
    | complaints =>
      for c in complaints do tell .error c
      return 1

/-- Carries out a request, and gives the code that the run ends with. -/
def perform : Request → m Nat
  | run folder flags script => performRun folder flags script
  | report folder flags => performReport folder flags
  | showSettings folder files output => performShow folder files output
  | checkSettings folder files => performCheck folder files
  | makeSettings folder output preset overwrite => performMake folder output preset overwrite

end Request

end InlineReport
