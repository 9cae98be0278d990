import InlineReport.Command.Grammar
import InlineReport.Number.Reading
import InlineReport.Settings.Basic
import InlineReport.Settings.Preset

/-!
# The commands

What the program can be asked for on its command line: to run a script and report on it, to
report on traces that are there already, to show or to check settings, and to make a
settings file.

A command has a grammar of its own for what follows its name. A command line is only obeyed
if nothing on it is unknown, but help is given before that is found out.
-/

namespace InlineReport

/-- What a command line says about a report. -/
structure ReportFlags where
  /-- The settings files that are named. -/
  files : List String := []
  codeFile : Option String := none
  irFile : Option String := none
  logFile : Option String := none
  htmlPath : Option String := none
  jsonPath : Option String := none
  title : Option String := none
  node : Option String := none
  timeout : Option Binary := none
deriving DecidableEq, Repr

namespace ReportFlags

/-- Settings with those of a command line over them. -/
def apply (f : ReportFlags) (s : Settings) : Settings := { s with
  codeFile := (f.codeFile.map wide).getD s.codeFile
  irFile := (f.irFile.map wide).getD s.irFile
  logFile := (f.logFile.map wide).getD s.logFile
  htmlPath := (f.htmlPath.map wide).getD s.htmlPath
  jsonPath := f.jsonPath.map wide <|> s.jsonPath
  title := (f.title.map wide).getD s.title
  node := (f.node.map wide).getD s.node
  timeout := f.timeout <|> s.timeout }

end ReportFlags

/-- What the program is asked for, in which folder. -/
inductive Request
  | run (folder : String) (flags : ReportFlags) (script : List String)
  | report (folder : String) (flags : ReportFlags)
  | showSettings (folder : String) (files : List String) (output : Option String)
  | checkSettings (folder : String) (files : List String)
  | makeSettings (folder : String) (output : Option String) (preset : Preset) (overwrite : Bool)
deriving DecidableEq, Repr

/-- What a command line comes to. -/
inductive CommandLine
  | help
  | version
  | misuse
  | request (verbose : Bool) (r : Request)
deriving DecidableEq, Repr

namespace CommandLine

/-! ### Options -/

/-- Help, which every command gives. -/
def helpOption : CommandOption := { names := ["-h", "--help"], kind := .help }

/-- An option with any text as its value. -/
def textOption (name : String) : CommandOption := { names := [name], kind := .value fun _ => true }

/-- The options of a report. -/
def reportOptions : List CommandOption :=
  ["--config", "--code", "--ir", "--log", "--html", "--json", "--title"].map textOption

/-- The values of an option, in their order. -/
def valuesOf (options : List (String × String)) (name : String) : List String :=
  (options.filter (·.1 == name)).map (·.2)

/-- The value of an option; the last one counts. -/
def valueOf? (options : List (String × String)) (name : String) : Option String :=
  (valuesOf options name).getLast?

/-- Whether a flag is given. -/
def hasFlag (options : List (String × String)) (name : String) : Bool := options.any (·.1 == name)

/-- The folder that the tail of a command names, or the current one. -/
def folderOf (tail : List Text) : String := (tail.head?.map String.ofList).getD "."

/-- What options say about a report. -/
def reportFlags (options : List (String × String)) : ReportFlags where
  files := valuesOf options "--config"
  codeFile := valueOf? options "--code"
  irFile := valueOf? options "--ir"
  logFile := valueOf? options "--log"
  htmlPath := valueOf? options "--html"
  jsonPath := valueOf? options "--json"
  title := valueOf? options "--title"
  node := valueOf? options "--node"
  timeout := (valueOf? options "--timeout").bind fun s => Reading.fraction? s.toList

/-! ### Commands -/

/-- A command: its grammar, and what it makes of options and a tail. -/
structure Command where
  grammar : Grammar
  request : List (String × String) → List Text → Request

/-- Runs a script and reports on it. -/
def runCommand : Command where
  grammar := {
    options := [helpOption, textOption "--path"] ++ reportOptions ++ [textOption "--node",
      { names := ["--timeout"], kind := .value fun s => (Reading.fraction? s).isSome }]
    tail := .everything }
  request options tail :=
    .run ((valueOf? options "--path").getD ".") (reportFlags options) (tail.map String.ofList)

/-- Reports on traces that are there already. -/
def reportCommand : Command where
  grammar := { options := helpOption :: reportOptions, tail := .atMostOne }
  request options tail := .report (folderOf tail) (reportFlags options)

/-- Makes a settings file. -/
def makeCommand : Command where
  grammar := {
    options := [helpOption, textOption "--output",
      { names := ["--preset"], kind := .value fun s => Preset.all.any (·.1.toList == s) },
      { names := ["--force"], kind := .flag }]
    tail := .atMostOne }
  request options tail :=
    .makeSettings (folderOf tail) (valueOf? options "--output")
      (((valueOf? options "--preset").bind (Preset.all.lookup ·)).getD .full)
      (hasFlag options "--force")

/-- Shows the settings. -/
def showCommand : Command where
  grammar := {
    options := [helpOption, textOption "--config", textOption "--output"], tail := .atMostOne }
  request options tail :=
    .showSettings (folderOf tail) (valuesOf options "--config") (valueOf? options "--output")

/-- Checks settings files. -/
def checkCommand : Command where
  grammar := { options := [helpOption, textOption "--config"], tail := .atMostOne }
  request options tail := .checkSettings (folderOf tail) (valuesOf options "--config")

/-! ### Command lines -/

/-- What is read by a grammar; a misuse if `make` does not make anything of it. -/
def within (g : Grammar) (args : List Text)
    (make : List (String × String) → List Text → Bool → CommandLine) : CommandLine :=
  match g.read args with
  | .help => .help
  | .version => .version
  | .misuse => .misuse
  | .given options tail isComplete => make options tail isComplete

/-- What follows the name of a command. -/
def ofCommand (verbose isComplete : Bool) (c : Command) (args : List Text) : CommandLine :=
  within c.grammar args fun options tail isComplete' =>
    if isComplete && isComplete' then .request verbose (c.request options tail) else .misuse

/-- A tail that begins with the name of one of several commands. -/
def ofNamed {α : Type} (commands : List (String × α)) (tail : List Text)
    (make : α → List Text → CommandLine) : CommandLine :=
  match tail with
  | [] => .misuse
  | name :: args =>
    match commands.lookup (String.ofList name) with
    | none => .misuse
    | some c => make c args

/-- What is asked for about settings. -/
def ofSettingsCommand (verbose isComplete : Bool) (args : List Text) : CommandLine :=
  within { options := [helpOption], tail := .command } args fun _ tail isComplete' =>
    ofNamed [("show", showCommand), ("validate", checkCommand)] tail
      (ofCommand verbose (isComplete && isComplete'))

/-- The options before the name of a command. -/
def mainGrammar : Grammar where
  options := [helpOption, { names := ["--version"], kind := .version },
    { names := ["-v", "--verbose"], kind := .flag }]
  tail := .command

/-- What is printed if the version is asked for. -/
def versionText : String := "jitlens 0.1.0\n"

/-- What a command line comes to. -/
def read (args : List Text) : CommandLine :=
  within mainGrammar args fun options tail isComplete =>
    let verbose := hasFlag options "--verbose"
    ofNamed
      [("run", ofCommand verbose isComplete runCommand),
       ("parse", ofCommand verbose isComplete reportCommand),
       ("config", ofSettingsCommand verbose isComplete),
       ("init", ofCommand verbose isComplete makeCommand)]
      tail (· ·)

end CommandLine

end InlineReport
