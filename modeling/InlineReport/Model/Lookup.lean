import InlineReport.Model.Basic

/-!
# Looking things up

A block of a trace refers to what earlier blocks have introduced: to a file by its path,
to a function by its file and name, to a compiled version by its compile id within a
file or a function, and to an inline copy by its second id within a version, where zero
is the version itself. A lookup that finds nothing says what it looked for.
-/

namespace InlineReport

namespace Model

/-- The file of a path. -/
def file (m : Model) (path : String) : Except LookupFailure SourceFile :=
  match m.files.get? path with
  | some file => .ok file
  | none => .error ⟨"file", path⟩

/-- The function of a name in a file. -/
def function (m : Model) (path name : String) : Except LookupFailure Function := do
  let file ← m.file path
  match file.functions.get? name with
  | some f => .ok f
  | none => .error ⟨"function", s!"{path}:{name}"⟩

/-- The version that a table gives for an id. -/
def versionIn (m : Model) (table : Registry Int Nat) (id : Int) (failure : LookupFailure) :
    Except LookupFailure Version :=
  match (table.get? id).bind (m.versions[·]?) with
  | some v => .ok v
  | none => .error failure

/-- The version that a compile id means in a file. -/
def fileVersion (m : Model) (path : String) (compileId : Int) : Except LookupFailure Version := do
  let file ← m.file path
  m.versionIn file.versionsById compileId ⟨"version", s!"{path}#{compileId}"⟩

/-- The version that a compile id means in a function. -/
def functionVersion (m : Model) (path name : String) (compileId : Int) :
    Except LookupFailure Version := do
  let f ← m.function path name
  m.versionIn f.versionsById compileId ⟨"version", s!"{path}:{name}#{compileId}"⟩

/-- A compile id as a key shows it. -/
def shownId : Option Int → String
  | some id => toString id
  | none => "None"

/-- The copy of a second id within a version. -/
def copyOf (m : Model) (owner : Version) (secondId : Int) : Except LookupFailure Version :=
  if secondId = 0 then .ok owner
  else
    m.versionIn owner.copies secondId
      ⟨"inline", s!"{owner.name}#{shownId owner.compileId}/{secondId}"⟩

end Model

end InlineReport
