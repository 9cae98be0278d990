import InlineReport.Model.Basic

/-!
# Registering what a trace introduces

A source block introduces a file, a function, a compiled version of it, or an inline
copy. Files and functions are introduced by the first block that names them; a compiled
version always is a new one, and from then on it is the one that its compile id means in
its file and in its function.
-/

namespace InlineReport

namespace Model

/-- Introduces a file. -/
def registerFile (m : Model) (path : String) : Model :=
  { m with files := m.files.insertNew path { path } }

/-- Introduces a function of a file that has been introduced. A new function is the one
that calls by its name mean from now on. -/
def registerFunction (m : Model) (path name : String) : Model :=
  match m.files.get? path with
  | none => m
  | some file =>
    if file.functions.contains name then m
    else
      { m with
        files := m.files.insert path
          { file with functions := file.functions.insert name { name, file := path } }
        homes := m.homes.insert name path }

/-- Adds a compiled version of a function that has been introduced. -/
def registerVersion (m : Model) (path name : String) (compileId : Int) (code : Text) : Model :=
  let handle := m.nextHandle
  let m := m.addVersion fun handle =>
    { handle, file := path, name, code, compileId := some compileId }
  let m := m.modifyFunction path name fun f =>
    { f with
      versions := f.versions ++ [handle]
      versionsById := f.versionsById.insert compileId handle }
  { m with
    files := m.files.modify path fun file =>
      { file with versionsById := file.versionsById.insert compileId handle } }

/-- Adds an inline copy that `owner` owns; a second id can be used only once. -/
def registerCopy (m : Model) (owner : Version) (name : String) (secondId : Int) (code : Text) :
    Except Failure Model :=
  if owner.copies.contains secondId then
    .error (TraceError.duplicateInline (owner.compileId.getD 0) secondId)
  else
    let handle := m.nextHandle
    let m := m.addVersion fun handle =>
      { handle, file := owner.file, name, code, secondId, owner := some owner.handle }
    .ok (m.modifyVersion owner.handle fun v => { v with copies := v.copies.insert secondId handle })

end Model

end InlineReport
