import InlineReport.Host.Basic

/-!
# A host that is a value

A tree of files together with a log, an output and the processes started so far is a host
(`World`). With it a run is a function from worlds to worlds, and what the run did can be
read off the world it leaves.

What the program does not settle itself is part of the world: a function says how a process
changes the tree and what becomes of it (`World.process`), another one what a settings text
stands for (`World.load?`), and a third one what is not allowed in the tree (`Tree.fault?`).
-/

namespace InlineReport

/-- What is at a place of a tree. -/
inductive Entry
  | folder
  | file (bytes : List UInt8)
deriving DecidableEq, Repr

/-- The kind of an entry. -/
def Entry.kind : Entry → EntryKind
  | folder => .folder
  | file _ => .file

/-- The names that lead from the root to an entry. -/
abbrev Place := List WideText

/-- What may be done with an entry. -/
inductive Access
  /-- Going on from a folder to what is in it. -/
  | search
  /-- Reading a file. -/
  | read
  /-- Writing to a file. -/
  | write
  /-- Making something new in a folder. -/
  | add
deriving DecidableEq, Repr

/-- The files and folders at their places; an entry hides the later ones of its place. -/
structure Tree where
  entries : List (Place × Entry)
  /-- Why an entry cannot be used in some way, if that is so. -/
  fault? : Access → Place → Option HostFault := fun _ _ => none

namespace Tree

/-- What is at a place. The root is always a folder. -/
def get? (t : Tree) (at' : Place) : Option Entry :=
  if at' = [] then some .folder else t.entries.lookup at'

/-- The tree with an entry put at a place. -/
def put (t : Tree) (at' : Place) (e : Entry) : Tree := { t with entries := (at', e) :: t.entries }

/-- How many bytes a name can have. -/
def longestName : Nat := 255

/-- How many bytes a path can have. -/
def longestPath : Nat := 4095

/-- How many bytes a text has in a name; a surrogate stands for a byte. -/
def byteCount (s : WideText) : Nat :=
  s.foldl (fun n c => n + match c with
    | .char c => c.utf8Size
    | .surrogate _ => 1) 0

/-- A place that can be used in some way. -/
def grant (t : Tree) (a : Access) (place : Place) : Except HostFault Unit :=
  match t.fault? a place with
  | some fault => .error fault
  | none => .ok ()

/-- Goes from a place along the names of a path. Every place that is left has to be a
folder that can be searched, and no name may be too long. -/
def follow (t : Tree) (at' : Place) : List WideText → Except HostFault Place
  | [] => .ok at'
  | name :: names =>
    match t.get? at' with
    | none => .error .missing
    | some (.file _) => .error .notDirectory
    | some .folder => do
      t.grant .search at'
      if byteCount name > longestName then .error .nameTooLong
      else follow t (if name = Path.up then at'.dropLast else at' ++ [name]) names

/-- The place of a path; there need not be an entry. -/
def locate (t : Tree) (p : Path) : Except HostFault Place :=
  if byteCount p.text > longestPath then .error .nameTooLong else t.follow [] p.parts

/-- What is at a path, which may lead nowhere. -/
def find? (t : Tree) (p : Path) : Except HostFault (Option Entry) :=
  match t.locate p with
  | .ok found => .ok (t.get? found)
  | .error fault => if fault.isNowhere then .ok none else .error fault

/-- The bytes of the file at a path. -/
def read (t : Tree) (p : Path) : Except HostFault (List UInt8) := do
  let place ← t.locate p
  match t.get? place with
  | none => .error .missing
  | some entry =>
    t.grant .read place
    match entry with
    | .folder => .error .isDirectory
    | .file bytes => .ok bytes

/-- The tree with something new at a place, which lies in a folder. -/
def add (t : Tree) (place : Place) (e : Entry) : Except HostFault Tree :=
  match t.get? place.dropLast with
  | none => .error .missing
  | some (.file _) => .error .notDirectory
  | some .folder => do
    t.grant .add place.dropLast
    return t.put place e

/-- The tree with a new folder at a path. -/
def makeFolder (t : Tree) (p : Path) : Except HostFault Tree := do
  let place ← t.locate p
  match t.get? place with
  | some _ => .error .exists
  | none => t.add place .folder

/-- The tree with bytes written to the file at a path. -/
def write (t : Tree) (p : Path) (bytes : List UInt8) : Except HostFault Tree := do
  let place ← t.locate p
  match t.get? place with
  | some .folder => .error .isDirectory
  | some (.file _) =>
    t.grant .write place
    return t.put place (.file bytes)
  | none => t.add place (.file bytes)

end Tree

/-- All that a run can see and change. -/
structure World where
  tree : Tree
  workplace : Path
  limits : Limits
  /-- The value of a settings text, if it is well-formed. -/
  load? : Text → Option (Value × Store)
  /-- What a process does to the tree, and what becomes of it. -/
  process : ProcessStart → Tree → ProcessEnd × Tree
  /-- The processes started so far. -/
  started : List ProcessStart := []
  log : List LogLine := []
  output : Text := []

/-- A run in a world. -/
abbrev Session := ExceptT Failure (StateM World)

namespace Session

/-- Runs in a world, and gives the result and the world that it leaves. -/
def runIn {α : Type} (s : Session α) (w : World) : Except Failure α × World := (ExceptT.run s).run w

/-- What can be read off the world. -/
def look {α : Type} (f : World → α) : Session α := do return f (← get)

/-- What can be read off the tree at a path. -/
def atPath {α : Type} (p : Path) (f : Tree → Except HostFault α) : Session α := do
  match p.flaw? with
  | some flaw => throw (Failure.overrun flaw)
  | none =>
    match f (← get).tree with
    | .ok a => return a
    | .error fault => throw (Failure.host { fault, path := p.text })

/-- Changes the tree at a path. -/
def changePath (p : Path) (f : Tree → Except HostFault Tree) : Session Unit := do
  let tree ← atPath p f
  modify ({ · with tree })

/-- What is at a path; nothing is at one that cannot exist. -/
def kind? (p : Path) : Session (Option EntryKind) :=
  if p.flaw?.isSome then return none else return (← atPath p (·.find? p)).map (·.kind)

/-- Starts a process. -/
def start (s : ProcessStart) : Session ProcessEnd := do
  let w ← get
  let (result, tree) := w.process s w.tree
  set { w with tree, started := w.started ++ [s] }
  return result

end Session

instance : Host Session where
  limits := Session.look (·.limits)
  load? text := Session.look (·.load? text)
  workplace := Session.look (·.workplace)
  kind? := Session.kind?
  readBytes p := Session.atPath p (·.read p)
  makeFolder p := Session.changePath p (·.makeFolder p)
  writeBytes p bytes := Session.changePath p (·.write p bytes)
  start := Session.start
  log line := modify fun w => { w with log := w.log ++ [line] }
  print text := modify fun w => { w with output := w.output ++ text }

end InlineReport
