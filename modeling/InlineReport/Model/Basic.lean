import InlineReport.Failure
import InlineReport.Model.Registry

/-!
# The model of a trace

A model holds every compiled version and every inline copy of the trace in one list, the
*arena*, in the order in which they were read; a **handle** is a position in it. What refers
to a version may also count from the end, with a negative number. Around
the arena are tables: each file has its functions by name and its compiled versions by
compile id, each function the handles of its versions, and each version the inline
copies it owns by their second ids.

Several files may have functions of one name. A call in the trace names only the
function, so a further table gives, for a name, the file whose function it means: the
one whose function of that name was created last.
-/

namespace InlineReport

/-- An operation left in the code of a version: its offset and its kind. -/
structure RuntimeCall where
  offset : Int
  kind : String
deriving DecidableEq, Repr

/-- A compiled version of a function, or (if it has an owner) a copy of a function inlined
into the version `owner`. -/
structure Version where
  handle : Nat
  file : String
  name : String
  code : Text
  compileId : Option Int := none
  secondId : Int := 0
  owner : Option Int := none
  /-- Where the copy stands in the text of the version or copy that it is placed in. -/
  offset : Int := 0
  /-- What refers to the copies placed in this text. -/
  inlines : List Int := []
  deopts : List String := []
  runtime : List RuntimeCall := []
  /-- The copies that this version owns, by second id. -/
  copies : Registry Int Nat := .empty

/-- Whether a version is an inline copy. -/
def Version.isInline (v : Version) : Bool := v.owner.isSome

/-- A function of a file: the handles of its compiled versions in the order of
compilation, and by compile id. -/
structure Function where
  name : String
  file : String
  deopted : Bool := false
  versions : List Nat := []
  versionsById : Registry Int Nat := .empty
  /-- Why calls of the function were not inlined; empty if no reason is known. -/
  refusal : String := ""

/-- The handle of the version of a function that was compiled last. -/
def Function.lastVersion? (f : Function) : Option Nat := f.versions.getLast?

/-- A file: its functions by name, and its compiled versions by compile id. -/
structure SourceFile where
  path : String
  functions : Registry String Function := .empty
  versionsById : Registry Int Nat := .empty

/-- The model of a trace. -/
structure Model where
  files : Registry String SourceFile := .empty
  /-- For the name of a function, the file whose function calls of that name mean. -/
  homes : Registry String String := .empty
  versions : Array Version := #[]

namespace Model

/-- The model of a trace that says nothing. -/
def empty : Model := {}

/-! ### The arena -/

/-- The position that a number refers to; a negative one counts from the end. -/
def position? (m : Model) (number : Int) : Option Nat :=
  (if number < 0 then number + m.versions.size else number).toNat?

/-- The version that a number refers to. -/
def version (m : Model) (number : Int) : Except Failure Version :=
  match (m.position? number).bind (m.versions[·]?) with
  | some v => .ok v
  | none => .error Overrun.handle

/-- Changes the version of a handle. -/
def modifyVersion (m : Model) (handle : Nat) (f : Version → Version) : Model :=
  { m with versions := m.versions.modify handle f }

/-- The handle that the next version gets. -/
def nextHandle (m : Model) : Nat := m.versions.size

/-- Adds a version, given its content for the handle that it gets. -/
def addVersion (m : Model) (content : Nat → Version) : Model :=
  { m with versions := m.versions.push (content m.nextHandle) }

@[simp]
theorem position?_natCast (m : Model) (handle : Nat) : m.position? handle = some handle := by
  simp [position?, Int.not_lt.2 (Int.natCast_nonneg handle), Int.toNat?]

theorem version_eq_ok_iff {m : Model} {handle : Nat} {v : Version} :
    m.version handle = .ok v ↔ m.versions[handle]? = some v := by
  unfold version
  rw [position?_natCast, Option.bind_some]
  cases m.versions[handle]? <;> simp

@[simp]
theorem nextHandle_addVersion (m : Model) (content : Nat → Version) :
    (m.addVersion content).nextHandle = m.nextHandle + 1 := by
  simp [addVersion, nextHandle]

@[simp]
theorem nextHandle_modifyVersion (m : Model) (handle : Nat) (f : Version → Version) :
    (m.modifyVersion handle f).nextHandle = m.nextHandle := by
  simp [modifyVersion, nextHandle]

/-! ### Functions -/

/-- The functions of all files, file by file. -/
def functions (m : Model) : List Function :=
  m.files.values.flatMap (·.functions.values)

/-- The function that a call by name means. -/
def functionByName? (m : Model) (name : String) : Option Function := do
  let path ← m.homes.get? name
  let file ← m.files.get? path
  file.functions.get? name

/-- Changes the function of a name in a file. -/
def modifyFunction (m : Model) (path name : String) (f : Function → Function) : Model :=
  { m with
    files := m.files.modify path fun file =>
      { file with functions := file.functions.modify name f } }

/-- The compiled versions, copies left out. -/
def compiled (m : Model) : List Version := m.versions.toList.filter (!·.isInline)

/-- The inline copies. -/
def copies (m : Model) : List Version := m.versions.toList.filter (·.isInline)

end Model

end InlineReport
