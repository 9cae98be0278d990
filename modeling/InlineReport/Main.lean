import InlineReport.Command.Perform
import InlineReport.Host.Usual

/-!
# The program

A run on this machine: the files are those of the machine, the log goes to the error stream,
and the code of the run is the code that the program ends with.

This is the only place where anything outside of the program is touched. All that is decided
is decided by `CommandLine.read` and `Request.perform`; what is here only hands on.
-/

namespace InlineReport

/-- A run on this machine, which knows whether it tells everything. -/
abbrev MachineRun := ReaderT Bool (ExceptT Failure IO)

namespace MachineRun

/-- The fault that an error of the machine is, if it has a number. -/
def fault? : IO.Error → Option HostFault
  | .alreadyExists _ code words | .otherError code words | .resourceBusy code words
  | .resourceVanished code words | .unsupportedOperation code words | .hardwareFault code words
  | .unsatisfiedConstraints code words | .illegalOperation code words | .protocolError code words
  | .timeExpired code words | .interrupted _ code words | .noFileOrDirectory _ code words
  | .invalidArgument _ code words | .permissionDenied _ code words
  | .resourceExhausted _ code words | .inappropriateType _ code words
  | .noSuchThing _ code words => some ⟨code.toNat, words⟩
  | .unexpectedEof | .userError _ => none

/-- Does something with a file or a folder. -/
def atPath {α : Type} (p : Path) (act : String → IO α) : MachineRun α := do
  if let some flaw := p.flaw? then throw (Failure.overrun flaw)
  let some path := WideText.text? p.text | throw (Failure.overrun .surrogate)
  let path := String.ofList path
  let done : IO (Except HostFault α) :=
    tryCatch (Except.ok <$> act path) fun e =>
      match fault? e with
      | some fault => return .error fault
      | none => throw e
  match ← done with
  | .ok a => return a
  | .error fault => throw (Failure.host { fault, path := p.text })

/-- What is at a path, which may lead nowhere. -/
def kindAt? (p : Path) : MachineRun (Option EntryKind) :=
  tryCatchThe Failure
    (atPath p fun path => do
      let entry ← IO.FS.realPath path
      return some (if ← entry.isDir then .folder else .file))
    fun
      | .host error => if error.fault.isNowhere then return none else throw (Failure.host error)
      | .overrun .path | .overrun .surrogate => return none
      | e => throw e

end MachineRun

/-- This machine as a host. It has no process to start: every command is one that is not
found. -/
instance : Host MachineRun where
  limits := return .usual
  load? text := return Yaml.usualLoad? text
  workplace := return .ofString (toString (← IO.currentDir))
  kind? := MachineRun.kindAt?
  readBytes p := MachineRun.atPath p fun path => return (← IO.FS.readBinFile path).toList
  makeFolder p := MachineRun.atPath p fun path => IO.FS.createDir path
  writeBytes p bytes :=
    MachineRun.atPath p fun path => IO.FS.writeBinFile path (ByteArray.mk bytes.toArray)
  start s := return .refused { fault := .missing, path := s.command.head? }
  log line := do if line.isShown (← read) then IO.eprint (String.ofList (WideText.shown line.text))
  print text := IO.print (String.ofList text)

/-- What a failure is called that ends a run without a code. -/
def Failure.shortText : Failure → String
  | .trace e => e.message
  | .host e => e.message
  | .overrun _ => "beyond the limits of this program"

/-- What the program can be asked for. -/
def usage : String :=
  "usage: jitlens [-h] [--version] [-v] run|parse|config|init ...\n"

end InlineReport

open InlineReport in
/-- Does what the command line asks for. -/
def main (args : List String) : IO UInt32 := do
  match CommandLine.read (args.map String.toList) with
  | .help =>
    IO.print usage
    return 0
  | .version =>
    IO.print CommandLine.versionText
    return 0
  | .misuse =>
    IO.eprint usage
    return 2
  | .request verbose r =>
    match ← ExceptT.run ((r.perform : MachineRun Nat).run verbose) with
    | .ok code => return code.toUInt32
    | .error e =>
      IO.eprintln e.shortText
      return 1
