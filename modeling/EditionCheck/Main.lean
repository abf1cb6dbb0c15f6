import EditionCheck.CommandLine.Program

/-!
# The command line program

Gives the program the files, variables and streams of the machine.
-/

set_option autoImplicit false

namespace EditionCheck.Machine

open EditionCheck.CommandLine EditionCheck.Files EditionCheck.Settings

/-- A fault with the wording and number of the system. -/
def systemFault (code : UInt32) (details : String) : Fault :=
  .other (details ++ " (os error " ++ toString code ++ ")")

/-- The cause of a failure of the machine. -/
def faultOf (e : IO.Error) : Fault :=
  match e with
  | .noFileOrDirectory _ _ _ => .notFound
  | .inappropriateType _ code details =>
    if code == 20 then .notDirectory else if code == 21 then .isDirectory
    else systemFault code details
  | .permissionDenied _ code details => systemFault code details
  | .invalidArgument _ code details =>
    if code == 40 then .tooManyLinks else if code == 36 then .nameTooLong
    else systemFault code details
  | other => .other (toString other)

/-- The result of an action, or the cause of its failure. -/
def attempt {α : Type} (action : IO α) : IO (Except Fault α) := do
  match ← action.toBaseIO with
  | .ok a => return .ok a
  | .error e => return .error (faultOf e)

/-- The path as the machine takes it: it must be a text without a NUL character. -/
def withPath {α : Type} (path : List UInt8) (action : String → IO (Except Fault α)) :
    IO (Except Fault α) :=
  match Text.Utf8.decode? path with
  | some chars =>
    if chars.contains '\x00' then return .error .nulInName else action (String.ofList chars)
  | none => return .error .notText

/-- The files of the machine. -/
def files : Access IO where
  kind path := withPath path fun p => attempt do
    let found ← (← IO.FS.realPath ⟨p⟩).metadata
    return if found.type == .dir then .directory else .file
  list path := withPath path fun p => attempt do
    let entries ← (← IO.FS.realPath ⟨p⟩).readDir
    return entries.toList.map fun e => Text.Utf8.encode e.fileName.toList
  read path := withPath path fun p => attempt do
    return (← IO.FS.readBinFile ⟨p⟩).toList

/-- The variable that an entry of the environment gives a value to. -/
def variableOf (entry : List UInt8) : Option (List Char × List UInt8) :=
  let name := entry.takeWhile (· != 61)
  match entry.drop name.length, Text.Utf8.decode? name with
  | _ :: value, some chars => some (chars, value)
  | _, _ => none

/-- The environment of the program. -/
def environment : IO Environment := do
  match ← attempt (IO.FS.readBinFile "/proc/self/environ") with
  | .ok bytes => return ⟨(bytes.toList.splitOn 0).filterMap variableOf⟩
  | .error _ => return .empty

/-- Prints a text to one of the standard streams. -/
def write (channel : Channel) (text : String) : ExceptT Fault IO Unit := do
  let stream ← match channel with
    | .out => IO.getStdout
    | .err => IO.getStderr
  ExceptT.mk (attempt (stream.putStr text >>= fun _ => stream.flush))

/-- The machine as the program sees it. -/
def world : World IO where
  files := files
  directory := do
    match ← attempt (IO.FS.realPath ".") with
    | .ok path => return some (Text.Utf8.encode path.toString.toList)
    | .error _ => return none
  write := write
  record line := do
    let _ ← (write .err (line ++ "\n")).run
    return ()

end EditionCheck.Machine

/-- Runs the program. -/
def main (arguments : List String) : IO UInt32 := do
  let environment ← EditionCheck.Machine.environment
  return (← EditionCheck.Machine.world.run environment arguments).toUInt32
