import SheetBinding.Command

/-!
The command line. Reads the files that a request names, carries it out, and
prints and writes what the report says.
-/

namespace SheetBinding.Command

/-- The paths that a request may look at. -/
def Request.paths : Request → List String
  | .task _ (.validate sheet) => [sheet]
  | .task _ (.inspect sheet) => [sheet]
  | .task _ (.apply sheet document output) =>
    let result := output.getD ""
    [sheet, document, result, directoryOf result]
  | _ => []

/-- The content of a file; nothing if there is no such file or it cannot be
read. -/
def contentOf? (path : String) : IO (Option (List Text.Byte)) := do
  try
    return some (← IO.FS.readBinFile path).toList
  catch _ => return none

/-- Whether a file can be opened for reading. -/
def canOpen (path : String) : IO Bool := do
  try
    let _ ← IO.FS.Handle.mk path .read
    return true
  catch _ => return false

/-- Looks at some paths: the files among them with their content, and the
directories. What can be opened and has no content to read is a directory. -/
def look : List String → IO (List (String × List Text.Byte) × List String)
  | [] => return ([], [])
  | path :: rest => do
    let (found, directories) ← look rest
    match ← contentOf? path with
    | some content => return ((path, content) :: found, directories)
    | none =>
      if ← canOpen path then return (found, path :: directories)
      else return (found, directories)

/-- Carries out a request on the files that there are. -/
def execute (args : List String) : IO UInt32 := do
  let request := Request.ofArgs args
  let (found, directories) ← look request.paths
  let report := run ⟨fun path => found.lookup path,
    directories.contains⟩ request
  IO.print report.output
  IO.eprint (report.errors.getD
    "usage: bindsheet [OPTIONS] COMMAND [ARGS]...\n")
  if let some (path, bytes) := report.written then
    IO.FS.writeBinFile path ⟨bytes.toArray⟩
  if report.failure.isSome then IO.eprintln "Unexpected failure"
  return UInt32.ofNat report.exitCode

end SheetBinding.Command

/-- The program. -/
def main (args : List String) : IO UInt32 :=
  SheetBinding.Command.execute args
