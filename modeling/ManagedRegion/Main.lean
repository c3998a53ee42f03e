import ManagedRegion.CommandLine.Run

/-!
# Main: the command line as a program

Reads the files that a command line names, prints the report to standard output and failures to
standard error, and leaves with the exit code of the outcome.
-/

open ManagedRegion ManagedRegion.CommandLine ManagedRegion.Image

/-- What an open file holds. What can be opened and not be read is taken for a directory. -/
def readOpened (handle : IO.FS.Handle) : IO FileContent :=
  try return .bytes (← handle.readBinToEnd).data
  catch _ => return .directory

/-- What stands at a path. -/
def readContent (path : String) : IO FileContent := do
  let opened : Option IO.FS.Handle ←
    try some <$> IO.FS.Handle.mk path .read
    catch _ => pure none
  match opened with
  | some handle => readOpened handle
  | none => return .missing

/-- The files that a command line needs: the settings, and the store that they name. -/
def snapshot (invocation : Invocation) : IO (String → FileContent) := do
  let config ← invocation.config.mapM fun path => return (path, ← readContent path)
  let settings : String → FileContent := fun path =>
    match config with
    | some (known, content) => if path = known then content else .missing
    | none => .missing
  match invocation.settings settings with
  | .error _ => return settings
  | .ok s =>
    let store ← readContent s.storePath
    return fun path => if path = s.storePath then store else settings path

/-- Runs the command line. -/
def main (arguments : List String) : IO UInt32 := do
  let files ← match Invocation.parse? arguments with
    | some invocation => snapshot invocation
    | none => pure fun _ => .missing
  let outcome := run files arguments
  match outcome with
  | .done stdout => IO.print stdout
  | .failed failure => IO.eprintln s!"Error: {failure.message}"
  | .rejected => IO.eprintln "usage: [--config FILE] [--store FILE] [--debounce-ms N] COMMAND"
  return outcome.exitCode.toUInt32
