import ManagedRegion.CommandLine.Arguments
import ManagedRegion.CommandLine.Report
import ManagedRegion.Platform.Documents
import ManagedRegion.Platform.Executor

/-!
# Run: from a command line to its outcome

A command line that is understood makes settings, the settings make a service, and the service makes
a report. Each of these steps but the last may fail. What stands in files is given as a function
from paths, so that nothing here reads a file; at most two are asked for.
-/

namespace ManagedRegion.CommandLine

open Image

/-- Why a command that was understood fails. -/
inductive Failure where
  /-- The file that holds the settings gives none. -/
  | settings (path : String)
  /-- The settings are not allowed with what the command line says. -/
  | overrides
  /-- The store has no table that could be loaded. -/
  | noTable (storePath : String)
  deriving DecidableEq

/-- The text of a failure. -/
def Failure.message : Failure → String
  | settings path => "loading " ++ path
  | overrides => "invalid configuration overrides"
  | noTable storePath => "no valid SMBIOS table in " ++ storePath

/-- What comes of a command line. -/
inductive Outcome where
  /-- It is done, and has printed this. -/
  | done (stdout : String)
  /-- It has failed. -/
  | failed (failure : Failure)
  /-- It was not understood. -/
  | rejected

/-- The exit code. -/
def Outcome.exitCode : Outcome → UInt8
  | done _ => 0
  | failed _ => 1
  | rejected => 2

/-- What has been printed. -/
def Outcome.stdout : Outcome → String
  | done stdout => stdout
  | failed _ | rejected => ""

namespace Invocation

/-- The settings that hold before what the command line says. -/
def baseSettings (invocation : Invocation) (files : String → FileContent) :
    Except Failure Settings :=
  match invocation.config with
  | none => .ok .default
  | some path => (Settings.ofFile (files path)).mapError fun _ => .settings path

/-- The settings with what the command line says in their place. -/
def override (invocation : Invocation) (s : Settings) : Settings :=
  { s with
    storePath := invocation.store.getD s.storePath
    debounce := (invocation.debounce.map Settings.nanosOfMillis).getD s.debounce }

/-- The settings that hold. -/
def settings (invocation : Invocation) (files : String → FileContent) :
    Except Failure Settings := do
  let base ← invocation.baseSettings files
  (invocation.override base).validate.mapError fun _ => .overrides

/-- The report of a command, given what stands in the store. For an inventory the service is left
alone until the decode pass has run. -/
def report (invocation : Invocation) (s : Settings) (store : FileContent) : Except Failure Json :=
  let service := Service.start .delayed s.debounceMillis (.file store)
  match invocation.command with
  | .status => .ok (Report.status s.storePath service)
  | .list type => .ok (Report.list service.table type)
  | .memory => .ok (Report.memory service.table)
  | .inventory =>
    match (service.advance s.debounceMillis).latestInventory? with
    | some inventory => .ok (Report.inventory s.inventoryPath inventory)
    | none => .error (.noTable s.storePath)

end Invocation

/-- Carries a command line out. -/
def run (files : String → FileContent) (arguments : List String) : Outcome :=
  match Invocation.parse? arguments with
  | none => .rejected
  | some invocation =>
    let result := do
      let settings ← invocation.settings files
      invocation.report settings (files settings.storePath)
    match result with
    | .ok report => .done (report.pretty ++ "\n")
    | .error failure => .failed failure

end ManagedRegion.CommandLine
