import ManagedRegion.Image.Store
import ManagedRegion.Text.Utf8
import ManagedRegion.Toml.Format

/-!
# Settings: how a service is set up

The settings are a store path, a delay and an inventory path. They are read from a document, in
which every key may be left out and keys of other names are ignored; `Settings.faults` says what is
wrong with their values. `Settings.print?` writes them. How documents are written and read is up to
a format.
-/

namespace ManagedRegion

open Toml

/-- How a service is set up. -/
structure Settings where
  /-- The file that the host agent leaves its images in. -/
  storePath : String
  /-- The quiet time between the last load and the decode pass, in nanoseconds. -/
  debounce : Nat
  /-- The root of the inventory, reported along with a summary. -/
  inventoryPath : String
  deriving DecidableEq

namespace Settings

/-- The settings that hold where nothing else is said. -/
def default : Settings where
  storePath := "/var/lib/smbios/smbios2"
  debounce := 2000000000
  inventoryPath := "/xyz/openbmc_project/inventory/system"

/-- The number of nanoseconds of a number of milliseconds. -/
def nanosOfMillis (millis : Nat) : Nat := millis * 1000000

/-- The delay in whole milliseconds, of which 64 bits are kept. -/
def debounceMillis (s : Settings) : Nat := s.debounce / 1000000 % UInt64.size

/-- The longest delay that is allowed: a minute. -/
def maxDebounce : Nat := nanosOfMillis 60000

/-! ## Faults -/

/-- What can be wrong with the value of a setting. -/
inductive Fault where
  /-- The delay is zero or longer than a minute. -/
  | debounceRange
  /-- The inventory path is empty. -/
  | emptyInventoryPath
  deriving DecidableEq

/-- The setting that a fault concerns. -/
def Fault.field : Fault → String
  | debounceRange => "debounce"
  | emptyInventoryPath => "inventory_path"

/-- The name of a fault. -/
def Fault.code : Fault → String
  | debounceRange => "debounce_range"
  | emptyInventoryPath => "length"

/-- Whether the delay is allowed. -/
def hasDebounce (s : Settings) : Bool :=
  0 < s.debounce && s.debounce ≤ maxDebounce

/-- Everything that is wrong with the settings. -/
def faults (s : Settings) : List Fault :=
  (if s.hasDebounce then [] else [.debounceRange]) ++
    if s.inventoryPath = "" then [.emptyInventoryPath] else []

/-- Why there are no settings. -/
inductive Failure where
  /-- The file cannot be read as text. -/
  | unreadable
  /-- The text is no document, or a setting has a value of the wrong kind. -/
  | malformed
  /-- There are faults in the values. -/
  | invalid (faults : List Fault)
  deriving DecidableEq

/-- Lets settings without faults pass. -/
def validate (s : Settings) : Except Failure Settings :=
  if s.faults.isEmpty then .ok s else .error (.invalid s.faults)

/-! ## Reading -/

/-- The text of a key, or what holds if the key is not there. -/
def textOr? (entries : Entries) (key : String) (otherwise : String) : Option String :=
  match entries.get? key with
  | none => some otherwise
  | some (.string text) => some text
  | some _ => none

/-- The delay of a key in milliseconds, or what holds if the key is not there. -/
def delayOr? (entries : Entries) (key : String) (otherwise : Nat) : Option Nat :=
  match entries.get? key with
  | none => some otherwise
  | some (.integer n) => if 0 ≤ n then some (nanosOfMillis n.toNat) else none
  | some _ => none

/-- The settings that a document gives. -/
def ofEntries? (entries : Entries) : Option Settings := do
  let storePath ← textOr? entries "store_path" default.storePath
  let debounce ← delayOr? entries "debounce_ms" default.debounce
  let inventoryPath ← textOr? entries "inventory_path" default.inventoryPath
  return ⟨storePath, debounce, inventoryPath⟩

/-- Reads settings from a document. -/
def parse (format : Format) (text : String) : Except Failure Settings :=
  match (format.parse? text).bind ofEntries? with
  | none => .error .malformed
  | some s => s.validate

/-- Reads settings from a file. -/
def load (format : Format) (content : Image.FileContent) : Except Failure Settings :=
  match content.read with
  | .error _ => .error .unreadable
  | .ok bytes =>
    match Utf8.strict? bytes.toList with
    | none => .error .unreadable
    | some text => parse format (String.ofList text)

/-! ## Writing -/

/-- The settings as a table, the delay in whole milliseconds. -/
def entries (s : Settings) : Entries :=
  [("inventory_path", .string s.inventoryPath), ("debounce_ms", .integer s.debounceMillis),
    ("store_path", .string s.storePath)]

/-- The document of the settings, if they can be written. -/
def print? (format : Format) (s : Settings) : Option String :=
  format.print? s.entries

end Settings

end ManagedRegion
