import ManagedRegion.Debouncer
import ManagedRegion.Image.Load
import ManagedRegion.Region.Directory
import ManagedRegion.Smbios.Inventory

/-!
# State: what a service holds, and the work that it does on its own

A service owns the table, the directory and one debounce timer. A pull loads the table from the
store and, if that succeeds, arms a decode pass; a decode pass hands the table to the consumer. The
timer has one slot, so arming a decode pass or a pull replaces whatever waited there.

Everything that happened is kept in a journal, newest first. The number of decode passes and the
latest inventory are read from it.
-/

namespace ManagedRegion

open Image Region Smbios

/-- What the timer can be armed with. -/
inductive Action where
  /-- Hand the table to the consumer. -/
  | decode
  /-- Load the table from the store. -/
  | pull
  deriving DecidableEq

/-- What a journal notes. -/
inductive Event where
  /-- A new size was recorded for a region, to be followed by a pull. -/
  | resized (slot : Fin Directory.slots) (size : UInt32)
  /-- The table was loaded, with this outcome and this content afterwards. -/
  | pulled (outcome : Except LoadFailure LoadReport) (table : Table)
  /-- This table was handed to the consumer. -/
  | decoded (table : Table)

/-- The table that an event handed to the consumer. -/
def Event.handedOver? : Event → Option Table
  | decoded table => some table
  | resized .. | pulled .. => none

/-- The state of a service. -/
structure Service where
  /-- The regions that it manages. -/
  directory : Directory
  /-- The current table. -/
  table : Table
  /-- The number of entries that was last published. -/
  published : UInt8
  /-- Where the latest image is kept. -/
  store : Store
  /-- The timer. -/
  debouncer : Debouncer Action
  /-- What happened, newest first. -/
  journal : List Event

namespace Service

/-! ## What the journal says -/

/-- The tables handed to the consumer, newest first. -/
def handedOver (s : Service) : List Table :=
  s.journal.filterMap Event.handedOver?

/-- The number of decode passes so far. -/
def decodes (s : Service) : Nat :=
  s.handedOver.length

/-- The inventory of the table that was last handed to the consumer. -/
def latestInventory? (s : Service) : Option Inventory :=
  s.handedOver.head?.map Inventory.collect

/-- Whether something waits for the timer. -/
def isPending (s : Service) : Bool :=
  s.debouncer.isPending

/-- Notes an event. -/
def note (s : Service) (event : Event) : Service :=
  { s with journal := event :: s.journal }

/-! ## Decode passes and pulls -/

/-- Arms an action. If it is due at once, it is carried out by `run`. -/
def arm (s : Service) (action : Action) (run : Service → Service) : Service :=
  match s.debouncer.arm action with
  | (none, debouncer) => { s with debouncer }
  | (some _, debouncer) => run { s with debouncer }

/-- Without a timer the action is carried out, and what waited is forgotten. -/
theorem arm_of_immediate {s : Service} (h : s.debouncer.timing = .immediate) (action : Action)
    (run : Service → Service) :
    s.arm action run = run { s with debouncer := s.debouncer.cancel } := by
  have harm : s.debouncer.arm action = (some action, s.debouncer.cancel) := by
    rw [Debouncer.arm, h]
  rw [arm, harm]

/-- With a timer the action waits for the delay, in the place of what waited. -/
theorem arm_of_delayed {s : Service} (h : s.debouncer.timing = .delayed) (action : Action)
    (run : Service → Service) :
    s.arm action run = { s with debouncer := { s.debouncer with
      pending := some ⟨s.debouncer.now + s.debouncer.delay, action⟩ } } := by
  have harm : s.debouncer.arm action = (none, { s.debouncer with
      pending := some ⟨s.debouncer.now + s.debouncer.delay, action⟩ }) := by
    simp only [Debouncer.arm, h]
  rw [arm, harm]

/-- Hands the table to the consumer. -/
def decode (s : Service) : Service :=
  s.note (.decoded s.table)

/-- Sets the stage of the structure table's entry. -/
def setStage (s : Service) (stage : Stage) : Service :=
  let entry := { s.directory.tableEntry with stage }
  { s with directory := s.directory.setEntry Directory.tableSlot entry }

/-- Takes over what a load that succeeded reports about the structure table. -/
def markLoaded (s : Service) (report : LoadReport) : Service :=
  let header := report.header
  let entry := s.directory.tableEntry.markLoaded header.dirVersion.toUInt32 header.timestamp
    header.dataSize
  { s with directory := s.directory.setEntry Directory.tableSlot entry }

/-- Loads the table from the store; the entry of the table counts as being updated meanwhile. If
that succeeds, the entry is brought up to date and a decode pass is armed; if it fails, the entry
gets the stage back that it had. -/
def pull (s : Service) : Except LoadFailure LoadReport × Service :=
  let prior := s.directory.tableEntry.stage
  let (outcome, table) := load s.store s.table
  let loaded := { s.setStage .updating with table }.note (.pulled outcome table)
  match outcome with
  | .error failure => (.error failure, loaded.setStage prior)
  | .ok report => (.ok report, (loaded.markLoaded report).arm .decode decode)

/-- The stage that was set last is the one that stays. -/
@[simp] theorem setStage_setStage (s : Service) (first second : Stage) :
    (s.setStage first).setStage second = s.setStage second := by
  simp [setStage, Directory.tableEntry]

/-- Setting the stage that is there changes nothing. -/
@[simp] theorem setStage_stage (s : Service) : s.setStage s.directory.tableEntry.stage = s := by
  have hsame : s.directory.setEntry Directory.tableSlot s.directory.tableEntry = s.directory :=
    s.directory.setEntry_entry Directory.tableSlot
  show { s with directory := s.directory.setEntry Directory.tableSlot s.directory.tableEntry } = s
  rw [hsame]

/-- What a load reports takes the place of the stage. -/
@[simp] theorem markLoaded_setStage (s : Service) (stage : Stage) (report : LoadReport) :
    (s.setStage stage).markLoaded report = s.markLoaded report := by
  simp [setStage, markLoaded, Directory.tableEntry, Entry.markLoaded]

/-- A pull whose load fails leaves the table that the load left, and the directory as it was. -/
theorem pull_of_error {s : Service} {failure : LoadFailure} {table : Table}
    (hload : load s.store s.table = (.error failure, table)) :
    s.pull = (.error failure, { s with table }.note (.pulled (.error failure) table)) := by
  let left : Service := { s with table }.note (.pulled (.error failure) table)
  have hrestored : (left.setStage .updating).setStage left.directory.tableEntry.stage = left := by
    rw [setStage_setStage, setStage_stage]
  rw [pull, hload]
  exact congrArg (Prod.mk (Except.error failure)) hrestored

/-- A pull whose load succeeds brings the entry up to date and arms a decode pass. -/
theorem pull_of_ok {s : Service} {report : LoadReport} {table : Table}
    (hload : load s.store s.table = (.ok report, table)) :
    s.pull = (.ok report,
      (({ s with table }.note (.pulled (.ok report) table)).markLoaded report).arm
        .decode decode) := by
  let left : Service := { s with table }.note (.pulled (.ok report) table)
  have hmarked : (left.setStage .updating).markLoaded report = left.markLoaded report :=
    markLoaded_setStage left .updating report
  rw [pull, hload]
  exact congrArg (fun marked : Service => (Except.ok report, marked.arm .decode decode)) hmarked

/-- Carries an action out. -/
def perform (s : Service) : Action → Service
  | .decode => s.decode
  | .pull => s.pull.2

/-- Records a new size for a region and arms a pull. -/
def resize (s : Service) (slot : Fin Directory.slots) (size : UInt32) : Service :=
  let entry := { s.directory.entry slot with size }
  let resized := { s with directory := s.directory.setEntry slot entry }.note (.resized slot size)
  resized.arm .pull (·.perform .pull)

/-! ## Time -/

/-- Carries out the action that waits, if it is due at `time` or before. -/
def runDue (s : Service) (time : Nat) : Service :=
  match s.debouncer.takeDue time with
  | (none, _) => s
  | (some action, debouncer) => { s with debouncer }.perform action

/-- Moves the clock forward and leaves nothing undone that is due by then. A pull may arm a decode
pass and a decode pass arms nothing, so two actions are all that can be due. -/
def advance (s : Service) (time : Nat) : Service :=
  let target := s.debouncer.now + time
  let settled := (s.runDue target).runDue target
  { settled with debouncer := settled.debouncer.setClock target }

/-! ## The beginning -/

/-- A service before its first pull: an empty table, and a directory that names the table. -/
def idle [Timer] (timing : Timing) (delay : Nat) (store : Store) : Service where
  directory := .initial
  table := .empty
  published := Directory.initial.dirEntries
  store := store
  debouncer := .create timing delay
  journal := []

/-- A service begins with a pull; it goes on whatever comes of it. -/
def start [Timer] (timing : Timing) (delay : Nat) (store : Store) : Service :=
  (idle timing delay store).pull.2

end Service

end ManagedRegion
