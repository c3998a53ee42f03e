import ManagedRegion.Platform.Executor
import ManagedRegion.Proofs.Load
import ManagedRegion.Service.Request

/-!
# Synchronization: what a pull changes, and what it leaves alone

A pull puts the structure table's entry into the stage `updating` before it knows whether the load
will succeed. If it does, the entry takes over what the load reports, and a decode pass is armed
(`TakesOver`); if it does not, the directory is as it was, with the stage that the entry had, and so
is what waits for the timer (`Untouched`). Nothing else ever changes but the table (`Keeps`).

All this holds of every service, whatever the stages and locks of its entries are and whatever waits
(`synchronize_effect`).
-/

namespace ManagedRegion

open Image Region Smbios

/-- The low byte of a version that was one byte is that byte. -/
theorem Region.Entry.information_markLoaded (entry : Entry) (dirVersion : UInt8)
    (timestamp size : UInt32) :
    (entry.markLoaded dirVersion.toUInt32 timestamp size).information =
      [2] ++ entry.id.toList ++ [1] ++ Bytes.toBigEndian 4 size.toNat ++ [dirVersion] ++
        Bytes.toBigEndian 4 timestamp.toNat := by
  have hbyte : dirVersion.toUInt32.toUInt8 = dirVersion := UInt8.toUInt8_toUInt32 dirVersion
  show _ ++ [dirVersion.toUInt32.toUInt8] ++ _ = _
  rw [hbyte]
  rfl

namespace Service

/-! ## The three parts of the effect -/

/-- What a pull leaves alone, whatever comes of it. -/
structure Keeps (s after : Service) : Prop where
  /-- The structure table's region keeps its identity. -/
  id_eq : after.directory.tableEntry.id = s.directory.tableEntry.id
  /-- It keeps the size that the agent has announced. -/
  dataSetSize_eq : after.directory.tableEntry.dataSetSize = s.directory.tableEntry.dataSetSize
  /-- The other regions keep their entries. -/
  entry_eq : ∀ slot, slot ≠ Directory.tableSlot →
    after.directory.entry slot = s.directory.entry slot
  /-- The version of the local agent is kept. -/
  agentVersion_eq : after.directory.agentVersion = s.directory.agentVersion
  /-- The version of the directory is kept. -/
  dirVersion_eq : after.directory.dirVersion = s.directory.dirVersion
  /-- The number of populated slots is kept. -/
  dirEntries_eq : after.directory.dirEntries = s.directory.dirEntries
  /-- The status of the directory is kept. -/
  status_eq : after.directory.status = s.directory.status
  /-- The version of the remote directory is kept. -/
  remoteDirVersion_eq : after.directory.remoteDirVersion = s.directory.remoteDirVersion
  /-- The number of entries that was last published is kept. -/
  published_eq : after.published = s.published
  /-- The store is only read. -/
  store_eq : after.store = s.store

/-- What a pull does whose load succeeds with a report. -/
structure TakesOver (s : Service) (report : LoadReport) (after : Service) : Prop where
  /-- The version of the content is that of the image's directory. -/
  dataVersion_eq : after.directory.tableEntry.dataVersion = report.header.dirVersion.toUInt32
  /-- The timestamp is that of the image. -/
  timestamp_eq : after.directory.tableEntry.timestamp = report.header.timestamp
  /-- The size is that of the image's content. -/
  size_eq : after.directory.tableEntry.size = report.header.dataSize
  /-- The entry counts as loaded. -/
  stage_eq : after.directory.tableEntry.stage = .loaded
  /-- The entry is free. -/
  lock_eq : after.directory.tableEntry.lock = .unlocked
  /-- With a timer a decode pass waits in the place of what waited, for the whole delay. -/
  armed : s.debouncer.timing = .delayed →
    after.debouncer = { s.debouncer with
      pending := some ⟨s.debouncer.now + s.debouncer.delay, .decode⟩ } ∧
    after.handedOver = s.handedOver
  /-- Without a timer the decode pass has handed the new table over, and nothing waits. -/
  decoded : s.debouncer.timing = .immediate →
    after.debouncer = { s.debouncer with pending := none } ∧
    after.handedOver = after.table :: s.handedOver
  /-- The region is described with what was taken over. -/
  information_eq : (after.handle (.dataInformation 0)).1 = .ok (.bytes
    ([2] ++ s.directory.tableEntry.id.toList ++ [1] ++
      Bytes.toBigEndian 4 report.header.dataSize.toNat ++ [report.header.dirVersion] ++
      Bytes.toBigEndian 4 report.header.timestamp.toNat))

/-- What a pull leaves as it was if its load fails. -/
structure Untouched (s after : Service) : Prop where
  /-- The whole directory is as before, the stage of the structure table's entry included. -/
  directory_eq : after.directory = s.directory
  /-- What waits goes on waiting, until the same deadline. -/
  debouncer_eq : after.debouncer = s.debouncer
  /-- No decode pass has run. -/
  handedOver_eq : after.handedOver = s.handedOver

/-! ## A load that fails -/

variable {s : Service}

/-- What is as it was is kept. -/
theorem Untouched.keeps {after : Service} (h : Untouched s after)
    (hpublished : after.published = s.published) (hstore : after.store = s.store) :
    Keeps s after := by
  constructor
  case published_eq => exact hpublished
  case store_eq => exact hstore
  all_goals
    intros
    rw [h.directory_eq]

/-- A load that fails leaves the directory and the timer as they were. -/
theorem untouched_pull {failure : LoadFailure} {table : Table}
    (hload : load s.store s.table = (.error failure, table)) : Untouched s s.pull.2 := by
  rw [pull_of_error hload]
  exact ⟨rfl, rfl, rfl⟩

/-! ## A load that succeeds -/

/-- Arming a decode pass changes the timer and the journal, and nothing else. -/
theorem arm_decode_keeps (s : Service) :
    ∃ debouncer journal, s.arm .decode decode = { s with debouncer, journal } := by
  cases htiming : s.debouncer.timing with
  | immediate => exact ⟨s.debouncer.cancel, _, arm_of_immediate htiming _ _⟩
  | delayed => exact ⟨_, s.journal, arm_of_delayed htiming _ _⟩

/-- What is taken over from a load concerns the structure table's entry alone. -/
theorem keeps_markLoaded (s : Service) (report : LoadReport) : Keeps s (s.markLoaded report) := by
  have hentry : (s.markLoaded report).directory.tableEntry =
      s.directory.tableEntry.markLoaded report.header.dirVersion.toUInt32 report.header.timestamp
        report.header.dataSize := Directory.entry_setEntry_self _ _ _
  constructor
  case id_eq => rw [hentry]; rfl
  case dataSetSize_eq => rw [hentry]; rfl
  case entry_eq => exact fun slot hslot => Directory.entry_setEntry_of_ne _ _ hslot
  all_goals rfl

/-- A load that succeeds changes no more than what it reports on. -/
theorem keeps_pull {report : LoadReport} {table : Table}
    (hload : load s.store s.table = (.ok report, table)) : Keeps s s.pull.2 := by
  let loaded : Service := { s with table }.note (.pulled (.ok report) table)
  obtain ⟨debouncer, journal, harm⟩ := arm_decode_keeps (loaded.markLoaded report)
  have hkept := keeps_markLoaded loaded report
  rw [pull_of_ok hload]
  show Keeps s ((loaded.markLoaded report).arm .decode decode)
  rw [harm]
  exact ⟨hkept.id_eq, hkept.dataSetSize_eq, hkept.entry_eq, rfl, rfl, rfl, rfl, rfl, rfl, rfl⟩

/-- A load that succeeds is taken over, and its table is handed over now or later. -/
theorem takesOver_pull {report : LoadReport} {table : Table}
    (hload : load s.store s.table = (.ok report, table)) : TakesOver s report s.pull.2 := by
  let loaded : Service := { s with table }.note (.pulled (.ok report) table)
  have hpull : s.pull.2 = (loaded.markLoaded report).arm .decode decode := by
    rw [pull_of_ok hload]
  have hentry : s.pull.2.directory.tableEntry =
      s.directory.tableEntry.markLoaded report.header.dirVersion.toUInt32 report.header.timestamp
        report.header.dataSize := by
    obtain ⟨debouncer, journal, harm⟩ := arm_decode_keeps (loaded.markLoaded report)
    rw [hpull, harm]
    exact Directory.entry_setEntry_self _ _ _
  constructor
  case dataVersion_eq => rw [hentry]; rfl
  case timestamp_eq => rw [hentry]; rfl
  case size_eq => rw [hentry]; rfl
  case stage_eq => rw [hentry]; rfl
  case lock_eq => rw [hentry]; rfl
  case armed =>
    intro htiming
    have hmarked : (loaded.markLoaded report).debouncer.timing = .delayed := htiming
    rw [hpull, arm_of_delayed hmarked]
    exact ⟨rfl, rfl⟩
  case decoded =>
    intro htiming
    have hmarked : (loaded.markLoaded report).debouncer.timing = .immediate := htiming
    rw [hpull, arm_of_immediate hmarked]
    exact ⟨rfl, rfl⟩
  case information_eq =>
    have hinformation := Entry.information_markLoaded s.directory.tableEntry
      report.header.dirVersion report.header.timestamp report.header.dataSize
    show Except.ok (Response.bytes s.pull.2.directory.tableEntry.information) = _
    rw [hentry, hinformation]

/-- Whatever comes of the load, a pull changes no more than what it would report on. -/
theorem keeps_pull_snd (s : Service) : Keeps s s.pull.2 := by
  rcases hload : load s.store s.table with ⟨failure | report, table⟩
  · have huntouched := untouched_pull hload
    rw [pull_of_error hload] at huntouched ⊢
    exact huntouched.keeps rfl rfl
  · exact keeps_pull hload

/-! ## The whole effect -/

/-- A pull reports what the load does, and leaves the table that the load leaves. -/
theorem pull_load (s : Service) :
    s.pull.1 = (load s.store s.table).1 ∧ s.pull.2.table = (load s.store s.table).2 := by
  rcases hload : load s.store s.table with ⟨failure | report, table⟩
  · rw [pull_of_error hload]
    exact ⟨rfl, rfl⟩
  · rw [pull_of_ok hload]
    refine ⟨rfl, ?_⟩
    let loaded : Service := { s with table }.note (.pulled (.ok report) table)
    obtain ⟨debouncer, journal, harm⟩ := arm_decode_keeps (loaded.markLoaded report)
    show ((loaded.markLoaded report).arm .decode decode).table = table
    rw [harm]
    rfl

/-- **What a synchronization does.** It reports what the load does, or just whether it succeeds, and
leaves the table that the load leaves. If the load succeeds, the structure table's entry takes over
what it reports and a decode pass is armed; if it fails, the directory and the timer are as before.
Everything else is kept. -/
theorem synchronize_effect (s : Service) :
    s.handle .pull = (((load s.store s.table).1.map .report).mapError .notLoaded, s.pull.2) ∧
    s.handle .synchronize = (.ok (.flag (load s.store s.table).1.isOk), s.pull.2) ∧
    s.pull.2.table = (load s.store s.table).2 ∧
    Keeps s s.pull.2 ∧
    match (load s.store s.table).1 with
    | .ok report => TakesOver s report s.pull.2
    | .error _ => Untouched s s.pull.2 := by
  obtain ⟨houtcome, htable⟩ := pull_load s
  have hreport : s.handle .pull = ((s.pull.1.map .report).mapError .notLoaded, s.pull.2) := rfl
  have hflag : s.handle .synchronize = (.ok (.flag s.pull.1.isOk), s.pull.2) := rfl
  rw [houtcome] at hreport hflag
  refine ⟨hreport, hflag, htable, ?_⟩
  rcases hload : load s.store s.table with ⟨failure | report, table⟩
  · have huntouched := untouched_pull hload
    refine ⟨huntouched.keeps ?_ ?_, huntouched⟩
    · rw [pull_of_error hload]
      rfl
    · rw [pull_of_error hload]
      rfl
  · exact ⟨keeps_pull hload, takesOver_pull hload⟩

/-- A service whose structure table is locked and on its way is freed by an image that can be
loaded, and goes on as it is with one that cannot. -/
theorem synchronize_effect_locked :
    let held : Entry := { Entry.fresh .smbiosTable with stage := .updating, lock := .locked }
    let s : Service := { idle .delayed 2000 (.memory (some (encode 1 0 minimalContent))) with
      directory := Directory.initial.setEntry Directory.tableSlot held }
    s.pull.2.directory.tableEntry.lock = .unlocked ∧ s.pull.2.isPending = true ∧
      { s with store := .memory none }.pull.2.directory.tableEntry = held := by
  intro held s
  obtain ⟨-, -, -, -, hloaded⟩ := synchronize_effect s
  obtain ⟨-, -, -, -, hfailed⟩ := synchronize_effect { s with store := .memory none }
  have hload : load s.store s.table = (.ok minimalReport, Table.ofBytes minimalContent) :=
    load_minimalContent s.table
  rw [hload] at hloaded
  refine ⟨hloaded.lock_eq, ?_, ?_⟩
  · rw [isPending, (hloaded.armed rfl).1]
    rfl
  · rw [hfailed.directory_eq]
    exact Directory.entry_setEntry_self _ _ _

end Service

end ManagedRegion
