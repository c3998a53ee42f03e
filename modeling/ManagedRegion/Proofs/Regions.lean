import ManagedRegion.Platform.Executor
import ManagedRegion.Proofs.Load
import ManagedRegion.Proofs.Moves

/-!
# Regions: what holds of the directory in every run

Agents push pages and metadata, sizes are recorded, loads succeed and fail, and whatever the order
is, the directory stays in bounds: one to four entries are populated, no lock is ever taken, no
entry stays in the stage `updating`, and only the structure table's region ever has content, from
the first load that succeeds on (`regular_start_run`).

The invariant is said of an entry, of a directory and of a service (`Settled`), each time with what
is known of the content, and each change of an entry, a directory or a service keeps it. A page is
the only thing that changes the number of populated slots, and `receivePage` lets it pass only if it
fits (`Directory.Settled.apply`).
-/

namespace ManagedRegion

open Image Region Smbios

/-! ## Entries -/

namespace Region.Entry

variable {entry : Entry} {content : Bool}

/-- An entry between two requests: it is free, no content is on its way, and it has content or
not. -/
structure Settled (entry : Entry) (content : Bool) : Prop where
  /-- The lock is free. -/
  lock_eq : entry.lock = .unlocked
  /-- No content is on its way. -/
  stage_ne : entry.stage ≠ .updating
  /-- There is content or not. -/
  hasContent_eq : entry.stage.hasContent = content

/-- A region of which nothing is known has no content. -/
theorem settled_fresh (id : DataId) : (fresh id).Settled false :=
  ⟨rfl, by simp [fresh], rfl⟩

/-- A name says nothing about the content. -/
theorem Settled.rename (h : entry.Settled content) (id? : Option DataId) :
    (Directory.rename entry id?).Settled content := by
  cases id? with
  | none => exact h
  | some id => exact ⟨h.lock_eq, h.stage_ne, h.hasContent_eq⟩

/-- A size says nothing about the content. -/
theorem Settled.resize (h : entry.Settled content) (size : UInt32) :
    { entry with size }.Settled content :=
  ⟨h.lock_eq, h.stage_ne, h.hasContent_eq⟩

/-- Metadata that are announced can only make updated content of content. -/
theorem Settled.announce (h : entry.Settled content) (dataSetSize dataVersion timestamp : UInt32) :
    (entry.announce dataSetSize dataVersion timestamp).2.Settled content := by
  have hstage := h.hasContent_eq
  unfold Entry.announce
  dsimp only
  split
  · next hchanged =>
    refine ⟨h.lock_eq, Stage.noConfusion, ?_⟩
    rw [← hstage, hchanged.2]
    rfl
  · exact ⟨h.lock_eq, h.stage_ne, hstage⟩

/-- Content that has been loaded is content. -/
theorem settled_markLoaded (entry : Entry) (dataVersion timestamp size : UInt32) :
    (entry.markLoaded dataVersion timestamp size).Settled true :=
  ⟨rfl, by simp [markLoaded], rfl⟩

/-- An entry without content is in the first stage. -/
theorem Settled.stage_eq_init_iff (h : entry.Settled content) :
    entry.stage = .init ↔ content = false := by
  have hstage := h.hasContent_eq
  have hne := h.stage_ne
  cases hcase : entry.stage <;> simp_all [Stage.hasContent]

/-- A settled entry is free to be pushed to. -/
theorem Settled.isAvailable (h : entry.Settled content) : entry.isAvailable = true := by
  have hlock := h.lock_eq
  have hne := h.stage_ne
  unfold Entry.isAvailable
  split
  · next hupdating => exact absurd hupdating hne
  · rfl
  · exact decide_eq_true hlock
  · exact decide_eq_true hlock

end Region.Entry

/-! ## Directories -/

namespace Region.Directory

variable {d : Directory} {before after loaded : Bool} {slot : Fin slots} {entry : Entry}

/-- A directory between two requests, with or without content for the structure table. -/
structure Settled (d : Directory) (loaded : Bool) : Prop where
  /-- At least one slot is populated. -/
  entries_pos : 0 < d.dirEntries.toNat
  /-- No more slots are populated than there are. -/
  entries_le : d.dirEntries.toNat ≤ slots
  /-- The version of the local agent is the one of the beginning. -/
  agentVersion_eq : d.agentVersion = initial.agentVersion
  /-- The status is the one of the beginning. -/
  status_eq : d.status = initial.status
  /-- The version of the remote directory is the one of the beginning. -/
  remoteDirVersion_eq : d.remoteDirVersion = initial.remoteDirVersion
  /-- The entries are settled, and only the structure table's region may have content. -/
  entry_settled : ∀ slot, (d.entry slot).Settled (decide (slot = tableSlot) && loaded)

/-- At the beginning there is no content. -/
theorem settled_initial : initial.Settled false where
  entries_pos := by decide
  entries_le := by decide
  agentVersion_eq := rfl
  status_eq := rfl
  remoteDirVersion_eq := rfl
  entry_settled
    | 0 => Entry.settled_fresh .smbiosTable
    | 1 | 2 | 3 => Entry.settled_fresh .zero

/-- Putting an entry into a slot keeps a directory settled, if the entry is; only the structure
table's entry may say something else about the content than the one before. -/
theorem Settled.setEntry (h : d.Settled before) (hsame : slot = tableSlot ∨ before = after)
    (hentry : entry.Settled (decide (slot = tableSlot) && after)) :
    (d.setEntry slot entry).Settled after where
  entries_pos := h.entries_pos
  entries_le := h.entries_le
  agentVersion_eq := h.agentVersion_eq
  status_eq := h.status_eq
  remoteDirVersion_eq := h.remoteDirVersion_eq
  entry_settled other := by
    by_cases hother : other = slot
    · rw [hother, entry_setEntry_self]
      exact hentry
    · rw [entry_setEntry_of_ne d entry hother]
      have hkept := h.entry_settled other
      -- the other slots are not the structure table's, or its content is what it was
      rcases hsame with rfl | rfl
      · rw [decide_eq_false hother] at hkept ⊢
        exact hkept
      · exact hkept

/-- A page that is not empty and fits keeps a directory settled. -/
theorem Settled.apply (h : d.Settled loaded) {page : Page} (hcount : page.count.toNat ≠ 0)
    (hfits : page.slot.toNat + page.count.toNat ≤ slots) : (d.apply page).Settled loaded where
  entries_pos := Nat.pos_of_ne_zero hcount
  entries_le := Nat.le_of_add_left_le hfits
  agentVersion_eq := h.agentVersion_eq
  status_eq := h.status_eq
  remoteDirVersion_eq := h.remoteDirVersion_eq
  entry_settled slot := by
    rw [entry_apply]
    exact (h.entry_settled slot).rename _

/-- As many entries are populated as are said to be, if there are so many slots. -/
theorem length_populated (h : d.dirEntries.toNat ≤ slots) :
    d.populated.length = d.dirEntries.toNat := by
  rw [populated, List.length_take, Vector.length_toList]
  exact Nat.min_eq_left h

/-- The populated entries are those of the first slots. -/
theorem getElem?_populated (d : Directory) {i : Nat} (hi : i < d.dirEntries.toNat) :
    d.populated[i]? = d.entry? i := by
  rw [populated, List.getElem?_take_of_lt hi, Vector.getElem?_toList]
  rfl

end Region.Directory

/-! ## Services -/

namespace Service

variable {s : Service}

/-- A service between two requests: its directory is settled, with content for the structure table
if a load has succeeded, and what it has published was in bounds. -/
structure Settled (s : Service) : Prop where
  /-- The directory is settled. -/
  directory_settled : s.directory.Settled (!(loads s.journal).isEmpty)
  /-- No more entries were published than there are slots. -/
  published_le : s.published.toNat ≤ Directory.slots

/-- Only the directory, the published number and the loads that succeeded matter. -/
theorem Settled.congr {t : Service} (h : s.Settled) (hdirectory : t.directory = s.directory)
    (hpublished : t.published = s.published) (hloads : loads t.journal = loads s.journal) :
    t.Settled where
  directory_settled := by
    rw [hdirectory, hloads]
    exact h.directory_settled
  published_le := by
    rw [hpublished]
    exact h.published_le

/-- Before its first pull a service has no content. -/
theorem settled_idle [Timer] (timing : Timing) (delay : Nat) (store : Store) :
    (idle timing delay store).Settled :=
  ⟨Directory.settled_initial, Directory.settled_initial.entries_le⟩

/-- Arming an action keeps a service settled, if carrying it out does. -/
theorem Settled.arm (h : s.Settled) (action : Action) {run : Service → Service}
    (hrun : ∀ {t : Service}, t.Settled → (run t).Settled) : (s.arm action run).Settled := by
  cases htiming : s.debouncer.timing with
  | immediate =>
    rw [arm_of_immediate htiming]
    exact hrun (h.congr rfl rfl rfl)
  | delayed =>
    rw [arm_of_delayed htiming]
    exact h.congr rfl rfl rfl

/-- A decode pass keeps a service settled. -/
theorem Settled.decode (h : s.Settled) : s.decode.Settled :=
  h.congr rfl rfl rfl

/-- A pull keeps a service settled: if it fails nothing changes but the table, and if it succeeds
the structure table has content. -/
theorem Settled.pull (h : s.Settled) : s.pull.2.Settled := by
  rcases hload : load s.store s.table with ⟨failure | report, table⟩
  · rw [pull_of_error hload]
    exact h.congr rfl rfl rfl
  · rw [pull_of_ok hload]
    have hmarked : (({ s with table }.note (.pulled (.ok report) table)).markLoaded
        report).Settled :=
      ⟨h.directory_settled.setEntry (.inl rfl) (Entry.settled_markLoaded _ _ _ _), h.published_le⟩
    exact hmarked.arm .decode Settled.decode

/-- Whatever was armed keeps a service settled. -/
theorem Settled.perform (h : s.Settled) (action : Action) : (s.perform action).Settled := by
  cases action with
  | decode => exact h.decode
  | pull => exact h.pull

/-- Recording a size keeps a service settled, and so does the pull that follows. -/
theorem Settled.resize (h : s.Settled) (slot : Fin Directory.slots) (size : UInt32) :
    (s.resize slot size).Settled := by
  let resized : Service := { s with
    directory := s.directory.setEntry slot { s.directory.entry slot with size }
    journal := .resized slot size :: s.journal }
  have hentry := (h.directory_settled.entry_settled slot).resize size
  have hresized : resized.Settled :=
    ⟨h.directory_settled.setEntry (.inr rfl) hentry, h.published_le⟩
  show (resized.arm .pull (·.perform .pull)).Settled
  exact hresized.arm .pull fun ht => ht.pull

/-! ## Time -/

/-- What is due keeps a service settled. -/
theorem Settled.runDue (h : s.Settled) (time : Nat) : (s.runDue time).Settled := by
  unfold Service.runDue
  split
  · exact h
  · have htaken (debouncer : Debouncer Action) : { s with debouncer }.Settled :=
      h.congr rfl rfl rfl
    exact (htaken _).perform _

/-- Moving the clock keeps a service settled. -/
theorem Settled.advance (h : s.Settled) (time : Nat) : (s.advance time).Settled := by
  unfold Service.advance
  have hsettled := (h.runDue (s.debouncer.now + time)).runDue (s.debouncer.now + time)
  exact hsettled.congr rfl rfl rfl

/-! ## Requests -/

/-- A page is taken over only if it fits. -/
theorem Settled.receivePage (h : s.Settled) (page : Directory.Page) :
    (s.receivePage page).2.Settled := by
  rcases s.receivePage_cases page with
    ⟨-, fault, hpage⟩ | ⟨-, -, hpage⟩ | ⟨⟨⟨-, hcount, -⟩, -, hfits⟩, hpage⟩
  · rw [hpage]
    exact h
  · rw [hpage]
    exact h
  · rw [hpage]
    exact ⟨h.directory_settled.apply hcount hfits, h.published_le⟩

/-- Metadata that are pushed keep a service settled. -/
theorem Settled.receiveInformation (h : s.Settled) (index : UInt8)
    (dataSetSize dataVersion timestamp : UInt32) :
    (s.receiveInformation index dataSetSize dataVersion timestamp).2.Settled := by
  unfold Service.receiveInformation
  split
  · next hindex =>
    have hentry := (h.directory_settled.entry_settled ⟨index.toNat, hindex⟩).announce dataSetSize
      dataVersion timestamp
    exact ⟨h.directory_settled.setEntry (.inr rfl) hentry, h.published_le⟩
  · exact h

/-- The number of entries that is published is in bounds. -/
theorem Settled.publishEntries (h : s.Settled) : s.publishEntries.2.Settled := by
  refine ⟨h.directory_settled, ?_⟩
  show (if s.store.isReadable then s.directory.dirEntries else 0).toNat ≤ Directory.slots
  split
  · exact h.directory_settled.entries_le
  · exact Nat.zero_le _

/-- Recording a size for a region that may not exist keeps a service settled. -/
theorem Settled.synchronizeCommonData (h : s.Settled) (index : Nat) (size : UInt32) :
    (s.synchronizeCommonData index size).2.Settled := by
  unfold Service.synchronizeCommonData
  split
  · exact h.resize _ size
  · exact h

/-- Whatever a service is asked, it stays settled. -/
theorem Settled.handle (h : s.Settled) (request : Request) : (s.handle request).2.Settled := by
  cases request with
  | sendDirectory page => exact h.receivePage page
  | sendInformation index flag dataSetSize dataVersion timestamp =>
    exact h.receiveInformation index dataSetSize dataVersion timestamp
  | publishEntries proposed => exact h.publishEntries
  | synchronize => exact h.pull
  | pull => exact h.pull
  | synchronizeCommonData index size => exact h.synchronizeCommonData index size
  | directoryInformation | dataInformation | dataOffer | findIndex | records => exact h

/-! ## Steps and runs -/

/-- **Each step keeps a service settled.** -/
theorem Settled.step (h : s.Settled) (what : Step) : (s.step what).Settled := by
  cases what with
  | request request => exact h.handle request
  | store store => exact h.congr rfl rfl rfl
  | advance time => exact h.advance time

/-- Each run keeps a service settled. -/
theorem Settled.run (h : s.Settled) (steps : List Step) : (s.run steps).Settled := by
  induction steps generalizing s with
  | nil => exact h
  | cons what steps ih => exact ih (h.step what)

/-- A service is settled from its beginning on. -/
theorem settled_start_run [Timer] (timing : Timing) (delay : Nat) (store : Store)
    (steps : List Step) :
    ((start timing delay store).run steps).Settled :=
  (settled_idle timing delay store).pull.run steps

/-- A service that can be reached: it began with some store, and any steps followed. -/
def Reachable [Timer] (s : Service) : Prop :=
  ∃ timing delay store steps, s = (start timing delay store).run steps

/-- A service that can be reached is settled. -/
theorem Reachable.settled [Timer] (h : Reachable s) : s.Settled := by
  obtain ⟨timing, delay, store, steps, rfl⟩ := h
  exact settled_start_run timing delay store steps

/-- What happened is not forgotten. -/
theorem journal_suffix_run (hquiet : s.situation.Quiet) (steps : List Step) :
    s.journal <:+ (s.run steps).journal := by
  apply Situation.invariant (s.journal <:+ ·.journal) ?_ (leads_run hquiet steps).moves
    List.suffix_rfl
  intro σ τ hmove hsuffix
  cases hmove <;> exact hsuffix.trans (List.suffix_cons _ _)

/-- Once a load has succeeded, this remains so. -/
theorem loads_run_ne_nil (hquiet : s.situation.Quiet) (steps : List Step)
    (h : loads s.journal ≠ []) : loads (s.run steps).journal ≠ [] := by
  intro hnone
  have hsuffix : loads s.journal <:+ loads (s.run steps).journal :=
    ((journal_suffix_run hquiet steps).filterMap _).filterMap _
  rw [hnone] at hsuffix
  exact h (List.suffix_nil.mp hsuffix)

/-- A service begins with the load of what is stored. -/
theorem loads_start [Timer] {store : Store} {report : LoadReport} {table : Table}
    (hload : load store .empty = (.ok report, table)) (timing : Timing) (delay : Nat) :
    loads (start timing delay store).journal = [(report, table)] := by
  have hidle : load (idle timing delay store).store (idle timing delay store).table =
      (.ok report, table) := hload
  rw [start, pull_of_ok hidle]
  cases timing with
  | immediate =>
    rw [arm_of_immediate rfl]
    rfl
  | delayed =>
    rw [arm_of_delayed rfl]
    rfl

/-- What is stored at the beginning and can be loaded remains loaded. -/
theorem loads_start_run_ne_nil [Timer] {store : Store} {report : LoadReport} {table : Table}
    (hload : load store .empty = (.ok report, table)) (timing : Timing) (delay : Nat)
    (steps : List Step) : loads ((start timing delay store).run steps).journal ≠ [] := by
  have hquiet : (idle timing delay store).situation.Quiet := fun _ => rfl
  have hstart : loads (start timing delay store).journal ≠ [] := by
    rw [loads_start hload]
    exact List.cons_ne_nil _ _
  exact loads_run_ne_nil (leads_pull hquiet).quiet steps hstart

/-! ## Results -/

/-- What holds of every service between two requests. -/
structure Regular (s : Service) : Prop where
  /-- At least one slot is populated. -/
  entries_pos : 1 ≤ s.directory.dirEntries.toNat
  /-- At most four slots are populated. -/
  entries_le : s.directory.dirEntries.toNat ≤ 4
  /-- At most four entries were published. -/
  published_le : s.published.toNat ≤ 4
  /-- The version of the local agent is the one of the beginning. -/
  agentVersion_eq : s.directory.agentVersion = Directory.initial.agentVersion
  /-- The status is the one of the beginning. -/
  status_eq : s.directory.status = Directory.initial.status
  /-- The version of the remote directory is the one of the beginning. -/
  remoteDirVersion_eq : s.directory.remoteDirVersion = Directory.initial.remoteDirVersion
  /-- No lock is taken. -/
  lock_eq : ∀ slot, (s.directory.entry slot).lock = .unlocked
  /-- Nothing is on its way. -/
  stage_ne : ∀ slot, (s.directory.entry slot).stage ≠ .updating
  /-- No region has content but that of the structure table. -/
  stage_eq_init : ∀ slot, slot ≠ Directory.tableSlot → (s.directory.entry slot).stage = .init
  /-- The structure table's region has none exactly as long as no load has succeeded. -/
  stage_eq_init_iff : s.directory.tableEntry.stage = .init ↔ loads s.journal = []
  /-- The table has its capacity. -/
  size_eq : s.table.bytes.size = 65536
  /-- The structure table's region is always offered. -/
  dataOffer_eq : (s.handle .dataOffer).1 = .ok (.bytes s.directory.tableEntry.id.toList)
  /-- As many entries are populated as are said to be. -/
  length_populated : s.directory.populated.length = s.directory.dirEntries.toNat
  /-- They are those of the first slots. -/
  populated_eq : ∀ i < s.directory.dirEntries.toNat,
    s.directory.populated[i]? = s.directory.entry? i

/-- A settled service is regular. -/
theorem Settled.regular (h : s.Settled) : Regular s where
  entries_pos := h.directory_settled.entries_pos
  entries_le := h.directory_settled.entries_le
  published_le := h.published_le
  agentVersion_eq := h.directory_settled.agentVersion_eq
  status_eq := h.directory_settled.status_eq
  remoteDirVersion_eq := h.directory_settled.remoteDirVersion_eq
  lock_eq slot := (h.directory_settled.entry_settled slot).lock_eq
  stage_ne slot := (h.directory_settled.entry_settled slot).stage_ne
  stage_eq_init slot hslot := by
    have hentry := h.directory_settled.entry_settled slot
    rw [decide_eq_false hslot, Bool.false_and] at hentry
    exact hentry.stage_eq_init_iff.mpr rfl
  stage_eq_init_iff := by
    have hentry := h.directory_settled.entry_settled Directory.tableSlot
    rw [decide_eq_true rfl, Bool.true_and] at hentry
    rw [Directory.tableEntry, hentry.stage_eq_init_iff, Bool.not_eq_false', List.isEmpty_iff]
  size_eq := s.table.size_eq
  dataOffer_eq := by
    have havailable := (h.directory_settled.entry_settled Directory.tableSlot).isAvailable
    show handle.reply .bytes s.dataOffer = _
    rw [dataOffer, Directory.tableEntry, if_pos havailable]
    rfl
  length_populated := Directory.length_populated h.directory_settled.entries_le
  populated_eq i hi := s.directory.getElem?_populated hi

/-- **The directory stays in bounds.** Whatever a service is asked, whatever is stored and however
the time passes, its directory is regular; and once a load has succeeded, the structure table's
region is loaded or updated for ever after. -/
theorem regular_start_run [Timer] (timing : Timing) (delay : Nat) (store : Store)
    (steps : List Step) :
    Regular ((start timing delay store).run steps) ∧
      ∀ later, loads ((start timing delay store).run steps).journal ≠ [] →
        ((start timing delay store).run (steps ++ later)).directory.tableEntry.stage = .loaded ∨
        ((start timing delay store).run (steps ++ later)).directory.tableEntry.stage =
          .updated := by
  refine ⟨(settled_start_run timing delay store steps).regular, fun later hloaded => ?_⟩
  have hregular := (settled_start_run timing delay store (steps ++ later)).regular
  have hquiet := (leads_start_run timing delay store steps).quiet
  have hlater : loads ((start timing delay store).run (steps ++ later)).journal ≠ [] := by
    rw [run_append]
    exact loads_run_ne_nil hquiet later hloaded
  have hinit := mt hregular.stage_eq_init_iff.mp hlater
  have hupdating := hregular.stage_ne Directory.tableSlot
  rw [← Directory.tableEntry] at hupdating
  cases hstage : ((start timing delay store).run (steps ++ later)).directory.tableEntry.stage with
  | init => exact absurd hstage hinit
  | loaded => exact .inl rfl
  | updated => exact .inr rfl
  | updating => exact absurd hstage hupdating

/-- A service that loads an image at its beginning is not set back when the image is taken away and
the next load fails. -/
theorem regular_start_run_withdrawn :
    let image : Store := .memory (some (encode 1 0 minimalContent))
    let last := (start .delayed 2000 image).run
      ([.store (.memory none)] ++ [.request .synchronize])
    loads ((start .delayed 2000 image).run [.store (.memory none)]).journal ≠ [] ∧
      (last.directory.tableEntry.stage = .loaded ∨
        last.directory.tableEntry.stage = .updated) := by
  intro image last
  have hloaded := loads_start_run_ne_nil (load_minimalContent .empty) .delayed 2000
    [.store (.memory none)]
  obtain ⟨-, hforever⟩ := regular_start_run .delayed 2000 image [.store (.memory none)]
  exact ⟨hloaded, hforever [.request .synchronize] hloaded⟩

end Service

end ManagedRegion
