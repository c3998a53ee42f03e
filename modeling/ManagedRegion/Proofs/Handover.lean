import ManagedRegion.Platform.Executor
import ManagedRegion.Proofs.Load
import ManagedRegion.Proofs.Moves

/-!
# Handover: which tables the consumer gets

A decode pass hands over the table as it is when the pass runs, not as it was when the pass was
armed. A load that fails in between leaves its own table behind and the pass waiting, so the
consumer gets what that load left: zero bytes, or the content that was refused
(`journal_of_refused`). Without a timer nothing comes in between.

`handedOver_eq_loaded_iff` says it for all runs: a decode pass hands over what the newest load left,
and this is the table of the newest load that succeeded exactly if the newest load did. The gate,
asked once more, tells the two apart.
-/

namespace ManagedRegion

open Image Region Smbios

/-- What the consumer was handed when the journal was `earlier` is what the newest load left, some
load has succeeded, and without a timer it was the newest. -/
def Supported (timing : Timing) (earlier : List Event) (handed : Table) : Prop :=
  ∃ outcome good, (attempts earlier).head? = some (outcome, handed) ∧
    (loads earlier).head? = some good ∧ (timing = .immediate → outcome.isOk = true)

/-- The gate judges what the loads of a journal left as they have reported. -/
def Judged (journal : List Event) : Prop :=
  ∀ attempt ∈ attempts journal, (EntryPoint.checkVersion attempt.2.bytes).toOption =
    attempt.1.toOption.map LoadReport.entryPoint

/-- A load is judged by the gate as it reports. -/
theorem Judged.pulled {journal : List Event} {store : Store} {table left : Table}
    {outcome : Except LoadFailure LoadReport} (h : Judged journal)
    (hload : load store table = (outcome, left)) : Judged (.pulled outcome left :: journal) := by
  intro attempt hattempt
  rw [attempts_pulled, List.mem_cons] at hattempt
  rcases hattempt with rfl | hearlier
  · have hgate := checkVersion_load store table
    rw [hload] at hgate
    exact hgate
  · exact h attempt hearlier

theorem Judged.step {σ τ : Situation} (hmove : σ.Move τ) (h : Judged σ.journal) :
    Judged τ.journal := by
  cases hmove with
  | resize slot size => exact h
  | load hload => exact h.pulled hload
  | fail hquiet hload => exact h.pulled hload
  | failDue hdue hload => exact h.pulled hload
  | decode hdue => exact h

namespace Situation

variable {σ τ : Situation}

/-- What is known while a decode pass waits. -/
structure Armed (σ : Situation) : Prop where
  /-- The table is what the newest load left. -/
  table_eq : ∀ attempt ∈ (attempts σ.journal).head?, attempt.2 = σ.table
  /-- A decode pass waits only once a load has succeeded. -/
  exists_load : σ.waiting = some .decode → ∃ good, (loads σ.journal).head? = some good
  /-- Without a timer, the newest load has succeeded then. -/
  isOk : σ.timing = .immediate → σ.waiting = some .decode →
    ∀ attempt ∈ (attempts σ.journal).head?, attempt.1.isOk = true

/-- While no decode pass waits, only the table matters. -/
theorem armed_of_waiting_ne (hne : σ.waiting ≠ some .decode)
    (htable : ∀ attempt ∈ (attempts σ.journal).head?, attempt.2 = σ.table) : Armed σ :=
  ⟨htable, fun hdecode => absurd hdecode hne, fun _ hdecode => absurd hdecode hne⟩

theorem Armed.step (hmove : Move σ τ) (h : Armed σ) : Armed τ := by
  cases hmove with
  | resize slot size => exact armed_of_waiting_ne (by simp) h.table_eq
  | @load store report table hload =>
    refine ⟨fun attempt hattempt => ?_, fun _ => ⟨(report, table), rfl⟩, ?_⟩
    · rw [eq_of_mem_head?_attempts hattempt]
    · intro _ _ attempt hattempt
      rw [eq_of_mem_head?_attempts hattempt]
      rfl
  | fail hquiet hload =>
    -- what waits goes on waiting, so a decode pass does only if there is a timer
    refine ⟨fun attempt hattempt => ?_, h.exists_load, fun himmediate hdecode => ?_⟩
    · rw [eq_of_mem_head?_attempts hattempt]
    · exact absurd ((hquiet himmediate).symm.trans hdecode) (by simp)
  | failDue hdue hload =>
    refine armed_of_waiting_ne (by simp) fun attempt hattempt => ?_
    rw [eq_of_mem_head?_attempts hattempt]
  | decode hdue => exact armed_of_waiting_ne (by simp) h.table_eq

/-- What is handed over while a decode pass waits is supported by the journal. -/
theorem Armed.supported (h : Armed σ) (hdue : σ.waiting = some .decode) :
    Supported σ.timing σ.journal σ.table := by
  obtain ⟨good, hgood⟩ := h.exists_load hdue
  have hmem := mem_attempts_of_mem_loads (List.mem_of_head? hgood)
  obtain ⟨newest, hnewest⟩ : ∃ newest, (attempts σ.journal).head? = some newest :=
    ⟨_, List.head?_eq_some_head (List.ne_nil_of_mem hmem)⟩
  refine ⟨newest.1, good, ?_, hgood, fun himmediate => h.isOk himmediate hdue newest hnewest⟩
  rw [hnewest, ← h.table_eq newest hnewest]

/-- Whatever the journal says was loaded or handed over is accounted for. -/
structure Accounted (timing : Timing) (σ : Situation) : Prop where
  /-- The timing never changes. -/
  timing_eq : σ.timing = timing
  /-- What holds while a decode pass waits. -/
  armed : Armed σ
  /-- The loads were judged rightly. -/
  judged : Judged σ.journal
  /-- Each decode pass is supported by what was noted before it. -/
  supported : ∀ handed earlier, .decoded handed :: earlier <:+ σ.journal →
    Supported timing earlier handed

/-- **Moves keep the accounts.** -/
theorem Accounted.step {timing : Timing} (hmove : Move σ τ) (h : Accounted timing σ) :
    Accounted timing τ := by
  refine ⟨?_, h.armed.step hmove, h.judged.step hmove, ?_⟩
  · cases hmove <;> exact h.timing_eq
  · intro handed earlier hsuffix
    cases hmove with
    | decode hdue =>
      rcases List.suffix_cons_iff.mp hsuffix with hnow | hbefore
      · obtain ⟨rfl, rfl⟩ : handed = σ.table ∧ earlier = σ.journal := by simpa using hnow
        exact h.timing_eq ▸ h.armed.supported hdue
      · exact h.supported handed earlier hbefore
    | resize | load | fail | failDue =>
      rcases List.suffix_cons_iff.mp hsuffix with hnow | hbefore
      · exact absurd hnow (by simp)
      · exact h.supported handed earlier hbefore

/-- The accounts are kept in every run. -/
theorem accounted_start_run [Timer] (timing : Timing) (delay : Nat) (store : Store)
    (steps : List Step) :
    Accounted timing ((Service.start timing delay store).run steps).situation := by
  have hbegin : Accounted timing (initial timing) :=
    { timing_eq := rfl
      armed := ⟨by simp [initial, attempts], by simp [initial], by simp [initial]⟩
      judged := by simp [Judged, initial, attempts]
      supported := by simp [initial] }
  exact Situation.invariant (Accounted timing) Accounted.step
    (Service.leads_start_run timing delay store steps).moves hbegin

end Situation

/-! ## A load that is refused while a decode pass waits -/

namespace Service

/-- The pass hands over what the refused load left. -/
theorem journal_of_refused [Timer] {image refused : Bytes} {report : LoadReport}
    {failure : LoadFailure} {loaded left : Table}
    (hload : ∀ before, load (.memory (some image)) before = (.ok report, loaded))
    (hrefused : ∀ before, load (.memory (some refused)) before = (.error failure, left))
    (delay : Nat) :
    ((start .delayed delay (.memory (some image))).run
      [.store (.memory (some refused)), .request .synchronize, .advance delay]).journal =
      [.decoded left, .pulled (.error failure) left, .pulled (.ok report) loaded] := by
  have hdue := Timer.kept_le delay
  simp [start, idle, run, step, handle, advance, runDue, perform, pull, hload, hrefused, note,
    setStage, markLoaded, arm, decode, Debouncer.create, Debouncer.arm, Debouncer.takeDue, hdue]

/-- Content without an entry point: a single processor. -/
def refusedContent : Bytes :=
  #[4, 4, 0, 0, 0, 0]

/-- The image of content without an entry point is refused. -/
theorem load_refusedContent (table : Table) :
    load (.memory (some (encode 2 0 refusedContent))) table =
      (.error (.entryPoint .anchorNotFound), Table.ofBytes refusedContent) := by
  refine load_of_no_underscore 2 0 table (by decide) fun i hi => ?_
  have hmem : (0x5F : UInt8) ∈ refusedContent.toList := (Array.mem_of_getElem? hi).val
  exact absurd hmem (by decide)

end Service

/-! ## All runs -/

/-- What was tried before is still noted later. -/
theorem attempts_subset_of_suffix {earlier journal : List Event} (h : earlier <:+ journal) :
    attempts earlier ⊆ attempts journal :=
  (h.sublist.filterMap Event.attempt?).subset

namespace Service

/-- **Which table the consumer gets.** A decode pass hands over what the newest load left, and some
load has succeeded by then. The table is the one that the newest successful load has left exactly if
the newest load of all succeeded, and exactly then the gate accepts it. Without a timer it always
is. -/
theorem handedOver_eq_loaded_iff [Timer] {timing : Timing} {delay : Nat} {store : Store}
    {steps : List Step} {handed : Table} {earlier : List Event}
    (h : .decoded handed :: earlier <:+ ((start timing delay store).run steps).journal) :
    ∃ outcome report loaded,
      (attempts earlier).head? = some (outcome, handed) ∧
      (loads earlier).head? = some (report, loaded) ∧
      EntryPoint.checkVersion loaded.bytes = .ok report.entryPoint ∧
      (handed = loaded ↔ outcome.isOk = true) ∧
      ((EntryPoint.checkVersion handed.bytes).isOk = true ↔ outcome.isOk = true) ∧
      (timing = .immediate → outcome.isOk = true) := by
  have haccounts := Situation.accounted_start_run timing delay store steps
  obtain ⟨outcome, ⟨report, loaded⟩, hnewest, hgood, himmediate⟩ := haccounts.supported _ _ h
  have hearlier := attempts_subset_of_suffix ((List.suffix_cons _ _).trans h)
  have hhanded := haccounts.judged _ (hearlier (List.mem_of_head? hnewest))
  have hloaded := haccounts.judged _
    (hearlier (mem_attempts_of_mem_loads (List.mem_of_head? hgood)))
  have hgate : EntryPoint.checkVersion loaded.bytes = .ok report.entryPoint := by
    cases hcheck : EntryPoint.checkVersion loaded.bytes with
    | error failure => simp [hcheck, Except.toOption] at hloaded
    | ok entryPoint =>
      rw [hcheck] at hloaded
      exact congrArg Except.ok (Option.some.inj hloaded)
  refine ⟨outcome, report, loaded, hnewest, hgood, hgate, ?_, ?_, himmediate⟩
  · cases outcome with
    | error failure =>
      -- the gate tells a table that was refused from one that was loaded
      refine ⟨fun heq => ?_, fun hok => absurd hok (by simp [Except.isOk, Except.toBool])⟩
      rw [heq, hgate] at hhanded
      exact absurd hhanded (by simp [Except.toOption])
    | ok success =>
      have hsame := (head?_loads hnewest).symm.trans hgood
      exact ⟨fun _ => rfl, fun _ => (Prod.mk.inj (Option.some.inj hsame)).2⟩
  · rw [← isSome_toOption, hhanded, Option.isSome_map, isSome_toOption]

/-- In the run with the refused content, this tells the table that was handed over from the one that
was loaded. -/
theorem handedOver_eq_loaded_iff_refused :
    ((start .delayed 2000 (.memory (some (encode 1 0 minimalContent)))).run
      [.store (.memory (some (encode 2 0 refusedContent))), .request .synchronize,
        .advance 2000]).handedOver.head? = some (Table.ofBytes refusedContent) ∧
    Table.ofBytes refusedContent ≠ Table.ofBytes minimalContent := by
  have hjournal := journal_of_refused load_minimalContent load_refusedContent 2000
  obtain ⟨outcome, report, loaded, hnewest, hgood, -, hsame, -⟩ :=
    handedOver_eq_loaded_iff ⟨[], hjournal.symm⟩
  obtain ⟨rfl, -⟩ := Prod.mk.inj (Option.some.inj hnewest)
  obtain ⟨-, rfl⟩ := Prod.mk.inj (Option.some.inj hgood)
  refine ⟨?_, fun heq => absurd (hsame.mp heq) (by decide)⟩
  rw [handedOver, hjournal]
  rfl

/-- **The consumer may get a table that was refused.** Not every decode pass hands over a table that
the gate accepts, and not every one the table of the newest successful load. -/
theorem handedOver_refused :
    ¬ ∀ (timing : Timing) (delay : Nat) (store : Store) (steps : List Step) (handed : Table)
      (earlier : List Event),
      .decoded handed :: earlier <:+ ((start timing delay store).run steps).journal →
      (EntryPoint.checkVersion handed.bytes).isOk = true ∨
        ∃ report, (loads earlier).head? = some (report, handed) := by
  intro hall
  have hjournal := journal_of_refused load_minimalContent load_refusedContent 2000
  have hrefused := checkVersion_load (.memory (some (encode 2 0 refusedContent))) .empty
  have haccepted := checkVersion_load (.memory (some (encode 1 0 minimalContent))) .empty
  rw [load_refusedContent] at hrefused
  rw [load_minimalContent] at haccepted
  rcases hall _ _ _ _ _ _ ⟨[], hjournal.symm⟩ with hok | ⟨report, hnewest⟩
  · rw [← isSome_toOption, hrefused] at hok
    exact absurd hok (by decide)
  · obtain ⟨rfl, hsame⟩ : minimalReport = report ∧
        Table.ofBytes minimalContent = Table.ofBytes refusedContent := by
      simpa [loads, attempts, Event.attempt?, Except.toOption] using hnewest
    rw [hsame, hrefused] at haccepted
    exact absurd haccepted (by simp [Except.toOption])

end Service

end ManagedRegion
