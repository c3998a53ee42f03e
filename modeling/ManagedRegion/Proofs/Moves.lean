import ManagedRegion.Service.Request
import Mathlib.Logic.Relation

/-!
# Moves: the few things that happen to a table

Many requests and a clock act on a service, but only five things ever happen to its table, to what
waits for the timer and to the journal: a size is recorded, a load succeeds, a load fails (asked
for or due), and a decode pass runs. A `Situation` is what a service shows of these, and
`Situation.Move` says how each of the five changes it.

Each step of a service is a sequence of moves (`leads_step`), and so is what it does from its
beginning on (`leads_start_run`). What all moves keep is thus kept by every run, whatever the
requests, the stored images and the times were; deadlines do not occur in a situation.
-/

namespace ManagedRegion

open Image Region Smbios Relation

/-! ## What a journal tells -/

/-- What came of a load and the table that it left, if an event was one. -/
def Event.attempt? : Event → Option (Except LoadFailure LoadReport × Table)
  | pulled outcome table => some (outcome, table)
  | resized .. | decoded _ => none

/-- The loads that were tried, newest first. -/
def attempts (journal : List Event) : List (Except LoadFailure LoadReport × Table) :=
  journal.filterMap Event.attempt?

/-- The loads that succeeded, newest first: what they reported, and the table that they left. -/
def loads (journal : List Event) : List (LoadReport × Table) :=
  (attempts journal).filterMap fun attempt => attempt.1.toOption.map (·, attempt.2)

variable {journal : List Event}

/-- A load that was tried is the newest one. -/
@[simp] theorem attempts_pulled {outcome : Except LoadFailure LoadReport} {table : Table} :
    attempts (.pulled outcome table :: journal) = (outcome, table) :: attempts journal := rfl

/-- The newest load is the one that was tried last. -/
theorem eq_of_mem_head?_attempts {outcome : Except LoadFailure LoadReport} {table : Table}
    {attempt : Except LoadFailure LoadReport × Table}
    (h : attempt ∈ (attempts (.pulled outcome table :: journal)).head?) :
    attempt = (outcome, table) :=
  (Option.some.inj h).symm

/-- A load that succeeded is the newest one if it was tried last. -/
theorem head?_loads {report : LoadReport} {table : Table}
    (h : (attempts journal).head? = some (.ok report, table)) :
    (loads journal).head? = some (report, table) := by
  obtain ⟨rest, hrest⟩ := List.head?_eq_some_iff.mp h
  rw [loads, hrest]
  rfl

/-- What succeeded was tried. -/
theorem mem_attempts_of_mem_loads {report : LoadReport} {table : Table}
    (h : (report, table) ∈ loads journal) : (.ok report, table) ∈ attempts journal := by
  obtain ⟨⟨outcome, left⟩, hmem, hloaded⟩ := List.mem_filterMap.mp h
  cases outcome with
  | error failure => exact absurd hloaded (by simp [Except.toOption])
  | ok success =>
    obtain ⟨rfl, rfl⟩ : success = report ∧ left = table := by
      simpa [Except.toOption] using hloaded
    exact hmem

/-! ## Situations -/

/-- What a service shows of its table, of what waits, and of what happened. -/
structure Situation where
  /-- When armed actions become due. -/
  timing : Timing
  /-- The current table. -/
  table : Table
  /-- The action that waits. -/
  waiting : Option Action
  /-- What happened, newest first. -/
  journal : List Event

/-- The situation of a service. -/
def Service.situation (s : Service) : Situation :=
  ⟨s.debouncer.timing, s.table, s.debouncer.pending.map Scheduled.action, s.journal⟩

namespace Situation

variable {σ : Situation}

/-- The situation before the first pull. -/
def initial (timing : Timing) : Situation :=
  ⟨timing, .empty, none, []⟩

/-- Without a timer nothing waits. -/
def Quiet (σ : Situation) : Prop :=
  σ.timing = .immediate → σ.waiting = none

/-- What can happen. -/
inductive Move : Situation → Situation → Prop where
  /-- A size is recorded for a region, and a pull is put in the place of what waits. -/
  | resize {σ : Situation} (slot : Fin Directory.slots) (size : UInt32) :
    Move σ { σ with waiting := some .pull, journal := .resized slot size :: σ.journal }
  /-- A load succeeds, and a decode pass is put in the place of what waits. -/
  | load {σ : Situation} {store : Store} {report : LoadReport} {table : Table}
    (hload : Image.load store σ.table = (.ok report, table)) :
    Move σ { σ with
      table, waiting := some .decode, journal := .pulled (.ok report) table :: σ.journal }
  /-- A load that was asked for fails. What waits goes on waiting. -/
  | fail {σ : Situation} {store : Store} {failure : LoadFailure} {table : Table}
    (hquiet : σ.Quiet) (hload : Image.load store σ.table = (.error failure, table)) :
    Move σ { σ with table, journal := .pulled (.error failure) table :: σ.journal }
  /-- The load that was due fails. -/
  | failDue {σ : Situation} {store : Store} {failure : LoadFailure} {table : Table}
    (hdue : σ.waiting = some .pull) (hload : Image.load store σ.table = (.error failure, table)) :
    Move σ { σ with
      table, waiting := none, journal := .pulled (.error failure) table :: σ.journal }
  /-- The decode pass that was due hands the table over. -/
  | decode {σ : Situation} (hdue : σ.waiting = some .decode) :
    Move σ { σ with waiting := none, journal := .decoded σ.table :: σ.journal }

/-- What moves lead to, with nothing left waiting if there is no timer. -/
structure Leads (σ τ : Situation) : Prop where
  /-- The moves. -/
  moves : ReflTransGen Move σ τ
  /-- Nothing waits without a timer. -/
  quiet : τ.Quiet

/-- No move at all leads to where one is. -/
theorem Leads.refl (h : σ.Quiet) : Leads σ σ :=
  ⟨.refl, h⟩

/-- Moves can be followed by others. -/
theorem Leads.trans {τ υ : Situation} (h : Leads σ τ) (h' : Leads τ υ) : Leads σ υ :=
  ⟨h.moves.trans h'.moves, h'.quiet⟩

/-- One move can come first. -/
theorem Leads.head {τ υ : Situation} (h : Move σ τ) (h' : Leads τ υ) : Leads σ υ :=
  ⟨h'.moves.head h, h'.quiet⟩

/-- What moves keep is kept by all of them together. -/
theorem invariant (Inv : Situation → Prop) (hstep : ∀ {σ τ}, Move σ τ → Inv σ → Inv τ)
    {τ : Situation} (h : ReflTransGen Move σ τ) (hinv : Inv σ) : Inv τ := by
  induction h with
  | refl => exact hinv
  | tail _ hmove ih => exact hstep hmove ih

end Situation

namespace Service

open Situation

variable {s : Service}

/-! ## Arming and pulling -/

/-- Where carrying an action out at once leads, arming it leads, be there a timer or not. -/
theorem leads_arm {action : Action} {run : Service → Service}
    (hrun : Leads { s.situation with waiting := some action }
      (run { s with debouncer := s.debouncer.cancel }).situation) :
    Leads { s.situation with waiting := some action } (s.arm action run).situation := by
  cases htiming : s.debouncer.timing with
  | immediate =>
    rw [arm_of_immediate htiming]
    exact hrun
  | delayed =>
    rw [arm_of_delayed htiming]
    exact .refl fun himmediate => absurd (htiming.symm.trans himmediate) (by decide)

/-- A decode pass that is armed waits, or runs at once. -/
theorem leads_arm_decode (s : Service) :
    Leads { s.situation with waiting := some .decode } (s.arm .decode decode).situation :=
  leads_arm ⟨.single (.decode rfl), fun _ => rfl⟩

/-- A pull whose load succeeds arms a decode pass, whatever was waiting. -/
theorem leads_pull_of_ok {report : LoadReport} {table : Table}
    (hload : load s.store s.table = (.ok report, table)) (waiting : Option Action) :
    Leads { s.situation with waiting } s.pull.2.situation := by
  let loaded : Service := ({ s with table }.note (.pulled (.ok report) table)).markLoaded report
  have hpull : s.pull.2 = loaded.arm .decode decode := by
    rw [pull_of_ok hload]
  have hmove : Move { s.situation with waiting } { loaded.situation with
      waiting := some .decode } := .load hload
  rw [hpull]
  exact .head hmove (leads_arm_decode loaded)

/-- A pull whose load fails changes the table and nothing else. -/
theorem situation_pull_of_error {failure : LoadFailure} {table : Table}
    (hload : load s.store s.table = (.error failure, table)) :
    s.pull.2.situation = { s.situation with
      table, journal := .pulled (.error failure) table :: s.journal } := by
  rw [pull_of_error hload]
  rfl

/-- A pull that is asked for is a sequence of moves. -/
theorem leads_pull (hquiet : s.situation.Quiet) : Leads s.situation s.pull.2.situation := by
  rcases hload : load s.store s.table with ⟨failure | report, table⟩
  · rw [situation_pull_of_error hload]
    exact .head (.fail hquiet hload) (.refl hquiet)
  · exact leads_pull_of_ok hload _

/-- A pull that was due is a sequence of moves. -/
theorem leads_pull_due (hnone : s.situation.waiting = none) :
    Leads { s.situation with waiting := some .pull } s.pull.2.situation := by
  rcases hload : load s.store s.table with ⟨failure | report, table⟩
  · have hmove : Move { s.situation with waiting := some .pull } { s.situation with
        table, waiting := none, journal := .pulled (.error failure) table :: s.journal } :=
      .failDue rfl hload
    rw [situation_pull_of_error hload]
    rw [← hnone] at hmove
    exact .head hmove (.refl fun _ => hnone)
  · exact leads_pull_of_ok hload _

/-- Once a size has been recorded, a pull waits or runs at once. -/
theorem leads_resize (s : Service) (slot : Fin Directory.slots) (size : UInt32) :
    Leads { s.situation with waiting := some .pull, journal := .resized slot size :: s.journal }
      (s.resize slot size).situation := by
  let resized : Service := { s with
    directory := s.directory.setEntry slot { s.directory.entry slot with size }
    journal := .resized slot size :: s.journal }
  show Leads { resized.situation with waiting := some .pull }
    (resized.arm .pull (·.perform .pull)).situation
  have hpull := leads_pull_due (s := { resized with debouncer := s.debouncer.cancel }) rfl
  exact leads_arm hpull

/-! ## Time -/

/-- What is due by a time runs as a sequence of moves. -/
theorem leads_runDue (hquiet : s.situation.Quiet) (time : Nat) :
    Leads s.situation (s.runDue time).situation := by
  cases hpending : s.debouncer.pending with
  | none =>
    rw [runDue, Debouncer.takeDue, hpending]
    exact .refl hquiet
  | some waiting =>
    by_cases hdue : waiting.deadline ≤ time
    · let taken : Service := { s with
        debouncer := { s.debouncer with now := waiting.deadline, pending := none } }
      have hrun : s.runDue time = taken.perform waiting.action := by
        rw [runDue, Debouncer.takeDue, hpending]
        simp only [if_pos hdue]
        rfl
      have hwaiting : s.situation = { taken.situation with waiting := some waiting.action } := by
        rw [situation, hpending]
        rfl
      rw [hrun, hwaiting]
      cases waiting.action with
      | decode => exact ⟨.single (.decode rfl), fun _ => rfl⟩
      | pull => exact leads_pull_due rfl
    · rw [runDue, Debouncer.takeDue, hpending]
      simp only [if_neg hdue]
      exact .refl hquiet

/-- Moving the clock is a sequence of moves. -/
theorem leads_advance (hquiet : s.situation.Quiet) (time : Nat) :
    Leads s.situation (s.advance time).situation := by
  have hfirst := leads_runDue hquiet (s.debouncer.now + time)
  have hsecond := leads_runDue hfirst.quiet (s.debouncer.now + time)
  exact hfirst.trans hsecond

/-! ## Requests, steps and runs -/

/-- Taking over a page has nothing to do with the table. -/
theorem situation_receivePage (s : Service) (page : Directory.Page) :
    (s.receivePage page).2.situation = s.situation := by
  rcases s.receivePage_cases page with ⟨-, fault, hpage⟩ | ⟨-, -, hpage⟩ | ⟨-, hpage⟩
  · rw [hpage]
  · rw [hpage]
  · rw [hpage]
    rfl

/-- Taking over metadata has nothing to do with the table. -/
theorem situation_receiveInformation (s : Service) (index : UInt8)
    (dataSetSize dataVersion timestamp : UInt32) :
    (s.receiveInformation index dataSetSize dataVersion timestamp).2.situation = s.situation := by
  unfold receiveInformation
  split <;> rfl

/-- Recording a size and arming a pull is a sequence of moves. -/
theorem leads_synchronizeCommonData (hquiet : s.situation.Quiet) (index : Nat) (size : UInt32) :
    Leads s.situation (s.synchronizeCommonData index size).2.situation := by
  unfold synchronizeCommonData
  split
  · exact .head (.resize _ size) (leads_resize s _ size)
  · exact .refl hquiet

/-- Whatever a service is asked, what happens is a sequence of moves. -/
theorem leads_handle (hquiet : s.situation.Quiet) (request : Request) :
    Leads s.situation (s.handle request).2.situation := by
  cases request with
  | sendDirectory page =>
    show Leads s.situation (s.receivePage page).2.situation
    rw [situation_receivePage]
    exact .refl hquiet
  | sendInformation index flag dataSetSize dataVersion timestamp =>
    show Leads s.situation
      (s.receiveInformation index dataSetSize dataVersion timestamp).2.situation
    rw [situation_receiveInformation]
    exact .refl hquiet
  | synchronize => exact leads_pull hquiet
  | pull => exact leads_pull hquiet
  | synchronizeCommonData index size => exact leads_synchronizeCommonData hquiet index size
  | directoryInformation | dataInformation | dataOffer | findIndex | publishEntries | records =>
    exact .refl hquiet

/-- **Each step of a service is a sequence of moves.** -/
theorem leads_step (hquiet : s.situation.Quiet) (step : Step) :
    Leads s.situation (s.step step).situation := by
  cases step with
  | request request => exact leads_handle hquiet request
  | store store => exact .refl hquiet
  | advance time => exact leads_advance hquiet time

/-- Each run of a service is a sequence of moves. -/
theorem leads_run (hquiet : s.situation.Quiet) (steps : List Step) :
    Leads s.situation (s.run steps).situation := by
  induction steps generalizing s with
  | nil => exact .refl hquiet
  | cons step steps ih =>
    have hstep := leads_step hquiet step
    exact hstep.trans (ih hstep.quiet)

/-- **Whatever a service does from its beginning on is a sequence of moves.** -/
theorem leads_start_run [Timer] (timing : Timing) (delay : Nat) (store : Store)
    (steps : List Step) :
    Leads (initial timing) ((start timing delay store).run steps).situation := by
  have hquiet : (idle timing delay store).situation.Quiet := fun _ => rfl
  have hstart : Leads (initial timing) (start timing delay store).situation := leads_pull hquiet
  exact hstart.trans (leads_run hstart.quiet steps)

/-- Nothing is pending exactly if nothing waits. -/
theorem waiting_of_not_isPending (h : s.isPending = false) : s.situation.waiting = none := by
  rw [isPending, Debouncer.isPending, Option.isSome_eq_false_iff, Option.isNone_iff_eq_none] at h
  rw [situation, h]
  rfl

end Service

end ManagedRegion
