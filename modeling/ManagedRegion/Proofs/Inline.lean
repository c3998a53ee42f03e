import ManagedRegion.Proofs.Moves

/-!
# Inline: a timer only postpones

Without a timer, a pull and the decode pass that it arms are carried out inside the request that
armed them. With one they are carried out one after the other when the clock moves. The answers to
requests do not depend on this, and neither does what is left once the clock has moved far enough:
`timed s` is the inline service `s` with a timer in the place of its own, for which nothing waits,
and whatever happens to both of them, the service with the timer catches up with the other one
(`CatchesUp`) when the clock moves by two delays, one for a pull and one for the decode pass.

`catchesUp_step` says this of one step. By induction a service without a timer and one with a timer,
whose clock moves on after each step, stay alike for ever (`start_run_alike`).
-/

namespace ManagedRegion

open Image Region Smbios

/-- A debouncer for which nothing waits. -/
def Debouncer.idle {α : Type} (timing : Timing) (delay now : Nat) : Debouncer α :=
  ⟨timing, delay, now, none⟩

namespace Service

variable {s : Service} {delay now : Nat}

/-! ## The two ways to carry out what is armed -/

/-- A service that carries out at once what it is armed with. -/
structure Inline (s : Service) : Prop where
  /-- There is no timer. -/
  timing_eq : s.debouncer.timing = .immediate
  /-- Nothing waits. -/
  pending_eq : s.debouncer.pending = none

/-- The service with a timer in the place of its own, for which nothing waits. -/
def timed (s : Service) (delay now : Nat) : Service :=
  { s with debouncer := .idle .delayed delay now }

/-- What is armed inline is carried out, and that is all. -/
theorem Inline.arm_eq (h : s.Inline) (action : Action) (run : Service → Service) :
    s.arm action run = run s := by
  have hcancel : s.debouncer.cancel = s.debouncer := by
    rw [Debouncer.cancel, ← h.pending_eq]
  rw [arm_of_immediate h.timing_eq, hcancel]

/-- An inline pull whose load succeeds hands the table over. -/
theorem Inline.pull_of_ok (h : s.Inline) {report : LoadReport} {table : Table}
    (hload : load s.store s.table = (.ok report, table)) :
    s.pull = (.ok report,
      (({ s with table }.note (.pulled (.ok report) table)).markLoaded report).decode) := by
  have hloaded : (({ s with table }.note (.pulled (.ok report) table)).markLoaded report).Inline :=
    ⟨h.timing_eq, h.pending_eq⟩
  rw [Service.pull_of_ok hload, hloaded.arm_eq]

/-- No step takes it from a service that it carries out at once what it is armed with. -/
theorem Inline.step (h : s.Inline) (what : Step) : (s.step what).Inline := by
  have hquiet : s.situation.Quiet := by
    intro _
    rw [situation, h.pending_eq]
    rfl
  have hled := leads_step hquiet what
  have htiming : (s.step what).situation.timing = .immediate := by
    apply Situation.invariant (·.timing = .immediate) ?_ hled.moves h.timing_eq
    intro σ τ hmove hσ
    cases hmove <;> exact hσ
  exact ⟨htiming, Option.map_eq_none_iff.mp (hled.quiet htiming)⟩

/-- At its beginning a service without a timer carries out at once what it is armed with. -/
theorem inline_idle [Timer] (delay : Nat) (store : Store) : (idle .immediate delay store).Inline :=
  ⟨rfl, rfl⟩

/-! ## What the timer does when the clock moves -/

/-- The service with a timer for which an action waits until a deadline. -/
def waiting (s : Service) (delay now deadline : Nat) (action : Action) : Service :=
  { s with debouncer := ⟨.delayed, delay, now, some ⟨deadline, action⟩⟩ }

/-- What is armed with a timer waits for the delay. -/
theorem arm_timed (s : Service) (delay now : Nat) (action : Action) (run : Service → Service) :
    (s.timed delay now).arm action run = s.waiting delay now (now + delay) action := rfl

/-- While nothing waits, nothing is due. -/
theorem runDue_timed (s : Service) (delay now time : Nat) :
    (s.timed delay now).runDue time = s.timed delay now := rfl

/-- What is due is carried out at its deadline. -/
theorem runDue_waiting {deadline time : Nat} (hdue : deadline ≤ time) (action : Action) :
    (s.waiting delay now deadline action).runDue time =
      (s.timed delay deadline).perform action := by
  simp [runDue, waiting, timed, Debouncer.takeDue, Debouncer.idle, hdue]

/-- If nothing waits after two actions at most, the clock has been moved and that is all. -/
theorem advance_of_runDue {t : Service} {time : Nat} (later : Nat)
    (h : (t.runDue (t.debouncer.now + time)).runDue (t.debouncer.now + time) =
      s.timed delay later) :
    t.advance time = s.timed delay (t.debouncer.now + time) := by
  rw [advance, h]
  rfl

/-- Moving the clock does nothing else while nothing waits. -/
theorem advance_timed (s : Service) (delay now time : Nat) :
    (s.timed delay now).advance time = s.timed delay (now + time) :=
  advance_of_runDue now rfl

/-- The second service gets where the first one is when its clock moves by two delays. -/
def CatchesUp (delay : Nat) (s t : Service) : Prop :=
  ∀ time, 2 * delay ≤ time → ∃ now, t.advance time = s.timed delay now

/-- Where nothing waits there is nothing to catch up with. -/
theorem catchesUp_timed (s : Service) (delay now : Nat) : CatchesUp delay s (s.timed delay now) :=
  fun time _ => ⟨now + time, advance_timed s delay now time⟩

/-! ## Pulls -/

/-- With a timer a pull whose load fails leaves what it leaves inline. -/
theorem pull_timed_of_error {failure : LoadFailure} {table : Table}
    (hload : load s.store s.table = (.error failure, table)) :
    (s.timed delay now).pull = (.error failure, s.pull.2.timed delay now) := by
  have htimed : load (s.timed delay now).store (s.timed delay now).table =
      (.error failure, table) := hload
  rw [pull_of_error htimed, pull_of_error hload]
  rfl

/-- With a timer a pull whose load succeeds leaves a decode pass to be carried out. -/
theorem pull_timed_of_ok {report : LoadReport} {table : Table}
    (hload : load s.store s.table = (.ok report, table)) :
    (s.timed delay now).pull = (.ok report,
      (({ s with table }.note (.pulled (.ok report) table)).markLoaded report).waiting
        delay now (now + delay) .decode) := by
  have htimed : load (s.timed delay now).store (s.timed delay now).table =
      (.ok report, table) := hload
  let loaded : Service := ({ s with table }.note (.pulled (.ok report) table)).markLoaded report
  rw [pull_of_ok htimed]
  show (Except.ok report, (loaded.timed delay now).arm .decode decode) = _
  rw [arm_timed]

/-- A pull reports the same with and without a timer, and does not move the clock. -/
theorem pull_timed (h : s.Inline) (delay now : Nat) :
    (s.timed delay now).pull.1 = s.pull.1 ∧
      (s.timed delay now).pull.2.debouncer.now = now := by
  rcases hload : load s.store s.table with ⟨failure | report, table⟩
  · rw [pull_timed_of_error hload, pull_of_error hload]
    exact ⟨rfl, rfl⟩
  · rw [pull_timed_of_ok hload, h.pull_of_ok hload]
    exact ⟨rfl, rfl⟩

/-- What a pull leaves to be carried out is carried out after one delay. -/
theorem runDue_pull_timed (h : s.Inline) {time : Nat} (hdue : now + delay ≤ time) :
    ∃ later, (s.timed delay now).pull.2.runDue time = s.pull.2.timed delay later := by
  rcases hload : load s.store s.table with ⟨failure | report, table⟩
  · refine ⟨now, ?_⟩
    rw [pull_timed_of_error hload]
    exact runDue_timed _ _ _ _
  · refine ⟨now + delay, ?_⟩
    rw [pull_timed_of_ok hload, runDue_waiting hdue, h.pull_of_ok hload]
    rfl

/-- A service with a timer catches up with an inline pull. -/
theorem catchesUp_pull (h : s.Inline) (delay now : Nat) :
    CatchesUp delay s.pull.2 (s.timed delay now).pull.2 := by
  intro time htime
  obtain ⟨-, hnow⟩ := pull_timed h delay now
  have hdue : now + delay ≤ (s.timed delay now).pull.2.debouncer.now + time := by
    rw [hnow]
    omega
  obtain ⟨later, hpass⟩ := runDue_pull_timed h hdue
  refine ⟨_, advance_of_runDue later ?_⟩
  rw [hpass]
  exact runDue_timed _ _ _ _

/-- A service with a timer catches up with an inline pull for a size that was recorded, and with the
decode pass that this one arms. -/
theorem catchesUp_resize (h : s.Inline) (delay now : Nat) (slot : Fin Directory.slots)
    (size : UInt32) :
    CatchesUp delay (s.resize slot size) ((s.timed delay now).resize slot size) := by
  intro time htime
  let resized : Service := { s with
    directory := s.directory.setEntry slot { s.directory.entry slot with size }
    journal := .resized slot size :: s.journal }
  have hinline : resized.Inline := ⟨h.timing_eq, h.pending_eq⟩
  have hplain : s.resize slot size = resized.pull.2 := hinline.arm_eq .pull (·.perform .pull)
  have htimed : (s.timed delay now).resize slot size =
      resized.waiting delay now (now + delay) .pull :=
    arm_timed resized delay now .pull (·.perform .pull)
  rw [hplain, htimed]
  -- the pull runs at its deadline, and the pass that it arms is due one delay later
  have hpull : now + delay ≤ now + time := by omega
  have hpass : now + delay + delay ≤ now + time := by omega
  obtain ⟨later, hsettled⟩ := runDue_pull_timed hinline hpass
  refine ⟨_, advance_of_runDue later ?_⟩
  calc ((resized.waiting delay now (now + delay) .pull).runDue (now + time)).runDue (now + time)
    _ = ((resized.timed delay (now + delay)).perform .pull).runDue (now + time) := by
      rw [runDue_waiting hpull]
    _ = resized.pull.2.timed delay later := hsettled

/-! ## Requests and steps -/

/-- Taking over a page has nothing to do with the timer. -/
theorem receivePage_timed (s : Service) (delay now : Nat) (page : Directory.Page) :
    (s.timed delay now).receivePage page =
      ((s.receivePage page).1, (s.receivePage page).2.timed delay now) := by
  unfold receivePage timed
  dsimp only
  repeat' split
  all_goals rfl

/-- Taking over metadata has nothing to do with the timer. -/
theorem receiveInformation_timed (s : Service) (delay now : Nat) (index : UInt8)
    (dataSetSize dataVersion timestamp : UInt32) :
    (s.timed delay now).receiveInformation index dataSetSize dataVersion timestamp =
      ((s.receiveInformation index dataSetSize dataVersion timestamp).1,
        (s.receiveInformation index dataSetSize dataVersion timestamp).2.timed delay now) := by
  unfold receiveInformation timed
  split
  · rfl
  · rfl

/-- The metadata from before a size is recorded do not depend on the timer, and a service with a
timer catches up. -/
theorem synchronizeCommonData_timed (h : s.Inline) (delay now index : Nat) (size : UInt32) :
    ((s.timed delay now).synchronizeCommonData index size).1 =
        (s.synchronizeCommonData index size).1 ∧
      CatchesUp delay (s.synchronizeCommonData index size).2
        ((s.timed delay now).synchronizeCommonData index size).2 := by
  unfold synchronizeCommonData
  by_cases hindex : index < Directory.slots
  · rw [dif_pos hindex, dif_pos hindex]
    exact ⟨rfl, catchesUp_resize h delay now ⟨index, hindex⟩ size⟩
  · rw [dif_neg hindex, dif_neg hindex]
    exact ⟨rfl, catchesUp_timed s delay now⟩

/-- Whatever the two services are asked, they answer alike, and the one with the timer catches up
with the other one. -/
theorem handle_timed (h : s.Inline) (delay now : Nat) (request : Request) :
    ((s.timed delay now).handle request).1 = (s.handle request).1 ∧
      CatchesUp delay (s.handle request).2 ((s.timed delay now).handle request).2 := by
  cases request with
  | sendDirectory page =>
    have hpage := receivePage_timed s delay now page
    constructor
    · show handle.reply .flag ((s.timed delay now).receivePage page).1 = _
      rw [hpage]
      rfl
    · show CatchesUp delay (s.receivePage page).2 ((s.timed delay now).receivePage page).2
      rw [hpage]
      exact catchesUp_timed _ delay now
  | sendInformation index flag dataSetSize dataVersion timestamp =>
    have hinformation :=
      receiveInformation_timed s delay now index dataSetSize dataVersion timestamp
    constructor
    · show handle.reply .flag ((s.timed delay now).receiveInformation index dataSetSize dataVersion
        timestamp).1 = _
      rw [hinformation]
      rfl
    · show CatchesUp delay (s.receiveInformation index dataSetSize dataVersion timestamp).2
        ((s.timed delay now).receiveInformation index dataSetSize dataVersion timestamp).2
      rw [hinformation]
      exact catchesUp_timed _ delay now
  | synchronize =>
    refine ⟨?_, catchesUp_pull h delay now⟩
    show Except.ok (Response.flag (s.timed delay now).pull.1.isOk) = _
    rw [(pull_timed h delay now).1]
    rfl
  | pull =>
    refine ⟨?_, catchesUp_pull h delay now⟩
    show ((s.timed delay now).pull.1.map Response.report).mapError RequestFailure.notLoaded = _
    rw [(pull_timed h delay now).1]
    rfl
  | synchronizeCommonData index size =>
    obtain ⟨hanswer, hcatches⟩ := synchronizeCommonData_timed h delay now index size
    refine ⟨?_, hcatches⟩
    show handle.reply .commonData ((s.timed delay now).synchronizeCommonData index size).1 = _
    rw [hanswer]
    rfl
  | publishEntries proposed => exact ⟨rfl, catchesUp_timed _ delay now⟩
  | directoryInformation | dataInformation | dataOffer | findIndex | records =>
    exact ⟨rfl, catchesUp_timed s delay now⟩

/-- While nothing waits, a service whose clock moves only gets older. -/
theorem Inline.advance_eq (h : s.Inline) (time : Nat) :
    s.advance time = { s with debouncer := s.debouncer.setClock (s.debouncer.now + time) } := by
  have hnone : s.runDue (s.debouncer.now + time) = s := by
    rw [runDue, Debouncer.takeDue, h.pending_eq]
  rw [advance, hnone, hnone]

/-- **A service with a timer catches up with one without a timer after each step.** -/
theorem catchesUp_step (h : s.Inline) (delay now : Nat) (what : Step) :
    CatchesUp delay (s.step what) ((s.timed delay now).step what) := by
  cases what with
  | request request => exact (handle_timed h delay now request).2
  | store store => exact catchesUp_timed { s with store } delay now
  | advance time =>
    have hplain : s.step (.advance time) = _ := h.advance_eq time
    have htimed : (s.timed delay now).step (.advance time) = _ := advance_timed s delay now time
    rw [hplain, htimed]
    exact catchesUp_timed _ delay (now + time)

/-! ## Runs -/

/-- A run in which the clock moves by two delays or more after each step. -/
def settling (delay : Nat) (steps : List (Step × Nat)) : List Step :=
  steps.flatMap fun (what, extra) => [what, .advance (2 * delay + extra)]

/-- From where they differ in the timer alone, a service with a timer whose clock moves on after
each step gets to where the other one gets, but for the timer. -/
theorem run_settling (h : s.Inline) {asked : Nat} (hdelay : delay ≤ asked) (now : Nat)
    (steps : List (Step × Nat)) :
    ∃ later, (s.timed delay now).run (settling asked steps) =
      (s.run (steps.map Prod.fst)).timed delay later := by
  induction steps generalizing s now with
  | nil => exact ⟨now, rfl⟩
  | cons first steps ih =>
    obtain ⟨what, extra⟩ := first
    have hlong : 2 * delay ≤ 2 * asked + extra := by omega
    obtain ⟨next, hstep⟩ := catchesUp_step h delay now what (2 * asked + extra) hlong
    obtain ⟨later, hrun⟩ := ih (h.step what) next
    refine ⟨later, ?_⟩
    calc (s.timed delay now).run (settling asked ((what, extra) :: steps))
      _ = (((s.timed delay now).step what).advance (2 * asked + extra)).run
          (settling asked steps) := rfl
      _ = ((s.step what).timed delay next).run (settling asked steps) := by rw [hstep]
      _ = ((s.step what).run (steps.map Prod.fst)).timed delay later := hrun

/-- A service without a timer carries out at once what it is armed with, whatever happens. -/
theorem inline_start_run [Timer] (delay : Nat) (store : Store) (steps : List Step) :
    ((start .immediate delay store).run steps).Inline := by
  have hstart : (start .immediate delay store).Inline :=
    (inline_idle delay store).step (.request .pull)
  generalize start .immediate delay store = s at hstart
  induction steps generalizing s with
  | nil => exact hstart
  | cons what steps ih => exact ih (s.step what) (hstart.step what)

/-- What two services have in common of which one has a timer: nothing waits for it, and there is no
telling the services apart. -/
structure Alike (s t : Service) : Prop where
  /-- They answer every request alike. -/
  answer_eq : ∀ request, (s.handle request).1 = (t.handle request).1
  /-- They manage the same regions. -/
  directory_eq : s.directory = t.directory
  /-- They have the same table. -/
  table_eq : s.table = t.table
  /-- They have published the same number of entries. -/
  published_eq : s.published = t.published
  /-- There have been as many decode passes. -/
  decodes_eq : s.decodes = t.decodes
  /-- The consumer got the same tables in the same order. -/
  handedOver_eq : s.handedOver = t.handedOver
  /-- Nothing is pending in the first one. -/
  settled_left : s.isPending = false
  /-- Nothing is pending in the second one. -/
  settled_right : t.isPending = false

/-- There is no telling an inline service from one whose timer has settled. -/
theorem alike_timed (h : s.Inline) (delay now : Nat) : Alike s (s.timed delay now) where
  answer_eq request := (handle_timed h delay now request).1.symm
  directory_eq := rfl
  table_eq := rfl
  published_eq := rfl
  decodes_eq := rfl
  handedOver_eq := rfl
  settled_left := by
    rw [isPending, Debouncer.isPending, h.pending_eq]
    rfl
  settled_right := rfl

/-- **A timer only postpones.** Take a service without a timer and one with a timer, with the same
store at the beginning, and let the same happen to both of them, with the clock of the second one
moving by two delays or more at the beginning and after each step. There is never any telling them
apart. -/
theorem start_run_alike [Timer] (inlineDelay delay first : Nat) (store : Store)
    (steps : List (Step × Nat)) :
    Alike ((start .immediate inlineDelay store).run (steps.map Prod.fst))
      ((start .delayed delay store).run
        (.advance (2 * delay + first) :: settling delay steps)) := by
  have hkept := Timer.kept_le delay
  have hidle := inline_idle inlineDelay store
  have hlong : 2 * Timer.kept delay ≤ 2 * delay + first := by omega
  -- the beginning is a pull of a service that knows nothing, with the one timer or the other
  obtain ⟨now, hstart⟩ := catchesUp_pull hidle (Timer.kept delay) 0 _ hlong
  have hinline : (start .immediate inlineDelay store).Inline := hidle.step (.request .pull)
  obtain ⟨later, hrun⟩ := run_settling hinline hkept now steps
  have htimed : (start .delayed delay store).run
      (.advance (2 * delay + first) :: settling delay steps) =
        ((start .immediate inlineDelay store).run (steps.map Prod.fst)).timed
          (Timer.kept delay) later := by
    rw [← hrun]
    exact congrArg (Service.run · (settling delay steps)) hstart
  rw [htimed]
  exact alike_timed (inline_start_run inlineDelay store _) _ later

end Service

end ManagedRegion
