import ManagedRegion.Proofs.Synchronization

/-!
# Deadlines: what a move of the clock carries out

What waits is carried out at its deadline, and it may leave something behind that waits in turn. A
move of the clock goes on with that until nothing more is due (`CarriesOut`, `Fires`). Since a pull
arms at most a decode pass, and a decode pass arms nothing, it carries out at most a pull and then a
decode pass (`Timely.exists_fires`), and after two delays nothing waits any more
(`Timely.isPending_advance`).

All this comes from what a single action leaves waiting (`Timely.debouncer_carryOut`).
-/

namespace ManagedRegion

open Image Region Smbios

namespace Service

variable {s after : Service} {delay time : Nat} {ran : List (Scheduled Action)}

/-! ## Carrying out what is due -/

/-- What waited is taken at its deadline. -/
def taken (s : Service) (deadline : Nat) : Service :=
  { s with debouncer := { s.debouncer with now := deadline, pending := none } }

/-- Carries out an action that waited, at its deadline. -/
def carryOut (s : Service) (due : Scheduled Action) : Service :=
  (s.taken due.deadline).perform due.action

/-- Nothing is due by a time. -/
def Rests (s : Service) (time : Nat) : Prop :=
  ∀ due, s.debouncer.pending = some due → time < due.deadline

/-- Actions are carried out one after the other, each at its deadline, until nothing more is due by
a time. -/
inductive CarriesOut (time : Nat) : Service → List (Scheduled Action) → Service → Prop where
  /-- Nothing is due. -/
  | done {s : Service} (hrests : s.Rests time) : CarriesOut time s [] s
  /-- What waits is due, and the rest follows. -/
  | next {s after : Service} {due : Scheduled Action} {ran : List (Scheduled Action)}
    (hwaits : s.debouncer.pending = some due) (hdue : due.deadline ≤ time)
    (hran : CarriesOut time (s.carryOut due) ran after) : CarriesOut time s (due :: ran) after

/-- A move of the clock carries out these actions: those that become due meanwhile, and no others.
Otherwise it does no more than set the clock. -/
def Fires (s : Service) (time : Nat) (ran : List (Scheduled Action)) : Prop :=
  ∃ after, CarriesOut (s.debouncer.now + time) s ran after ∧
    s.advance time =
      { after with debouncer := after.debouncer.setClock (s.debouncer.now + time) }

/-- There is only one way to carry out what is due. -/
theorem CarriesOut.unique {ran' : List (Scheduled Action)} {after' : Service}
    (h : CarriesOut time s ran after) (h' : CarriesOut time s ran' after') :
    ran' = ran ∧ after' = after := by
  induction h generalizing ran' with
  | done hrests =>
    cases h' with
    | done => exact ⟨rfl, rfl⟩
    | next hwaits hdue => exact absurd hdue (Nat.not_le.mpr (hrests _ hwaits))
  | next hwaits hdue _ ih =>
    cases h' with
    | done hrests => exact absurd hdue (Nat.not_le.mpr (hrests _ hwaits))
    | next hwaits' _ hran' =>
      obtain rfl := Option.some.inj (hwaits.symm.trans hwaits')
      obtain ⟨rfl, rfl⟩ := ih hran'
      exact ⟨rfl, rfl⟩

/-- Unless nothing is due, what waits is. -/
theorem exists_due_of_not_rests (h : ¬ s.Rests time) :
    ∃ due, s.debouncer.pending = some due ∧ due.deadline ≤ time := by
  simpa [Rests] using h

/-- What is not due stays. -/
theorem runDue_of_rests (h : s.Rests time) : s.runDue time = s := by
  cases hpending : s.debouncer.pending with
  | none => rw [runDue, Debouncer.takeDue, hpending]
  | some due =>
    rw [runDue, Debouncer.takeDue, hpending]
    simp only [if_neg (Nat.not_le.mpr (h due hpending))]

/-- What is due is carried out. -/
theorem runDue_of_due {due : Scheduled Action} (hwaits : s.debouncer.pending = some due)
    (hdue : due.deadline ≤ time) : s.runDue time = s.carryOut due := by
  rw [runDue, Debouncer.takeDue, hwaits]
  simp only [if_pos hdue]
  rfl

/-- While nothing is due, only the clock is set. -/
theorem advance_of_rests (h : s.Rests (s.debouncer.now + time)) :
    s.advance time = { s with debouncer := s.debouncer.setClock (s.debouncer.now + time) } := by
  rw [advance, runDue_of_rests h, runDue_of_rests h]

/-- While nothing is due, nothing is carried out. -/
theorem fires_nil (h : s.Rests (s.debouncer.now + time)) : s.Fires time [] :=
  ⟨s, .done h, advance_of_rests h⟩

/-! ## Services with a timer -/

/-- A service has a timer that keeps the given delay, and nothing waits longer than that. -/
structure Timely (delay : Nat) (s : Service) : Prop where
  /-- There is a timer. -/
  timing_eq : s.debouncer.timing = .delayed
  /-- It keeps this delay. -/
  delay_eq : s.debouncer.delay = delay
  /-- What waits is due after this delay or before. -/
  deadline_le : ∀ due, s.debouncer.pending = some due → due.deadline ≤ s.debouncer.now + delay

/-- A pull whose load succeeds leaves a decode pass waiting. -/
theorem Timely.debouncer_pull (h : Timely delay s) {report : LoadReport} {table : Table}
    (hload : load s.store s.table = (.ok report, table)) :
    s.pull.2.debouncer =
      { s.debouncer with pending := some ⟨s.debouncer.now + delay, .decode⟩ } := by
  rw [((takesOver_pull hload).armed h.timing_eq).1, h.delay_eq]

/-- A size that is recorded leaves a pull waiting. -/
theorem Timely.resize_eq (h : Timely delay s) (slot : Fin Directory.slots) (size : UInt32) :
    s.resize slot size = { s with
      directory := s.directory.setEntry slot { s.directory.entry slot with size }
      debouncer := { s.debouncer with pending := some ⟨s.debouncer.now + delay, .pull⟩ }
      journal := .resized slot size :: s.journal } := by
  let resized : Service := { s with
    directory := s.directory.setEntry slot { s.directory.entry slot with size }
    journal := .resized slot size :: s.journal }
  have htiming : resized.debouncer.timing = .delayed := h.timing_eq
  rw [← h.delay_eq]
  exact arm_of_delayed htiming .pull (·.perform .pull)

/-- With a timer, a pull hands no table over. -/
theorem Timely.handedOver_pull (h : Timely delay s) : s.pull.2.handedOver = s.handedOver := by
  rcases hload : load s.store s.table with ⟨failure | report, table⟩
  · exact (untouched_pull hload).handedOver_eq
  · exact ((takesOver_pull hload).armed h.timing_eq).2

/-- The timer stays the same when the clock or what waits changes, as long as nothing waits too
long. -/
theorem Timely.of_eq (h : Timely delay s) {now : Nat} {pending : Option (Scheduled Action)}
    (heq : after.debouncer = { s.debouncer with now, pending })
    (hdeadline : ∀ due, pending = some due → due.deadline ≤ now + delay) :
    Timely delay after := by
  constructor
  case timing_eq =>
    rw [heq]
    exact h.timing_eq
  case delay_eq =>
    rw [heq]
    exact h.delay_eq
  case deadline_le =>
    rw [heq]
    exact hdeadline

/-- What is armed now is due after the delay. -/
theorem Timely.of_armed (h : Timely delay s) {now : Nat} {action : Action}
    (harmed : after.debouncer =
      { s.debouncer with now, pending := some ⟨now + delay, action⟩ }) : Timely delay after := by
  refine h.of_eq harmed fun due hpending => ?_
  obtain rfl := Option.some.inj hpending
  exact Nat.le_refl _

/-- Where nothing waits, nothing waits too long. -/
theorem Timely.of_none (h : Timely delay s) {now : Nat}
    (hnone : after.debouncer = { s.debouncer with now, pending := none }) :
    Timely delay after :=
  h.of_eq hnone fun _ hpending => by cases hpending

/-- The rest of a service has nothing to do with its timer. -/
theorem Timely.congr (h : Timely delay s) (hdebouncer : after.debouncer = s.debouncer) :
    Timely delay after :=
  h.of_eq hdebouncer h.deadline_le

/-- Once what waited is taken, nothing waits. -/
theorem Timely.taken (h : Timely delay s) (deadline : Nat) : Timely delay (s.taken deadline) :=
  h.of_none rfl

/-- A pull that was due leaves a decode pass waiting if its load succeeds. -/
theorem Timely.debouncer_carryOut_of_ok (h : Timely delay s) {report : LoadReport} {table : Table}
    (hload : load s.store s.table = (.ok report, table)) (deadline : Nat) :
    (s.carryOut ⟨deadline, .pull⟩).debouncer =
      { s.debouncer with now := deadline, pending := some ⟨deadline + delay, .decode⟩ } := by
  have hload' : load (s.taken deadline).store (s.taken deadline).table = (.ok report, table) :=
    hload
  exact (h.taken deadline).debouncer_pull hload'

/-- **What an action leaves waiting**: nothing, unless it is a pull; a pull leaves a decode pass if
its load succeeds. -/
theorem Timely.debouncer_carryOut (h : Timely delay s) (due : Scheduled Action) :
    (s.carryOut due).debouncer = { s.debouncer with now := due.deadline, pending := none } ∨
      due.action = .pull ∧ (s.carryOut due).debouncer =
        { s.debouncer with
          now := due.deadline, pending := some ⟨due.deadline + delay, .decode⟩ } := by
  obtain ⟨deadline, action⟩ := due
  cases action with
  | decode => exact .inl rfl
  | pull =>
    rcases hload : load s.store s.table with ⟨failure | report, table⟩
    · have hload' : load (s.taken deadline).store (s.taken deadline).table =
          (.error failure, table) := hload
      exact .inl (untouched_pull hload').debouncer_eq
    · exact .inr ⟨rfl, h.debouncer_carryOut_of_ok hload deadline⟩

/-- A pull that was due hands no table over. -/
theorem Timely.handedOver_carryOut (h : Timely delay s) (deadline : Nat) :
    (s.carryOut ⟨deadline, .pull⟩).handedOver = s.handedOver :=
  (h.taken deadline).handedOver_pull

/-- Carrying an action out leaves the timer as it is. -/
theorem Timely.carryOut (h : Timely delay s) (due : Scheduled Action) :
    Timely delay (s.carryOut due) := by
  rcases h.debouncer_carryOut due with hnone | ⟨-, harmed⟩
  · exact h.of_none hnone
  · exact h.of_armed harmed

/-- So does carrying out all that is due, and the clock does not pass the time. -/
theorem Timely.carriesOut (h : Timely delay s) (hnow : s.debouncer.now ≤ time)
    (hran : CarriesOut time s ran after) :
    Timely delay after ∧ after.debouncer.now ≤ time := by
  induction hran with
  | done => exact ⟨h, hnow⟩
  | @next s _ due _ _ hdue _ ih =>
    have hclock : (s.carryOut due).debouncer.now = due.deadline := by
      rcases h.debouncer_carryOut due with hnone | ⟨-, harmed⟩
      · rw [hnone]
      · rw [harmed]
    exact ih (h.carryOut due) (hclock ▸ hdue)

/-! ## The reach of a move of the clock -/

/-- If what waits is due, it is carried out first. A pull may be followed by the decode pass that it
arms, if that is due as well, and there the chain ends; the two actions that a move of the clock
looks for are thus all that can be due. -/
theorem Timely.carriesOut_of_due (h : Timely delay s) {due : Scheduled Action}
    (hwaits : s.debouncer.pending = some due) (hdue : due.deadline ≤ time) :
    ∃ chained, CarriesOut time s (due :: chained) ((s.runDue time).runDue time) ∧
      (chained = [] ∨ due.action = .pull ∧ due.deadline + delay ≤ time ∧
        chained = [⟨due.deadline + delay, .decode⟩]) := by
  rw [runDue_of_due hwaits hdue]
  by_cases hrests : (s.carryOut due).Rests time
  · refine ⟨[], ?_, .inl rfl⟩
    rw [runDue_of_rests hrests]
    exact .next hwaits hdue (.done hrests)
  obtain ⟨pass, hpass, hpassDue⟩ := exists_due_of_not_rests hrests
  rcases h.debouncer_carryOut due with hnone | ⟨hpull, harmed⟩
  · rw [hnone] at hpass
    cases hpass
  · rw [runDue_of_due hpass hpassDue]
    rw [harmed] at hpass
    obtain rfl := Option.some.inj hpass
    -- a decode pass leaves nothing waiting
    have hrests' : ((s.carryOut due).carryOut ⟨due.deadline + delay, .decode⟩).Rests time :=
      fun _ hother => by cases hother
    have hpass : (s.carryOut due).debouncer.pending = some ⟨due.deadline + delay, .decode⟩ := by
      rw [harmed]
    exact ⟨_, .next hwaits hdue (.next hpass hpassDue (.done hrests')),
      .inr ⟨hpull, hpassDue, rfl⟩⟩

/-- **A move of the clock carries out at most a pull and then a decode pass.** -/
theorem Timely.exists_fires (h : Timely delay s) (time : Nat) :
    ∃ ran, s.Fires time ran ∧ (ran.map Scheduled.action).Sublist [.pull, .decode] := by
  by_cases hrests : s.Rests (s.debouncer.now + time)
  · exact ⟨[], fires_nil hrests, List.nil_sublist _⟩
  obtain ⟨due, hwaits, hdue⟩ := exists_due_of_not_rests hrests
  obtain ⟨chained, hran, hchained⟩ := h.carriesOut_of_due hwaits hdue
  refine ⟨due :: chained, ⟨_, hran, rfl⟩, ?_⟩
  rcases hchained with rfl | ⟨hpull, -, rfl⟩
  · cases haction : due.action <;> simp [haction]
  · simp [hpull]

/-- A move of the clock carries out one thing only. -/
theorem Fires.unique {ran' : List (Scheduled Action)} (h : s.Fires time ran)
    (h' : s.Fires time ran') : ran' = ran := by
  obtain ⟨after, hran, -⟩ := h
  obtain ⟨after', hran', -⟩ := h'
  exact (hran.unique hran').1

/-- A move of the clock leaves the timer as it is. -/
theorem Timely.advance (h : Timely delay s) (time : Nat) : Timely delay (s.advance time) := by
  obtain ⟨ran, ⟨after, hran, hadvance⟩, -⟩ := h.exists_fires time
  obtain ⟨hafter, hnow⟩ := h.carriesOut (Nat.le_add_right _ _) hran
  rw [hadvance]
  refine hafter.of_eq rfl fun due hpending => ?_
  exact Nat.le_trans (hafter.deadline_le due hpending) (Nat.add_le_add_right hnow delay)

/-- The time by which an action has been carried out, and what it arms as well. -/
def settledBy (delay : Nat) (due : Scheduled Action) : Nat :=
  match due.action with
  | .decode => due.deadline
  | .pull => due.deadline + delay

/-- An action is carried out before all that it arms has been. -/
theorem deadline_le_settledBy (delay : Nat) (due : Scheduled Action) :
    due.deadline ≤ settledBy delay due := by
  unfold settledBy
  split
  · exact Nat.le_refl _
  · exact Nat.le_add_right _ _

/-- Once what waits has been carried out with all that it arms, nothing waits. -/
theorem Timely.pending_eq_none (h : Timely delay s) (hran : CarriesOut time s ran after)
    (hsettled : ∀ due, s.debouncer.pending = some due → settledBy delay due ≤ time) :
    after.debouncer.pending = none := by
  induction hran with
  | @done s hrests =>
    cases hpending : s.debouncer.pending with
    | none => rfl
    | some due =>
      have hdue := Nat.le_trans (deadline_le_settledBy delay due) (hsettled due hpending)
      exact absurd hdue (Nat.not_le.mpr (hrests due hpending))
  | @next s _ due _ hwaits _ _ ih =>
    refine ih (h.carryOut due) fun armed harmed => ?_
    rcases h.debouncer_carryOut due with hnone | ⟨hpull, hpass⟩
    · rw [hnone] at harmed
      cases harmed
    · -- the decode pass that a pull arms is the end of what the pull set off
      have hreach := hsettled due hwaits
      rw [hpass] at harmed
      obtain rfl := Option.some.inj harmed
      rw [settledBy, hpull] at hreach
      exact hreach

/-- **After two delays nothing waits any more.** -/
theorem Timely.isPending_advance (h : Timely delay s) (hlong : 2 * delay ≤ time) :
    (s.advance time).isPending = false := by
  obtain ⟨ran, ⟨after, hran, hadvance⟩, -⟩ := h.exists_fires time
  have hnone : after.debouncer.pending = none := by
    refine h.pending_eq_none hran fun due hpending => ?_
    have hdeadline := h.deadline_le due hpending
    unfold settledBy
    split <;> omega
  rw [hadvance, isPending, Debouncer.isPending, Debouncer.setClock, hnone]
  rfl

end Service

end ManagedRegion
