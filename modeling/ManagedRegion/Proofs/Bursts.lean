import ManagedRegion.Proofs.Deadlines
import ManagedRegion.Proofs.Passes
import ManagedRegion.Proofs.Quiescence

/-!
# Bursts: how long a decode pass can be put off

An arming call is a synchronization that succeeds or a size that is recorded. A burst is a run in
which one arming call follows the other before the delay is over (`Burst`). What the last call has
armed is then all that waits, so that nothing is carried out until the delay is over behind that
call, and then just that (`Postponed`). The delay that counts is the one that the timer keeps
(`not_postponed_asked`).

The induction is on the burst: each step of it either arms anew, or leaves the timer alone, or moves
the clock to a time before the deadline (`Burst.awaits`).
-/

namespace ManagedRegion

open Image Region Smbios

namespace Service

variable {s after : Service} {delay time : Nat} {what : Step} {action : Action}

/-! ## Arming calls -/

/-- A step is a call that arms an action: a synchronization that succeeds arms a decode pass, and a
size that is recorded arms a pull. -/
inductive Arms (s : Service) : Step → Action → Prop where
  /-- A synchronization says that it has succeeded. -/
  | synchronize (hloaded : (s.handle .synchronize).1 = .ok (.flag true)) :
    Arms s (.request .synchronize) .decode
  /-- A synchronization says what came of it. -/
  | pull {report : LoadReport} (hloaded : (s.handle .pull).1 = .ok (.report report)) :
    Arms s (.request .pull) .decode
  /-- A size is recorded. -/
  | synchronizeCommonData {index : Nat} {size : UInt32} {data : CommonData}
    (hrecorded : (s.handle (.synchronizeCommonData index size)).1 = .ok (.commonData data)) :
    Arms s (.request (.synchronizeCommonData index size)) .pull

/-- A synchronization whose load succeeds is an arming call. -/
theorem arms_of_load {report : LoadReport} {table : Table}
    (hload : load s.store s.table = (.ok report, table)) :
    s.Arms (.request .synchronize) .decode ∧ s.Arms (.request .pull) .decode := by
  obtain ⟨hpull, hsynchronize, -⟩ := synchronize_effect s
  have hflag : (s.handle .synchronize).1 = .ok (.flag true) := by
    rw [hsynchronize, hload]
    rfl
  have hreport : (s.handle .pull).1 = .ok (.report report) := by
    rw [hpull, hload]
    rfl
  exact ⟨.synchronize hflag, .pull hreport⟩

/-- A size that is recorded for a region that there is is an arming call. -/
theorem arms_of_lt {index : Nat} (h : index < Directory.slots) (size : UInt32) :
    s.Arms (.request (.synchronizeCommonData index size)) .pull := by
  have hanswer := congrArg Prod.fst (synchronizeCommonData_of_lt s h size)
  exact .synchronizeCommonData (congrArg (handle.reply .commonData) hanswer)

/-- What an arming call arms waits for the delay, in the place of what waited. -/
theorem Arms.debouncer_eq (harms : s.Arms what action) (h : Timely delay s) :
    (s.step what).debouncer =
      { s.debouncer with pending := some ⟨s.debouncer.now + delay, action⟩ } := by
  obtain ⟨hpull, hsynchronize, -⟩ := synchronize_effect s
  cases harms with
  | synchronizeCommonData hrecorded =>
    obtain ⟨slot, -, hresize⟩ := handle_synchronizeCommonData hrecorded
    rw [hresize, h.resize_eq]
  | synchronize hloaded =>
    rcases hload : load s.store s.table with ⟨failure | report, table⟩
    · rw [hsynchronize, hload] at hloaded
      cases hloaded
    · exact h.debouncer_pull hload
  | pull hloaded =>
    rcases hload : load s.store s.table with ⟨failure | report, table⟩
    · rw [hpull, hload] at hloaded
      cases hloaded
    · exact h.debouncer_pull hload

/-- An arming call does not move the clock. -/
theorem Arms.now_eq (harms : s.Arms what action) (h : Timely delay s) :
    (s.step what).debouncer.now = s.debouncer.now := by
  rw [harms.debouncer_eq h]

/-- A pull whose load fails leaves the timer alone. -/
theorem debouncer_pull_of_not_ok (h : ∀ report table, load s.store s.table ≠ (.ok report, table)) :
    s.pull.2.debouncer = s.debouncer := by
  rcases hload : load s.store s.table with ⟨failure | report, table⟩
  · exact (untouched_pull hload).debouncer_eq
  · exact absurd hload (h report table)

/-- A request that is no arming call leaves the timer alone. -/
theorem debouncer_handle_of_not_arms {request : Request}
    (hnot : ∀ action, ¬ s.Arms (.request request) action) :
    (s.handle request).2.debouncer = s.debouncer := by
  cases request with
  | synchronize =>
    exact debouncer_pull_of_not_ok fun _ _ hload => hnot .decode (arms_of_load hload).1
  | pull => exact debouncer_pull_of_not_ok fun _ _ hload => hnot .decode (arms_of_load hload).2
  | synchronizeCommonData index size =>
    by_cases hindex : index < Directory.slots
    · exact absurd (arms_of_lt hindex size) (hnot .pull)
    · show (s.synchronizeCommonData index size).2.debouncer = _
      rw [synchronizeCommonData_of_le s (Nat.le_of_not_lt hindex)]
  | sendDirectory page =>
    show (s.receivePage page).2.debouncer = _
    rcases s.receivePage_cases page with ⟨-, fault, hpage⟩ | ⟨-, -, hpage⟩ | ⟨-, hpage⟩ <;>
      rw [hpage]
  | sendInformation index flag dataSetSize dataVersion timestamp =>
    show (s.receiveInformation index dataSetSize dataVersion timestamp).2.debouncer = _
    unfold receiveInformation
    split <;> rfl
  | directoryInformation | dataInformation | dataOffer | findIndex | publishEntries | records => rfl

/-- With a timer, a request hands no table over. -/
theorem Timely.handedOver_handle (h : Timely delay s) (request : Request) :
    (s.handle request).2.handedOver = s.handedOver := by
  have hpull := h.handedOver_pull
  cases request with
  | synchronize => exact hpull
  | pull => exact hpull
  | synchronizeCommonData index size =>
    show (s.synchronizeCommonData index size).2.handedOver = _
    by_cases hindex : index < Directory.slots
    · rw [synchronizeCommonData_of_lt s hindex, h.resize_eq]
      rfl
    · rw [synchronizeCommonData_of_le s (Nat.le_of_not_lt hindex)]
  | sendDirectory page =>
    exact congrArg (Situation.journal · |>.filterMap Event.handedOver?)
      (situation_receivePage s page)
  | sendInformation index flag dataSetSize dataVersion timestamp =>
    exact congrArg (Situation.journal · |>.filterMap Event.handedOver?)
      (situation_receiveInformation s index dataSetSize dataVersion timestamp)
  | directoryInformation | dataInformation | dataOffer | findIndex | publishEntries | records => rfl

/-- An arming call hands no table over. -/
theorem Arms.handedOver_eq (harms : s.Arms what action) (h : Timely delay s) :
    (s.step what).handedOver = s.handedOver := by
  cases harms with
  | synchronize => exact h.handedOver_handle _
  | pull => exact h.handedOver_handle _
  | synchronizeCommonData => exact h.handedOver_handle _

/-- No step changes the timer itself. -/
theorem Timely.step (h : Timely delay s) (what : Step) : Timely delay (s.step what) := by
  cases what with
  | request request =>
    by_cases harms : ∃ action, s.Arms (.request request) action
    · obtain ⟨action, harms⟩ := harms
      exact h.of_armed (harms.debouncer_eq h)
    · exact h.congr (debouncer_handle_of_not_arms (not_exists.mp harms))
  | store store => exact h.congr rfl
  | advance time => exact h.advance time

/-- Nor does a run. -/
theorem Timely.run (h : Timely delay s) (steps : List Step) : Timely delay (s.run steps) := by
  induction steps generalizing s with
  | nil => exact h
  | cons what steps ih => exact ih (h.step what)

/-- The first step of a service is a pull. -/
theorem start_run [Timer] (timing : Timing) (delay : Nat) (store : Store) (steps : List Step) :
    (start timing delay store).run steps =
      (idle timing delay store).run (.request .pull :: steps) := rfl

/-- A service begins with the delay that its timer keeps. -/
theorem timely_idle [Timer] (delay : Nat) (store : Store) :
    Timely (Timer.kept delay) (idle .delayed delay store) :=
  ⟨rfl, rfl, fun _ hpending => by cases hpending⟩

/-! ## Bursts -/

/-- Steps that begin with an arming call, in which each further arming call comes before the delay
is over behind the one before it, and in which the clock does not reach the end of a delay. They are
told apart by when the last call came and what it armed. -/
inductive Burst (delay : Nat) (s : Service) : List Step → Nat → Action → Prop where
  /-- The first call. -/
  | call {what : Step} {action : Action} (harms : s.Arms what action) :
    Burst delay s [what] s.debouncer.now action
  /-- The first call may also be that of the timer: a pull becomes due, its load succeeds, and the
  decode pass that it arms is not due yet. -/
  | repull {time last : Nat} {report : LoadReport} {table : Table}
    (hfires : s.Fires time [⟨last, .pull⟩])
    (hload : load s.store s.table = (.ok report, table)) :
    Burst delay s [.advance time] last .decode
  /-- Another call comes before the delay is over. -/
  | again {steps : List Step} {last : Nat} {earlier action : Action} {what : Step}
    (hburst : Burst delay s steps last earlier) (harms : (s.run steps).Arms what action)
    (hsoon : (s.run steps).debouncer.now < last + delay) :
    Burst delay s (steps ++ [what]) (s.run steps).debouncer.now action
  /-- Something else happens; if time passes, the delay is not over yet. -/
  | other {steps : List Step} {last : Nat} {action : Action} {what : Step}
    (hburst : Burst delay s steps last action)
    (hnot : ∀ next, ¬ (s.run steps).Arms what next)
    (hsoon : ∀ time, what = .advance time → (s.run steps).debouncer.now + time < last + delay) :
    Burst delay s (steps ++ [what]) last action

/-- Nothing is carried out in the steps behind the first one. -/
def Still (s : Service) (steps : List Step) : Prop :=
  ∀ before time later, steps = before ++ .advance time :: later → before ≠ [] →
    (s.run before).Fires time []

/-- What the last call has armed is all that waits, and nothing has been carried out since the first
call. -/
structure Awaits (delay : Nat) (s : Service) (steps : List Step) (last : Nat) (action : Action) :
    Prop where
  /-- Nothing has been carried out since the first of the calls. -/
  still : s.Still steps
  /-- No table has been handed over. -/
  handedOver_eq : (s.run steps).handedOver = s.handedOver
  /-- The action of the last one waits until the delay is over behind it. -/
  waits : (s.run steps).debouncer.pending = some ⟨last + delay, action⟩

/-- What steps put off that end with the given call: all but its action. -/
structure Postponed (delay : Nat) (s : Service) (steps : List Step) (last : Nat)
    (action : Action) : Prop extends Awaits delay s steps last action where
  /-- Until the delay is over nothing is carried out. -/
  early : ∀ time, (s.run steps).debouncer.now + time < last + delay → (s.run steps).Fires time []
  /-- Then that action is carried out, and no other, unless it is a pull and the delay is over
  behind the pull as well: then the decode pass that it has armed follows. -/
  late : ∀ time, last + delay ≤ (s.run steps).debouncer.now + time →
    ∃ chained, (s.run steps).Fires time (⟨last + delay, action⟩ :: chained) ∧
      (chained = [] ∨ action = .pull ∧
        last + delay + delay ≤ (s.run steps).debouncer.now + time ∧
        chained = [⟨last + delay + delay, .decode⟩])

variable {steps : List Step} {last : Nat}

/-- A run goes on with one more step. -/
theorem run_concat (s : Service) (steps : List Step) (what : Step) :
    s.run (steps ++ [what]) = (s.run steps).step what := by
  rw [run_append]
  rfl

/-- There is nothing behind the only step. -/
theorem still_singleton (s : Service) (what : Step) : s.Still [what] := by
  intro before time later hsteps hbefore
  cases before with
  | nil => exact absurd rfl hbefore
  | cons first before => simp at hsteps

/-- One more step carries nothing out, unless it is a move of the clock that does. -/
theorem Still.concat (h : s.Still steps)
    (hlast : ∀ time, what = .advance time → (s.run steps).Fires time []) :
    s.Still (steps ++ [what]) := by
  intro before time later hsteps hbefore
  rcases List.eq_nil_or_concat later with rfl | ⟨later, final, rfl⟩
  · obtain ⟨rfl, hwhat⟩ := List.append_inj' hsteps rfl
    exact hlast time (List.singleton_inj.mp hwhat)
  · rw [List.concat_eq_append, ← List.cons_append, ← List.append_assoc] at hsteps
    exact h before time later (List.append_inj' hsteps rfl).1 hbefore

/-- Where a later action waits, nothing is due. -/
theorem rests_of_lt {due : Scheduled Action} (hwaits : s.debouncer.pending = some due)
    (h : time < due.deadline) : s.Rests time := by
  intro other hother
  obtain rfl := Option.some.inj (hwaits.symm.trans hother)
  exact h

/-- The first call makes its action wait. -/
theorem Timely.awaits_call (h : Timely delay s) (harms : s.Arms what action) :
    Awaits delay s [what] s.debouncer.now action where
  still := still_singleton s what
  handedOver_eq := harms.handedOver_eq h
  waits := congrArg Debouncer.pending (harms.debouncer_eq h)

/-- A pull that was due makes a decode pass wait, if its load succeeds. -/
theorem Timely.awaits_repull (h : Timely delay s) {report : LoadReport} {table : Table}
    (hfires : s.Fires time [⟨last, .pull⟩])
    (hload : load s.store s.table = (.ok report, table)) :
    Awaits delay s [.advance time] last .decode := by
  obtain ⟨after, hran, hadvance⟩ := hfires
  obtain ⟨⟩ | ⟨hwaits, hdue, ⟨⟩⟩ := hran
  refine ⟨still_singleton s (.advance time), ?_, ?_⟩
  · show (s.advance time).handedOver = _
    rw [hadvance]
    exact h.handedOver_carryOut last
  · show (s.advance time).debouncer.pending = _
    rw [hadvance, Debouncer.setClock, h.debouncer_carryOut_of_ok hload]

/-- Another call puts its action in the place of the one that waits. -/
theorem Awaits.again {earlier : Action} (hawaits : Awaits delay s steps last earlier)
    (h : Timely delay s) (harms : (s.run steps).Arms what action) :
    Awaits delay s (steps ++ [what]) (s.run steps).debouncer.now action := by
  constructor
  case still =>
    refine hawaits.still.concat fun time hadvance => ?_
    subst hadvance
    cases harms
  case handedOver_eq =>
    rw [run_concat, harms.handedOver_eq (h.run steps), hawaits.handedOver_eq]
  case waits => rw [run_concat, harms.debouncer_eq (h.run steps)]

/-- A request that is no arming call lets the action wait on. -/
theorem Awaits.request (hawaits : Awaits delay s steps last action) (h : Timely delay s)
    {request : Request} (hnot : ∀ next, ¬ (s.run steps).Arms (.request request) next) :
    Awaits delay s (steps ++ [.request request]) last action := by
  constructor
  case still => exact hawaits.still.concat fun _ hadvance => by cases hadvance
  case handedOver_eq =>
    rw [run_concat]
    exact ((h.run steps).handedOver_handle request).trans hawaits.handedOver_eq
  case waits =>
    rw [run_concat]
    show ((s.run steps).handle request).2.debouncer.pending = _
    rw [debouncer_handle_of_not_arms hnot]
    exact hawaits.waits

/-- So does another image in the store. -/
theorem Awaits.store (hawaits : Awaits delay s steps last action) (store : Store) :
    Awaits delay s (steps ++ [.store store]) last action := by
  constructor
  case still => exact hawaits.still.concat fun _ hadvance => by cases hadvance
  case handedOver_eq =>
    rw [run_concat]
    exact hawaits.handedOver_eq
  case waits =>
    rw [run_concat]
    exact hawaits.waits

/-- So does a move of the clock that does not reach its deadline. -/
theorem Awaits.advance (hawaits : Awaits delay s steps last action)
    (hsoon : (s.run steps).debouncer.now + time < last + delay) :
    Awaits delay s (steps ++ [.advance time]) last action := by
  have hrests := rests_of_lt hawaits.waits hsoon
  have hadvance : (s.run steps).step (.advance time) = _ := advance_of_rests hrests
  constructor
  case still =>
    refine hawaits.still.concat fun _ hsame => ?_
    obtain rfl := Step.advance.inj hsame
    exact fires_nil hrests
  case handedOver_eq =>
    rw [run_concat, hadvance]
    exact hawaits.handedOver_eq
  case waits =>
    rw [run_concat, hadvance]
    exact hawaits.waits

/-- **In a burst nothing is carried out, and what the last call has armed waits.** -/
theorem Burst.awaits (hburst : Burst delay s steps last action) (h : Timely delay s) :
    Awaits delay s steps last action := by
  induction hburst with
  | call harms => exact h.awaits_call harms
  | repull hfires hload => exact h.awaits_repull hfires hload
  | again _ harms _ ih => exact ih.again h harms
  | @other steps last action what _ hnot hsoon ih =>
    cases what with
    | request request => exact ih.request h hnot
    | store store => exact ih.store store
    | advance time => exact ih.advance (hsoon time rfl)

/-- **A burst puts everything off but the action of its last call.** -/
theorem Burst.postponed (hburst : Burst delay s steps last action) (h : Timely delay s) :
    Postponed delay s steps last action := by
  have hawaits := hburst.awaits h
  refine { hawaits with early := fun time hearly => ?_, late := fun time hlate => ?_ }
  · exact fires_nil (rests_of_lt hawaits.waits hearly)
  · obtain ⟨chained, hran, hchained⟩ := (h.run steps).carriesOut_of_due hawaits.waits hlate
    exact ⟨chained, ⟨_, hran, rfl⟩, hchained⟩

/-- A size that is recorded while the decode pass of a synchronization waits goes on with the burst
which that has begun. -/
theorem Timely.burst_resize (h : Timely delay s) {report : LoadReport} {table : Table}
    (hload : load s.store s.table = (.ok report, table)) (time : Nat) (hsoon : time < delay)
    {index : Nat} (hindex : index < Directory.slots) (size : UInt32) :
    let steps : List Step :=
      [.request .pull, .advance time, .request (.synchronizeCommonData index size)]
    Burst delay s steps (s.debouncer.now + time) .pull ∧
      (s.run steps).debouncer.now = s.debouncer.now + time := by
  intro steps
  let waiting := s.run [.request .pull, .advance time]
  have hpull := (arms_of_load hload).2
  have hresize : waiting.Arms (.request (.synchronizeCommonData index size)) .pull :=
    arms_of_lt hindex size
  have hnow : (s.run [.request .pull]).debouncer.now = s.debouncer.now := hpull.now_eq h
  have hnow' : waiting.debouncer.now = s.debouncer.now + time := congrArg (· + time) hnow
  have hwait : Burst delay s [.request .pull, .advance time] s.debouncer.now .decode := by
    refine .other (.call hpull) (fun _ hnone => by cases hnone) fun _ htime => ?_
    obtain rfl := Step.advance.inj htime
    rw [hnow]
    exact Nat.add_lt_add_left hsoon _
  have hcall : Burst delay s steps waiting.debouncer.now .pull := by
    refine .again hwait hresize ?_
    rw [hnow']
    exact Nat.add_lt_add_left hsoon _
  rw [← hnow']
  exact ⟨hcall, hresize.now_eq (h.run [.request .pull, .advance time])⟩

/-! ## The whole law -/

/-- What is said of a service with a timer that was asked to keep a delay. -/
structure Paced [Timer] (asked : Nat) (s : Service) : Prop where
  /-- A move of the clock carries out at most a pull and then a decode pass, and nothing else. -/
  fires : ∀ time, ∃ ran, s.Fires time ran ∧
    (ran.map Scheduled.action).Sublist [.pull, .decode] ∧
    ∀ other, s.Fires time other → other = ran
  /-- A move by two delays leaves nothing pending. -/
  settles : ∀ time, 2 * asked ≤ time → (s.advance time).isPending = false
  /-- A burst puts everything off but the action of its last call, with the delay that the timer
  keeps. -/
  postpones : ∀ steps last action, Burst (Timer.kept asked) s steps last action →
    Postponed (Timer.kept asked) s steps last action

/-- All this is so with the delay that the timer keeps. -/
theorem Timely.paced [Timer] {asked : Nat} (h : Timely (Timer.kept asked) s) : Paced asked s where
  fires time := by
    obtain ⟨ran, hran, hchain⟩ := h.exists_fires time
    exact ⟨ran, hran, hchain, fun _ hother => hran.unique hother⟩
  settles time hlong := by
    have hkept := Timer.kept_le asked
    exact h.isPending_advance (by omega)
  postpones _ _ _ hburst := hburst.postponed h

/-- **Decode passes are caused by loads, and bounded.** There are never more passes than loads that
have succeeded, and without a timer there are as many after each step. With a timer, a move of the
clock carries out a pull and a decode pass at most, and a burst puts everything off but the action
of its last call. A burst may begin with the pull with which the service itself begins, and is then
one of a service that is idle. -/
theorem paced_passes [Timer] (delay : Nat) (store : Store) (steps : List Step) :
    (∀ timing earlier, earlier <:+ ((start timing delay store).run steps).journal →
      passes earlier ≤ (loads earlier).length) ∧
    ((start .immediate delay store).run steps).decodes =
      (loads ((start .immediate delay store).run steps).journal).length ∧
    Paced delay (idle .delayed delay store) ∧
    Paced delay ((start .delayed delay store).run steps) := by
  have hidle := timely_idle delay store
  have hrun := hidle.run (.request .pull :: steps)
  rw [← start_run] at hrun
  exact ⟨fun timing _ hearlier => passes_le_loads timing delay store steps hearlier,
    matched_start_run delay store steps, hidle.paced, hrun.paced⟩

/-- Of a service that has loaded the minimal content, a size is recorded while the first decode pass
waits. The pass is superseded, and the pull that takes its place runs a delay behind the call. -/
theorem paced_passes_burst :
    let s := idle .delayed 2000 (.memory (some (encode 1 0 minimalContent)))
    let steps : List Step :=
      [.request .pull, .advance 1500, .request (.synchronizeCommonData 0 64)]
    s.Still steps ∧ (s.run steps).Fires 2000 [⟨3500, .pull⟩] ∧
      ((s.run steps).advance 4000).isPending = false ∧
      passes (s.run steps).journal ≤ (loads (s.run steps).journal).length := by
  intro s steps
  obtain ⟨hpasses, -, hidle, hrun⟩ :=
    paced_passes 2000 (.memory (some (encode 1 0 minimalContent))) steps.tail
  have hpass := hpasses .delayed _ List.suffix_rfl
  rw [start_run] at hpass hrun
  have hkept : Timer.kept 2000 = 2000 := Executor.kept_of_le (by decide)
  have hindex : 0 < Directory.slots := by decide
  have htimely : Timely (Timer.kept 2000) s := timely_idle 2000 _
  have hpostpones := hidle.postpones steps 1500 .pull
  rw [hkept] at htimely hpostpones
  obtain ⟨hburst, hnow⟩ :=
    htimely.burst_resize (load_minimalContent .empty) 1500 (by decide) hindex 64
  have hnow : (s.run steps).debouncer.now = 1500 := hnow
  have hpostponed : Postponed 2000 s steps 1500 .pull := hpostpones hburst
  refine ⟨hpostponed.still, ?_, hrun.settles 4000 (by decide), hpass⟩
  obtain ⟨chained, hfires, rfl | ⟨-, hlong, -⟩⟩ := hpostponed.late 2000 (by omega)
  · exact hfires
  · omega

/-- If a longer delay is asked for than the timer keeps, the first pass runs too early for it. -/
theorem not_postponed_of_lt [Timer] (h : Timer.kept delay < delay) {store : Store}
    {report : LoadReport} {table : Table} (hload : load store .empty = (.ok report, table)) :
    ¬ Postponed delay (idle .delayed delay store) [.request .pull] 0 .decode := by
  intro hpostponed
  have htimely := timely_idle delay store
  have harms : (idle .delayed delay store).Arms (.request .pull) .decode := (arms_of_load hload).2
  let first := (idle .delayed delay store).step (.request .pull)
  have hnow : first.debouncer.now = 0 := harms.now_eq htimely
  -- the pass is due after the delay that is kept, before the one that was asked for is over
  have hwaits : first.debouncer.pending = some ⟨0 + Timer.kept delay, .decode⟩ :=
    congrArg Debouncer.pending (harms.debouncer_eq htimely)
  have hdue : 0 + Timer.kept delay ≤ first.debouncer.now + Timer.kept delay := by omega
  have hsoon : first.debouncer.now + Timer.kept delay < 0 + delay := by omega
  obtain ⟨chained, hran, -⟩ := (htimely.step (.request .pull)).carriesOut_of_due hwaits hdue
  have hfires : first.Fires (Timer.kept delay) (_ :: chained) := ⟨_, hran, rfl⟩
  exact absurd (hfires.unique (hpostponed.early (Timer.kept delay) hsoon)) (by simp)

/-- Longer than the longest sleep of the executor nothing waits, so the delay that was asked for is
not always the one that counts. -/
theorem not_postponed_asked :
    ¬ ∀ (delay : Nat) (store : Store) (steps : List Step) (last : Nat) (action : Action),
      Burst delay (idle .delayed delay store) steps last action →
      Postponed delay (idle .delayed delay store) steps last action := by
  intro hclaim
  have hlong : Executor.longestSleep < Executor.longestSleep + 1 := Nat.lt_succ_self _
  have hcut : Timer.kept (Executor.longestSleep + 1) < Executor.longestSleep + 1 := by
    rwa [Executor.kept_of_lt hlong]
  refine not_postponed_of_lt hcut (load_minimalContent .empty) ?_
  exact hclaim _ _ _ _ _ (.call (arms_of_load (load_minimalContent _)).2)

end Service

end ManagedRegion
