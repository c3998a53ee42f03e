import ManagedRegion.Platform.Executor
import ManagedRegion.Proofs.Outlines
import ManagedRegion.Proofs.Tasks

/-!
# Debouncing: which armed actions run, and when

With a timer, an armed action runs exactly if the clock gets to its deadline before anything else is
armed, the action is forgotten, or the debouncer is given up; it then runs once, in the move of the
clock that gets there. `Debounces` says this, and what follows from it for the marks and for what
waits, of all sessions with one delay; `RunsInline` says what holds without a timer.

Both are known of outlines, which have a deadline in the place of tasks. That sessions show what
their outlines do is `Session.begin_run_shows`, so they hold of sessions as well
(`debounces_session`). The delay that counts is the one that the timer keeps, and with the executor
of the program that is not every delay (`not_debounces_session`).
-/

namespace ManagedRegion.Debouncer

variable {α : Type}

/-! ## What debouncing means -/

/-- What sessions with a timer do that keeps the given delay. -/
structure Debounces (delay : Nat) (session : List (Step α) → Session α) : Prop where
  /-- Each armed action runs exactly once or never, whatever was armed before and is later. -/
  fired_arm : ∀ before mark after, .drop ∉ before →
    (session (before ++ .arm mark :: after)).fired =
      (session before).fired ++ (if runsIn delay after then [mark] else []) ++ (session after).fired
  /-- It runs in the move of the clock that gets to its deadline, and not before. -/
  fired_advance : ∀ before mark times time, .drop ∉ before → times = [] ∨ times.sum < delay →
    delay ≤ times.sum + time →
    (session (before ++ .arm mark :: times.map .advance)).fired = (session before).fired ∧
      (session (before ++ .arm mark :: (times ++ [time]).map .advance)).fired =
        (session before).fired ++ [mark]
  /-- Nothing runs once the debouncer has been given up. -/
  fired_drop : ∀ before after,
    (session (before ++ .drop :: after)).fired = (session before).fired
  /-- The marks are in the order in which the actions were armed, each at most once. -/
  fired_sublist : ∀ steps, (session steps).fired.Sublist (steps.filterMap Step.mark?)
  /-- At most one task sleeps. -/
  length_tasks_le : ∀ steps, (session steps).tasks.length ≤ 1
  /-- Something waits exactly if the action that was armed last has not run and has neither been
  forgotten nor given up. -/
  pending_iff : ∀ steps, (session steps).pending? = some true ↔
    .drop ∉ steps ∧ ∃ before mark after, steps = before ++ .arm mark :: after ∧
      (∀ other, .arm other ∉ after) ∧ .cancel ∉ after ∧ runsIn delay after = false
  /-- Two moves of the clock come to the same as one. -/
  advance_add : ∀ before first second after,
    (session (before ++ .advance first :: .advance second :: after)).fired =
        (session (before ++ .advance (first + second) :: after)).fired ∧
      (session (before ++ .advance first :: .advance second :: after)).pending? =
        (session (before ++ .advance (first + second) :: after)).pending?

/-- What sessions do that have no timer. -/
structure RunsInline (session : List (Step α) → Session α) : Prop where
  /-- After each step, all that has been armed so far has run, in this order. -/
  fired_eq : ∀ steps, .drop ∉ steps → (session steps).fired = steps.filterMap Step.mark?
  /-- Nothing runs once the debouncer has been given up. -/
  fired_drop : ∀ before after,
    (session (before ++ .drop :: after)).fired = (session before).fired
  /-- Nothing ever waits. -/
  pending_ne : ∀ steps, (session steps).pending? ≠ some true

section Sessions

variable [Timer] {timing : Timing} {delay : Nat}

/-- Once the debouncer has been given up, the marks are those that there are. -/
theorem fired_session_drop (before after : List (Step α)) :
    (session timing delay (before ++ .drop :: after)).fired =
      (session timing delay before).fired := by
  rw [fired_session, fired_session, Outline.run_append]
  show ((((Outline.start timing delay).run before).step .drop).run after).fired = _
  rw [Outline.step_drop, Outline.run_none]

/-- Once the debouncer has been given up, there is nothing to ask what waits. -/
theorem pending?_session_of_mem_drop {steps : List (Step α)} (h : .drop ∈ steps) :
    (session timing delay steps).pending? = none := by
  rw [pending?_session, Outline.pending?, Outline.run_of_mem_drop _ h]
  rfl

/-- The marks of a session with a timer, said of each armed action by itself. -/
theorem fired_session_delayed (steps : List (Step α)) :
    (session .delayed delay steps).fired = marks (Timer.kept delay) steps := by
  rw [fired_session]
  exact ((Outline.fired_run steps).1 0 []).trans (List.nil_append _)

/-- The action that is armed waits for the delay that the timer keeps. -/
theorem run_start_arm (delay : Nat) {before : List (Step α)} (h : .drop ∉ before) (mark : α)
    (after : List (Step α)) :
    ∃ now, (Outline.start .delayed delay).run (before ++ .arm mark :: after) =
      (Outline.waiting (Timer.kept delay) now (Timer.kept delay) mark
        (session .delayed delay before).fired).run after := by
  obtain ⟨d, htiming, hdelay, hrun⟩ :=
    Outline.run_of_not_mem_drop (create .delayed delay) ([] : List α) h
  refine ⟨d.now, ?_⟩
  rw [fired_session, Outline.run_append]
  show (((Outline.start .delayed delay).run before).step (.arm mark)).run after = _
  rw [Outline.start, hrun, Outline.step_arm htiming, hdelay]
  rfl

/-- Whatever was armed before, an armed action runs if nothing comes in between. -/
theorem fired_session_arm {before : List (Step α)} (h : .drop ∉ before) (mark : α)
    (after : List (Step α)) :
    (session .delayed delay (before ++ .arm mark :: after)).fired =
      (session .delayed delay before).fired ++
        (if runsIn (Timer.kept delay) after then [mark] else []) ++
        (session .delayed delay after).fired := by
  obtain ⟨now, hrun⟩ := run_start_arm delay h mark after
  rw [fired_session .delayed delay (before ++ _), hrun, fired_session_delayed after]
  exact (Outline.fired_run after).2 _ _ _ _

/-- While the clock moves and nothing else happens, the armed action runs once it is due. -/
theorem fired_session_arm_advance {before : List (Step α)} (h : .drop ∉ before) (mark : α)
    (times : List Nat) :
    (session .delayed delay (before ++ .arm mark :: times.map .advance)).fired =
      (session .delayed delay before).fired ++
        if times ≠ [] ∧ Timer.kept delay ≤ times.sum then [mark] else [] := by
  have hlater : (session .delayed delay (times.map (.advance : Nat → Step α))).fired = [] := by
    rw [fired_session_delayed, ← List.sublist_nil]
    have hnone : (times.map (.advance : Nat → Step α)).filterMap Step.mark? = [] := by
      simp [Step.mark?]
    exact hnone ▸ marks_sublist _ _
  rw [fired_session_arm h, hlater, List.append_nil]
  simp only [runsIn_map_advance]

/-- What waits in a session with a timer. -/
theorem pending?_session_delayed (steps : List (Step α)) :
    (session .delayed delay steps).pending? = some true ↔
      .drop ∉ steps ∧ ∃ before mark after, steps = before ++ .arm mark :: after ∧
        (∀ other, .arm other ∉ after) ∧ .cancel ∉ after ∧
        runsIn (Timer.kept delay) after = false := by
  by_cases hdrop : .drop ∈ steps
  · rw [pending?_session_of_mem_drop hdrop]
    simp [hdrop]
  constructor
  · intro hpending
    rw [pending?_session] at hpending
    rcases none_or_last_armed steps with hnone | ⟨before, mark, after, rfl, hlast⟩
    · exact absurd hpending (Outline.pending?_run_resting hnone 0 [])
    · obtain ⟨hbefore, -⟩ := not_or.mp (mt List.mem_append.mpr hdrop)
      obtain ⟨now, hrun⟩ := run_start_arm delay hbefore mark after
      rw [hrun, Outline.pending?_run_waiting hlast] at hpending
      exact ⟨hdrop, before, mark, after, rfl, hlast, hpending.2⟩
  · rintro ⟨-, before, mark, after, rfl, hlast, hcancel, hruns⟩
    obtain ⟨hbefore, hafter⟩ := not_or.mp (mt List.mem_append.mpr hdrop)
    obtain ⟨now, hrun⟩ := run_start_arm delay hbefore mark after
    rw [pending?_session, hrun, Outline.pending?_run_waiting hlast]
    exact ⟨fun hmem => hafter (List.mem_cons_of_mem _ hmem), hcancel, hruns⟩

/-- Two moves of the clock come to the same as one, with or without a timer. -/
theorem session_advance_add (before : List (Step α)) (first second : Nat)
    (after : List (Step α)) :
    (session timing delay (before ++ .advance first :: .advance second :: after)).fired =
        (session timing delay (before ++ .advance (first + second) :: after)).fired ∧
      (session timing delay (before ++ .advance first :: .advance second :: after)).pending? =
        (session timing delay (before ++ .advance (first + second) :: after)).pending? := by
  have hrun : (Outline.start timing delay).run
      (before ++ .advance first :: .advance second :: after) =
        (Outline.start timing delay).run (before ++ .advance (first + second) :: after) := by
    rw [Outline.run_append, Outline.run_append]
    exact congrArg (Outline.run · after) (Outline.step_advance_add _ first second)
  constructor
  · rw [fired_session, fired_session, hrun]
  · rw [pending?_session, pending?_session, hrun]

/-- What sessions with a timer do. -/
theorem debounces_delayed (delay : Nat) :
    Debounces (α := α) (Timer.kept delay) (session .delayed delay) where
  fired_arm before mark after h := fired_session_arm h mark after
  fired_advance before mark times time h hearly hdue := by
    have hwaits : ¬ (times ≠ [] ∧ Timer.kept delay ≤ times.sum) := by
      rintro ⟨hmoved, hreached⟩
      rcases hearly with hnil | hlt
      · exact hmoved hnil
      · exact absurd hreached (Nat.not_le.mpr hlt)
    have hruns : times ++ [time] ≠ [] ∧ Timer.kept delay ≤ (times ++ [time]).sum := by
      refine ⟨by simp, ?_⟩
      rw [List.sum_append, List.sum_singleton]
      exact hdue
    constructor
    · rw [fired_session_arm_advance h, if_neg hwaits, List.append_nil]
    · rw [fired_session_arm_advance h, if_pos hruns]
  fired_drop := fired_session_drop
  fired_sublist steps := by
    rw [fired_session_delayed]
    exact marks_sublist _ steps
  length_tasks_le := length_tasks_session_le .delayed delay
  pending_iff := pending?_session_delayed
  advance_add := session_advance_add

/-- What sessions without a timer do. -/
theorem runsInline_immediate (delay : Nat) :
    RunsInline (α := α) (session .immediate delay) where
  fired_eq steps h := by
    obtain ⟨later, hrun⟩ := Outline.run_immediate (Timer.kept delay) h 0 []
    rw [fired_session, Outline.start, create, hrun]
    rfl
  fired_drop := fired_session_drop
  pending_ne steps := by
    by_cases hdrop : .drop ∈ steps
    · rw [pending?_session_of_mem_drop hdrop]
      simp
    · obtain ⟨later, hrun⟩ := Outline.run_immediate (Timer.kept delay) hdrop 0 []
      rw [pending?_session, Outline.start, create, hrun]
      simp [Outline.pending?, isPending]

end Sessions

/-! ## Results -/

/-- **What a debouncer does.** With a timer it debounces, with the delay that the timer keeps;
without one each action runs when it is armed. It makes no difference if aborts come too late, as
long as there are fewer steps than generations. -/
theorem debounces_session [Timer] (delay : Nat) :
    Debounces (α := α) (Timer.kept delay) (session .delayed delay) ∧
      RunsInline (α := α) (session .immediate delay) ∧
      ∀ inTime timing (steps : List (Step α)), steps.length < UInt64.size →
        ((Session.begin inTime timing delay).run steps).fired =
            (session timing delay steps).fired ∧
          ((Session.begin inTime timing delay).run steps).pending? =
            (session timing delay steps).pending? := by
  refine ⟨debounces_delayed delay, runsInline_immediate delay, fun inTime timing steps hfew => ?_⟩
  obtain ⟨hfired, hpending⟩ := Session.begin_run_shows inTime timing delay steps (.inr hfew)
  exact ⟨hfired.trans (fired_session timing delay steps).symm,
    hpending.trans (pending?_session timing delay steps).symm⟩

/-- The second action takes the place of the first one, although the abort of the first one comes
too late, so that both tasks wake. -/
theorem debounces_session_rearmed :
    let steps : List (Step Nat) := [.arm 1, .advance 60, .arm 2, .advance 40, .advance 60]
    ((Session.begin (fun _ => false) .delayed 100).run steps).fired = [2] ∧
      ((Session.begin (fun _ => false) .delayed 100).run (steps.take 3)).tasks.length = 2 := by
  intro steps
  obtain ⟨hdebounces, -, hshows⟩ := debounces_session (α := Nat) 100
  have hkept : Timer.kept 100 = 100 := Executor.kept_of_le (by decide)
  rw [hkept] at hdebounces
  refine ⟨?_, rfl⟩
  obtain ⟨-, hsecond⟩ := hdebounces.fired_advance [.arm 1, .advance 60] 2 [40] 60 (by simp)
    (.inr (by decide)) (by decide)
  obtain ⟨hfirst, -⟩ := hdebounces.fired_advance [] 1 [60] 40 (by simp) (.inr (by decide))
    (by decide)
  calc ((Session.begin (fun _ => false) .delayed 100).run steps).fired
    _ = (session .delayed 100 steps).fired := (hshows _ _ steps (by decide)).1
    _ = (session .delayed 100 [.arm 1, .advance 60]).fired ++ [2] := hsecond
    _ = (session .delayed 100 []).fired ++ [2] := by rw [← hfirst]; rfl
    _ = [2] := rfl

/-- **The executor does not keep every delay.** A session with a delay of one millisecond more than
thirty years does not debounce with that delay: its action runs a millisecond early. -/
theorem not_debounces_session :
    ¬ ∀ delay, Debounces (α := Nat) delay (session .delayed delay) := by
  intro hall
  have hlong := hall (Executor.longestSleep + 1)
  obtain ⟨hearly, -⟩ := hlong.fired_advance [] 1 [Executor.longestSleep] 1 (by simp)
    (.inr (by simp)) (by simp)
  have hfired : (session .delayed (Executor.longestSleep + 1)
      [.arm 1, .advance Executor.longestSleep]).fired = [1] := rfl
  exact absurd (hfired.symm.trans hearly) (by decide)

end ManagedRegion.Debouncer
