import ManagedRegion.Debouncer.Basic
import Mathlib.Algebra.GroupWithZero.Nat

/-!
# Outlines: what steps make of a debouncer and its marks

An outline that still has its debouncer is `resting` or `waiting`, and each step leads from one of
the two to one of the two (`step_arm`, `step_advance_resting`, `step_advance_waiting_of_le`,
`step_advance_waiting_of_lt`). One induction then says for both which marks the next steps add
(`fired_run`), and two others say whether something waits afterwards.
-/

namespace ManagedRegion.Debouncer

variable {α : Type}

/-! ## Marks -/

/-- Moves of the clock alone get to a deadline if they are long enough together. To get to one that
is there already takes one of them all the same. -/
theorem runsIn_map_advance {remaining : Nat} {times : List Nat} :
    runsIn remaining (times.map (.advance : Nat → Step α)) = true ↔
      times ≠ [] ∧ remaining ≤ times.sum := by
  induction times generalizing remaining with
  | nil => simp [runsIn]
  | cons time times ih =>
    rw [List.map_cons, runsIn, Bool.or_eq_true, decide_eq_true_iff, ih, List.sum_cons]
    cases times with
    | nil => simp
    | cons next times =>
      simp only [ne_eq, reduceCtorEq, not_false_eq_true, true_and]
      omega

/-- The marks are in the order in which the actions were armed, each at most once. -/
theorem marks_sublist (delay : Nat) (steps : List (Step α)) :
    (marks delay steps).Sublist (steps.filterMap Step.mark?) := by
  induction steps with
  | nil => exact List.nil_sublist _
  | cons what steps ih =>
    cases what with
    | arm mark =>
      show (marks delay (.arm mark :: steps)).Sublist (mark :: steps.filterMap Step.mark?)
      rw [marks]
      split
      · exact ih.cons_cons mark
      · exact ih.cons mark
    | drop => exact List.nil_sublist _
    | cancel => exact ih
    | advance time => exact ih

/-- Where anything is armed at all, something is armed last. -/
theorem none_or_last_armed (steps : List (Step α)) :
    (∀ mark, .arm mark ∉ steps) ∨
      ∃ before mark after, steps = before ++ .arm mark :: after ∧ ∀ other, .arm other ∉ after := by
  induction steps with
  | nil => exact .inl fun mark => List.not_mem_nil
  | cons what steps ih =>
    rcases ih with hnone | ⟨before, mark, after, rfl, hlast⟩
    · cases what with
      | arm mark => exact .inr ⟨[], mark, steps, rfl, hnone⟩
      | cancel | advance | drop =>
        refine .inl fun mark hmem => ?_
        rcases List.mem_cons.mp hmem with heq | hlater
        · cases heq
        · exact hnone mark hlater
    · exact .inr ⟨what :: before, mark, after, rfl, hlast⟩

namespace Outline

variable {delay now remaining time : Nat} {mark : α} {fired : List α} {steps : List (Step α)}

/-! ## One step -/

/-- A timer for which nothing waits. -/
def resting (delay now : Nat) (fired : List α) : Outline α :=
  ⟨some ⟨.delayed, delay, now, none⟩, fired⟩

/-- A timer for which an action waits that is due in `remaining`. -/
def waiting (delay now remaining : Nat) (mark : α) (fired : List α) : Outline α :=
  ⟨some ⟨.delayed, delay, now, some ⟨now + remaining, mark⟩⟩, fired⟩

/-- An action that is armed waits for the whole delay, whatever waited before. -/
theorem step_arm {d : Debouncer α} (h : d.timing = .delayed) (mark : α) :
    (⟨some d, fired⟩ : Outline α).step (.arm mark) =
      waiting d.delay d.now d.delay mark fired := by
  obtain ⟨timing, delay, now, pending⟩ := d
  obtain rfl : timing = .delayed := h
  simp [waiting, step, Debouncer.arm]

/-- While nothing waits, the clock moves and that is all. -/
theorem step_advance_resting :
    (resting delay now fired).step (.advance time) = resting delay (now + time) fired := by
  simp [resting, step, takeDue, setClock]

/-- What is due by then runs. -/
theorem step_advance_waiting_of_le (h : remaining ≤ time) :
    (waiting delay now remaining mark fired).step (.advance time) =
      resting delay (now + time) (fired ++ [mark]) := by
  simp [waiting, resting, step, takeDue, setClock, h]

/-- What is not yet due is so much closer. -/
theorem step_advance_waiting_of_lt (h : time < remaining) :
    (waiting delay now remaining mark fired).step (.advance time) =
      waiting delay (now + time) (remaining - time) mark fired := by
  have hdeadline : now + time + (remaining - time) = now + remaining := by omega
  simp [waiting, step, takeDue, setClock, Nat.not_le.mpr h, hdeadline]

/-- What has been given up stays as it is. -/
theorem run_none (fired : List α) (steps : List (Step α)) :
    (⟨none, fired⟩ : Outline α).run steps = ⟨none, fired⟩ := by
  induction steps with
  | nil => rfl
  | cons what steps ih => exact ih

/-! ## Runs -/

/-- From a timer for which nothing waits on, the armed actions leave their marks. -/
theorem fired_run (steps : List (Step α)) :
    (∀ now fired, ((resting delay now fired).run steps).fired = fired ++ marks delay steps) ∧
    ∀ now remaining mark fired, ((waiting delay now remaining mark fired).run steps).fired =
      fired ++ (if runsIn remaining steps then [mark] else []) ++ marks delay steps := by
  induction steps with
  | nil => simp [run, resting, waiting, marks, runsIn]
  | cons what steps ih =>
    obtain ⟨hresting, hwaiting⟩ := ih
    cases what with
    | arm mark' =>
      have harmed (fired : List α) (now : Nat) :
          ((waiting delay now delay mark' fired).run steps).fired =
            fired ++ marks delay (.arm mark' :: steps) := by
        rw [hwaiting, marks]
        split <;> simp
      constructor
      · intro now fired
        show (((resting delay now fired).step (.arm mark')).run steps).fired = _
        rw [resting, step_arm rfl, harmed]
      · intro now remaining mark fired
        show (((waiting delay now remaining mark fired).step (.arm mark')).run steps).fired = _
        rw [waiting, step_arm rfl, harmed]
        simp [runsIn]
    | cancel =>
      refine ⟨hresting, fun now remaining mark fired => ?_⟩
      exact (hresting now fired).trans (by simp [runsIn, marks])
    | drop =>
      have hdropped (fired : List α) : ((⟨none, fired⟩ : Outline α).run steps).fired =
          fired ++ marks delay (.drop :: steps) := by
        rw [run_none]
        exact (List.append_nil fired).symm
      refine ⟨fun now fired => hdropped fired, fun now remaining mark fired => ?_⟩
      exact (hdropped fired).trans (by simp [runsIn])
    | advance time =>
      constructor
      · intro now fired
        show (((resting delay now fired).step (.advance time)).run steps).fired = _
        rw [step_advance_resting, hresting]
        rfl
      · intro now remaining mark fired
        show (((waiting delay now remaining mark fired).step (.advance time)).run steps).fired = _
        by_cases hdue : remaining ≤ time
        · rw [step_advance_waiting_of_le hdue, hresting]
          simp [runsIn, hdue, marks]
        · rw [step_advance_waiting_of_lt (Nat.lt_of_not_le hdue), hwaiting]
          simp [runsIn, hdue, marks]

/-- A run can be cut anywhere. -/
theorem run_append (o : Outline α) (before after : List (Step α)) :
    o.run (before ++ after) = (o.run before).run after :=
  List.foldl_append

/-- As long as a debouncer is not given up, it keeps its timing and its delay. -/
theorem run_of_not_mem_drop {before : List (Step α)} (d : Debouncer α) (fired : List α)
    (h : .drop ∉ before) :
    ∃ e : Debouncer α, e.timing = d.timing ∧ e.delay = d.delay ∧
      (⟨some d, fired⟩ : Outline α).run before =
        ⟨some e, ((⟨some d, fired⟩ : Outline α).run before).fired⟩ := by
  induction before generalizing d fired with
  | nil => exact ⟨d, rfl, rfl, rfl⟩
  | cons what before ih =>
    obtain ⟨hwhat, hbefore⟩ := not_or.mp (mt List.mem_cons.mpr h)
    obtain ⟨e, left, htiming, hdelay, hstep⟩ : ∃ (e : Debouncer α) (left : List α),
        e.timing = d.timing ∧ e.delay = d.delay ∧
          (⟨some d, fired⟩ : Outline α).step what = ⟨some e, left⟩ := by
      cases what with
      | arm mark =>
        obtain ⟨htiming, hdelay⟩ := d.arm_keeps mark
        exact ⟨(d.arm mark).2, fired ++ (d.arm mark).1.toList, htiming, hdelay, rfl⟩
      | cancel => exact ⟨d.cancel, fired, rfl, rfl, rfl⟩
      | advance time =>
        obtain ⟨htiming, hdelay⟩ := d.takeDue_keeps (d.now + time)
        exact ⟨(d.takeDue (d.now + time)).2.setClock (d.now + time),
          fired ++ (d.takeDue (d.now + time)).1.toList, htiming, hdelay, rfl⟩
      | drop => exact absurd rfl hwhat
    obtain ⟨last, htimings, hdelays, hrun⟩ := ih e left hbefore
    refine ⟨last, htimings.trans htiming, hdelays.trans hdelay, ?_⟩
    show ((⟨some d, fired⟩ : Outline α).step what).run before =
      ⟨some last, (((⟨some d, fired⟩ : Outline α).step what).run before).fired⟩
    rw [hstep]
    exact hrun

/-- Whether it is still there or not, what is given up leaves its marks. -/
theorem step_drop (o : Outline α) : o.step .drop = ⟨none, o.fired⟩ := by
  rw [step]
  split
  · next hnone => rw [← hnone]
  · rfl

/-- Once a debouncer has been given up, nothing is left of it but the marks. -/
theorem run_of_mem_drop {steps : List (Step α)} (o : Outline α) (h : .drop ∈ steps) :
    (o.run steps).debouncer = none := by
  obtain ⟨before, after, rfl⟩ := List.append_of_mem h
  rw [run_append]
  show (((o.run before).step .drop).run after).debouncer = none
  rw [step_drop, run_none]

/-- When nothing waits and nothing is armed, nothing will wait. -/
theorem pending?_run_resting (hnone : ∀ mark, .arm mark ∉ steps) (now : Nat) (fired : List α) :
    ((resting delay now fired).run steps).pending? ≠ some true := by
  induction steps generalizing now with
  | nil => simp [run, resting, pending?, isPending]
  | cons what steps ih =>
    have hsteps : ∀ mark, .arm mark ∉ steps :=
      fun mark hmem => hnone mark (List.mem_cons_of_mem _ hmem)
    cases what with
    | arm mark => exact absurd List.mem_cons_self (hnone mark)
    | cancel => exact ih hsteps now
    | drop =>
      show ((⟨none, fired⟩ : Outline α).run steps).pending? ≠ some true
      rw [run_none]
      simp [pending?]
    | advance time =>
      show (((resting delay now fired).step (.advance time)).run steps).pending? ≠ some true
      rw [step_advance_resting]
      exact ih hsteps (now + time)

/-- An action that waits does so until it runs, is forgotten or given up. -/
theorem pending?_run_waiting (hnone : ∀ mark, .arm mark ∉ steps) (now remaining : Nat) (mark : α)
    (fired : List α) :
    ((waiting delay now remaining mark fired).run steps).pending? = some true ↔
      .drop ∉ steps ∧ .cancel ∉ steps ∧ runsIn remaining steps = false := by
  induction steps generalizing now remaining with
  | nil => simp [run, waiting, pending?, isPending, runsIn]
  | cons what steps ih =>
    have hsteps : ∀ mark, .arm mark ∉ steps :=
      fun mark hmem => hnone mark (List.mem_cons_of_mem _ hmem)
    cases what with
    | arm mark' => exact absurd List.mem_cons_self (hnone mark')
    | cancel =>
      refine iff_of_false ?_ (by simp)
      show ((resting delay now fired).run steps).pending? ≠ some true
      exact pending?_run_resting hsteps now fired
    | drop =>
      refine iff_of_false ?_ (by simp)
      show ((⟨none, fired⟩ : Outline α).run steps).pending? ≠ some true
      rw [run_none]
      simp [pending?]
    | advance time =>
      show (((waiting delay now remaining mark fired).step (.advance time)).run steps).pending? =
        some true ↔ _
      by_cases hdue : remaining ≤ time
      · rw [step_advance_waiting_of_le hdue]
        refine iff_of_false (pending?_run_resting hsteps _ _) ?_
        simp [runsIn, hdue]
      · rw [step_advance_waiting_of_lt (Nat.lt_of_not_le hdue), ih hsteps]
        simp [runsIn, hdue]

/-- Two moves of the clock come to the same as one. -/
theorem step_advance_add (o : Outline α) (first second : Nat) :
    (o.step (.advance first)).step (.advance second) = o.step (.advance (first + second)) := by
  obtain ⟨debouncer, fired⟩ := o
  cases debouncer with
  | none => rfl
  | some d =>
    obtain ⟨timing, delay, now, pending⟩ := d
    cases pending with
    | none => simp [step, takeDue, setClock, Nat.add_assoc]
    | some waiting =>
      by_cases hfirst : waiting.deadline ≤ now + first
      · have hboth : waiting.deadline ≤ now + (first + second) := by omega
        simp [step, takeDue, setClock, hfirst, hboth, Nat.add_assoc]
      · by_cases hboth : waiting.deadline ≤ now + (first + second)
        · simp [step, takeDue, setClock, hfirst, hboth, Nat.add_assoc]
        · simp [step, takeDue, setClock, hfirst, hboth, Nat.add_assoc]

/-- Without a timer nothing ever waits, and each action runs when it is armed. -/
theorem step_immediate (delay now : Nat) (fired : List α) (what : Step α) (h : what ≠ .drop) :
    ∃ later, (⟨some ⟨.immediate, delay, now, none⟩, fired⟩ : Outline α).step what =
      ⟨some ⟨.immediate, delay, later, none⟩, fired ++ what.mark?.toList⟩ := by
  cases what with
  | arm mark => exact ⟨now, rfl⟩
  | cancel => exact ⟨now, by simp [step, Debouncer.cancel, Step.mark?]⟩
  | advance time => exact ⟨now + time, by simp [step, takeDue, setClock, Step.mark?]⟩
  | drop => exact absurd rfl h

/-- Without a timer each armed action has left its mark, and nothing waits. -/
theorem run_immediate (delay : Nat) (h : .drop ∉ steps) (now : Nat) (fired : List α) :
    ∃ later, (⟨some ⟨.immediate, delay, now, none⟩, fired⟩ : Outline α).run steps =
      ⟨some ⟨.immediate, delay, later, none⟩, fired ++ steps.filterMap Step.mark?⟩ := by
  induction steps generalizing now fired with
  | nil => exact ⟨now, by simp [run]⟩
  | cons what steps ih =>
    obtain ⟨hwhat, hsteps⟩ := not_or.mp (mt List.mem_cons.mpr h)
    obtain ⟨later, hstep⟩ := step_immediate delay now fired what (Ne.symm hwhat)
    obtain ⟨last, hrun⟩ := ih hsteps later (fired ++ what.mark?.toList)
    refine ⟨last, ?_⟩
    show ((⟨some ⟨.immediate, delay, now, none⟩, fired⟩ : Outline α).step what).run steps = _
    rw [hstep, hrun, List.append_assoc]
    cases what <;> rfl

end Outline

end ManagedRegion.Debouncer
