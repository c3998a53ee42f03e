/-!
# Debouncer: an action that waits for quiet

A debouncer holds at most one action. Arming it replaces the action that waits, and the delay begins
anew, so that a burst of triggers ends in one action, a delay behind the last of them. Time is a
clock that only `advance` moves. Without a timer an armed action is due at once. How long an action
waits for a delay is up to the timer that the debouncer runs on (`Timer`), and all that is taken for
granted is that it does not wait any longer.

`Debouncer` is the state that matters, and `Outline` follows one whose actions only leave their mark
from step to step. `marks` says which marks these are without a clock: an action runs exactly if
nothing comes in between.
-/

namespace ManagedRegion

/-- A timer, which a task asks to let it sleep for a delay in milliseconds. -/
class Timer where
  /-- How long the task sleeps. -/
  kept : (delay : Nat) → Nat
  /-- No task sleeps longer than it asked to. -/
  kept_le : ∀ delay, kept delay ≤ delay

/-- When armed actions become due. -/
inductive Timing where
  /-- At once: there is no timer. -/
  | immediate
  /-- When the delay is over. -/
  | delayed
  deriving DecidableEq

/-- An action that waits. -/
structure Scheduled (α : Type) where
  /-- The time at which the action is due. -/
  deadline : Nat
  /-- The action. -/
  action : α
  deriving DecidableEq

/-- A single-slot timer on a clock of milliseconds. -/
structure Debouncer (α : Type) where
  /-- When armed actions become due. -/
  timing : Timing
  /-- The delay between the last arming and the action, as the timer keeps it. -/
  delay : Nat
  /-- The time. -/
  now : Nat
  /-- The action that waits. -/
  pending : Option (Scheduled α)
  deriving DecidableEq

namespace Debouncer

variable {α : Type}

/-- A debouncer with nothing pending, at time 0. -/
def create [Timer] (timing : Timing) (delay : Nat) : Debouncer α :=
  ⟨timing, Timer.kept delay, 0, none⟩

/-- Whether an action waits. -/
def isPending (d : Debouncer α) : Bool :=
  d.pending.isSome

/-- Forgets the action that waits. -/
def cancel (d : Debouncer α) : Debouncer α :=
  { d with pending := none }

/-- Arms an action in place of the one that waits. Returns the action if it is due at once. -/
def arm (d : Debouncer α) (action : α) : Option α × Debouncer α :=
  match d.timing with
  | .immediate => (some action, d.cancel)
  | .delayed => (none, { d with pending := some ⟨d.now + d.delay, action⟩ })

/-- Takes the action that waits, if it is due at `time` or before; the clock then shows its
deadline. -/
def takeDue (d : Debouncer α) (time : Nat) : Option α × Debouncer α :=
  match d.pending with
  | none => (none, d)
  | some waiting =>
    if waiting.deadline ≤ time then
      (some waiting.action, { d with now := waiting.deadline, pending := none })
    else
      (none, d)

/-- Arming changes neither the timing nor the delay. -/
theorem arm_keeps (d : Debouncer α) (action : α) :
    (d.arm action).2.timing = d.timing ∧ (d.arm action).2.delay = d.delay := by
  unfold arm
  split
  · exact ⟨rfl, rfl⟩
  · exact ⟨rfl, rfl⟩

/-- Taking what is due changes neither the timing nor the delay. -/
theorem takeDue_keeps (d : Debouncer α) (time : Nat) :
    (d.takeDue time).2.timing = d.timing ∧ (d.takeDue time).2.delay = d.delay := by
  unfold takeDue
  split
  · exact ⟨rfl, rfl⟩
  · split
    · exact ⟨rfl, rfl⟩
    · exact ⟨rfl, rfl⟩

/-- Sets the clock. -/
def setClock (d : Debouncer α) (time : Nat) : Debouncer α :=
  { d with now := time }

/-! ## Steps -/

/-- A step on a debouncer whose actions leave a mark. -/
inductive Step (α : Type) where
  /-- Arm the action that leaves this mark. -/
  | arm (mark : α)
  /-- Forget the action that waits. -/
  | cancel
  /-- Move the clock forward. -/
  | advance (time : Nat)
  /-- Give the debouncer up. -/
  | drop
  deriving DecidableEq

/-- The mark of the action that a step arms. -/
def Step.mark? : Step α → Option α
  | arm mark => some mark
  | cancel | advance _ | drop => none

/-- What there is to see of a debouncer: itself, until it is given up, and the marks left so far, in
order. -/
structure Outline (α : Type) where
  /-- The debouncer, unless it has been given up. -/
  debouncer : Option (Debouncer α)
  /-- The marks that actions have left, in order. -/
  fired : List α

/-- The outline of a new debouncer. -/
def Outline.start [Timer] (timing : Timing) (delay : Nat) : Outline α :=
  ⟨some (create timing delay), []⟩

/-- Whether an action waits; `none` once the debouncer has been given up. -/
def Outline.pending? (o : Outline α) : Option Bool :=
  o.debouncer.map isPending

/-- What a step makes of an outline. Nothing happens once the debouncer has been given up. -/
def Outline.step (o : Outline α) (what : Step α) : Outline α :=
  match o.debouncer with
  | none => o
  | some d =>
    match what with
    | .arm mark =>
      let (due, d) := d.arm mark
      ⟨some d, o.fired ++ due.toList⟩
    | .cancel => ⟨some d.cancel, o.fired⟩
    | .advance time =>
      let target := d.now + time
      let (due, d) := d.takeDue target
      ⟨some (d.setClock target), o.fired ++ due.toList⟩
    | .drop => ⟨none, o.fired⟩

/-- What steps make of an outline, one after the other. -/
def Outline.run (o : Outline α) (steps : List (Step α)) : Outline α :=
  steps.foldl Outline.step o

/-! ## Which actions run -/

/-- Whether an action that is due after `remaining` runs in one of the steps: whether the clock gets
there before anything else is armed, the action is forgotten, or the debouncer is given up. -/
def runsIn : (remaining : Nat) → List (Step α) → Bool
  | _, [] => false
  | remaining, .advance time :: steps => remaining ≤ time || runsIn (remaining - time) steps
  | _, _ :: _ => false

/-- The marks that steps leave, said of each armed action by itself. The delay is the one that the
timer keeps. -/
def marks (delay : Nat) : List (Step α) → List α
  | [] => []
  | .drop :: _ => []
  | .arm mark :: steps =>
    if runsIn delay steps then mark :: marks delay steps else marks delay steps
  | _ :: steps => marks delay steps

end Debouncer

end ManagedRegion
