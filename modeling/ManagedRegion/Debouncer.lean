import ManagedRegion.Debouncer.Basic

/-!
# Sessions: a debouncer and the tasks that sleep for it

A debouncer with a timer does not keep its action itself. Each arming spawns a task, and an executor
lets the task sleep until its deadline. What the debouncer keeps is one slot that it shares with its
tasks: the number of the current generation, and the task that was spawned last. Arming and
cancelling begin a new generation and abort the task in the slot.

An abort is a request, and `inTime` says for which tasks it is not too late. A task that is not
reached wakes at its deadline all the same; since it bears the generation that spawned it as its
token, it can tell that it has been superseded, and leaves the slot and its action alone.
-/

namespace ManagedRegion.Debouncer

variable {α : Type}

/-- What a debouncer shares with its tasks. -/
structure Slot where
  /-- The current generation; after the last one the first one follows. -/
  generation : UInt64
  /-- The number of the task that will run, as far as the debouncer knows. -/
  handle : Option Nat

/-- A task that sleeps. -/
structure Task (α : Type) where
  /-- How many tasks were spawned before it. -/
  number : Nat
  /-- The time at which it wakes. -/
  deadline : Nat
  /-- The generation that spawned it. -/
  token : UInt64
  /-- What it does then, unless it has been superseded. -/
  action : α

/-- A debouncer at work, with its executor, and with the marks that actions have left. -/
structure Session (α : Type) where
  /-- When armed actions become due. -/
  timing : Timing
  /-- The delay between an arming and the action, as the timer keeps it. -/
  delay : Nat
  /-- The time. -/
  now : Nat
  /-- For which tasks, by their number, an abort is not too late. -/
  inTime : Nat → Bool
  /-- The slot of the debouncer. -/
  slot : Slot
  /-- The number of tasks spawned so far. -/
  spawned : Nat
  /-- The tasks that sleep, in the order in which they were spawned. -/
  tasks : List (Task α)
  /-- Whether the debouncer has been given up. -/
  isDropped : Bool
  /-- The marks that actions have left, in order. -/
  fired : List α

namespace Session

/-- The beginning of a session in which some aborts may come too late. -/
def begin [Timer] (inTime : Nat → Bool) (timing : Timing) (delay : Nat) : Session α where
  timing := timing
  delay := Timer.kept delay
  now := 0
  inTime := inTime
  slot := ⟨0, none⟩
  spawned := 0
  tasks := []
  isDropped := false
  fired := []

/-- The beginning of a session in which every abort comes in time. -/
def start [Timer] (timing : Timing) (delay : Nat) : Session α :=
  begin (fun _ => true) timing delay

/-- Whether a task is in the slot; `none` once the debouncer has been given up. -/
def pending? (s : Session α) : Option Bool :=
  if s.isDropped then none else some s.slot.handle.isSome

/-- The tasks that sleep on when the task in the slot is aborted. -/
def tasksAfterAbort (s : Session α) : List (Task α) :=
  match s.slot.handle with
  | none => s.tasks
  | some number => if s.inTime number then s.tasks.filter (·.number ≠ number) else s.tasks

/-- Begins a new generation, and aborts the task in the slot. -/
def supersede (s : Session α) : Session α :=
  { s with slot := ⟨s.slot.generation + 1, none⟩, tasks := s.tasksAfterAbort }

/-- Spawns a task for an action, and puts it into the slot. -/
def spawn (s : Session α) (mark : α) : Session α :=
  let task : Task α := ⟨s.spawned, s.now + s.delay, s.slot.generation, mark⟩
  { s with
    slot := { s.slot with handle := some task.number }
    spawned := s.spawned + 1
    tasks := s.tasks ++ [task] }

/-- Supersedes what waits, and runs the action at once or spawns a task for it. -/
def arm (s : Session α) (mark : α) : Session α :=
  let s := s.supersede
  match s.timing with
  | .immediate => { s with fired := s.fired ++ [mark] }
  | .delayed => s.spawn mark

/-- A task wakes. If it is of the current generation, it clears the slot and runs its action. -/
def wake (s : Session α) (task : Task α) : Session α :=
  if task.token = s.slot.generation then
    { s with slot := { s.slot with handle := none }, fired := s.fired ++ [task.action] }
  else
    s

/-- Moves the clock forward. The tasks that are due by then no longer sleep. -/
def moveClock (s : Session α) (time : Nat) : Session α :=
  { s with now := s.now + time, tasks := s.tasks.filter (s.now + time < ·.deadline) }

/-- Moves the clock forward, and the tasks that are due by then wake in the order of their
deadlines, which is the one in which they were spawned. -/
def advance (s : Session α) (time : Nat) : Session α :=
  (s.tasks.filter (·.deadline ≤ s.now + time)).foldl wake (s.moveClock time)

/-- One step of a session. Once the debouncer has been given up, only the clock goes on. -/
def step (s : Session α) : Step α → Session α
  | .advance time => s.advance time
  | .arm mark => if s.isDropped then s else s.arm mark
  | .cancel => if s.isDropped then s else s.supersede
  | .drop => if s.isDropped then s else { s.supersede with isDropped := true }

/-- The steps of a session one after the other. -/
def run (s : Session α) (steps : List (Step α)) : Session α :=
  steps.foldl step s

end Session

/-- The session with the given steps. -/
def session [Timer] (timing : Timing) (delay : Nat) (steps : List (Step α)) : Session α :=
  (Session.start timing delay).run steps

end ManagedRegion.Debouncer
