import ManagedRegion.Debouncer

/-!
# Tasks: what was superseded leaves no trace

A session keeps a slot, generations and tasks; its outline keeps one action with a deadline. The two
go on alike (`Holds.follows_run`): of the tasks that sleep, the one that was spawned last is the
current one if the slot names it, and the others have been superseded, their abort was too late, and
none of the generations to come is theirs (`Holds`). A superseded task that wakes neither runs its
action nor clears the slot (`wake_of_superseded`), so it cannot be seen from outside which aborts
came too late (`begin_run_shows`).
-/

namespace ManagedRegion.Debouncer

variable {α : Type}

/-- The action of a task, as a debouncer holds it. -/
def Task.scheduled (task : Task α) : Scheduled α :=
  ⟨task.deadline, task.action⟩

namespace Session

variable {s : Session α} {room : Nat} {current : Option (Task α)} {task : Task α}

/-- What there is to see of a session whose current task is the given one. -/
def outline (s : Session α) (current : Option (Task α)) : Outline α :=
  ⟨if s.isDropped then none else some ⟨s.timing, s.delay, s.now, current.map Task.scheduled⟩,
    s.fired⟩

/-- A task that its abort did not reach. Neither the current generation is its own nor any of the
next `room` ones. -/
structure Superseded (s : Session α) (room : Nat) (task : Task α) : Prop where
  /-- The abort came too late. -/
  late : s.inTime task.number = false
  /-- The generations that it will not be mistaken for. -/
  token_ne : ∀ i ≤ room, task.token ≠ s.slot.generation + UInt64.ofNat i

/-- The current task of a session is the one in the slot, and all others have been superseded. -/
structure Holds (s : Session α) (room : Nat) (current : Option (Task α)) : Prop where
  /-- The current task was spawned last. -/
  tasks_eq : ∃ stale, s.tasks = stale ++ current.toList ∧ ∀ task ∈ stale, s.Superseded room task
  /-- It is the one in the slot. -/
  handle_eq : s.slot.handle = current.map Task.number
  /-- It bears the current generation. -/
  token_eq : ∀ task ∈ current, task.token = s.slot.generation
  /-- There is none once the debouncer has been given up. -/
  eq_none : s.isDropped = true → current = none

/-- Only the generation and the lateness of aborts matter for what has been superseded. -/
theorem Superseded.congr {t : Session α} (h : s.Superseded room task) (htime : t.inTime = s.inTime)
    (hgeneration : t.slot.generation = s.slot.generation) : t.Superseded room task where
  late := by
    rw [htime]
    exact h.late
  token_ne := by
    rw [hgeneration]
    exact h.token_ne

/-- Where no task is current, only the slot, the tasks and the lateness of aborts matter. -/
theorem Holds.congr {t : Session α} (h : s.Holds room none) (htime : t.inTime = s.inTime)
    (hslot : t.slot = s.slot) (htasks : t.tasks = s.tasks) : t.Holds room none := by
  obtain ⟨stale, hstale, hsuperseded⟩ := h.tasks_eq
  refine ⟨⟨stale, htasks.trans hstale, fun task htask => ?_⟩, ?_, by simp, fun _ => rfl⟩
  · exact (hsuperseded task htask).congr htime (congrArg Slot.generation hslot)
  · rw [hslot]
    exact h.handle_eq

/-- A superseded task that wakes changes nothing. -/
theorem wake_of_superseded (h : s.Superseded room task) : s.wake task = s := by
  have hne : task.token ≠ s.slot.generation := by
    intro heq
    apply h.token_ne 0 (Nat.zero_le room)
    rw [heq]
    exact (UInt64.add_zero _).symm
  rw [wake, if_neg hne]

/-- However many superseded tasks wake, they change nothing. -/
theorem foldl_wake_of_superseded {tasks : List (Task α)}
    (h : ∀ task ∈ tasks, s.Superseded room task) : tasks.foldl wake s = s := by
  induction tasks with
  | nil => rfl
  | cons task tasks ih =>
    rw [List.foldl_cons, wake_of_superseded (h task List.mem_cons_self)]
    exact ih fun other hother => h other (List.mem_cons_of_mem _ hother)

/-- The current task that wakes clears the slot and runs its action. -/
theorem wake_of_token_eq (h : task.token = s.slot.generation) :
    s.wake task =
      { s with slot := { s.slot with handle := none }, fired := s.fired ++ [task.action] } := by
  rw [wake, if_pos h]

/-! ## Steps -/

/-- The generation after the next `i` ones is the one `i` behind the next. -/
theorem generation_succ (generation : UInt64) (i : Nat) :
    generation + UInt64.ofNat (i + 1) = generation + 1 + UInt64.ofNat i := by
  rw [Nat.add_comm, UInt64.ofNat_add, UInt64.add_assoc]
  rfl

/-- No generation comes back before all the others have passed. -/
theorem generation_ne_add (generation : UInt64) {i : Nat} (hpos : 0 < i) (hlt : i < UInt64.size) :
    generation ≠ generation + UInt64.ofNat i := by
  intro heq
  have hnat := congrArg UInt64.toNat heq
  rw [UInt64.toNat_add, UInt64.toNat_ofNat_of_lt' hlt] at hnat
  have hgeneration := generation.toNat_lt
  have hsize : UInt64.size = 2 ^ 64 := rfl
  omega

/-- What has been superseded once stays so in the next generation. -/
theorem Superseded.supersede (h : s.Superseded (room + 1) task) :
    s.supersede.Superseded room task := by
  refine ⟨h.late, fun i hi => ?_⟩
  have hne := h.token_ne (i + 1) (Nat.succ_le_succ hi)
  rw [generation_succ] at hne
  exact hne

/-- A current task whose abort comes too late has been superseded when the next generation begins,
since its own does not come back so soon. -/
theorem Holds.superseded_current (h : s.Holds (room + 1) (some task))
    (hlate : s.inTime task.number = false) (hroom : room + 1 < UInt64.size) :
    s.supersede.Superseded room task := by
  refine ⟨hlate, fun i hi => ?_⟩
  have hne := generation_ne_add s.slot.generation (Nat.succ_pos i)
    (Nat.lt_of_le_of_lt (Nat.succ_le_succ hi) hroom)
  rw [h.token_eq task rfl]
  rw [generation_succ] at hne
  exact hne

/-- Whatever was current has been superseded when the next generation begins. -/
theorem Holds.supersede (h : s.Holds (room + 1) current)
    (hroom : (∀ number, s.inTime number = true) ∨ room + 1 < UInt64.size) :
    s.supersede.Holds room none := by
  obtain ⟨stale, htasks, hstale⟩ := h.tasks_eq
  refine ⟨?_, rfl, by simp, fun _ => rfl⟩
  have hhandle := h.handle_eq
  cases current with
  | none =>
    refine ⟨stale, ?_, fun task htask => (hstale task htask).supersede⟩
    show s.tasksAfterAbort = _
    simp [tasksAfterAbort, hhandle, htasks]
  | some task =>
    by_cases htime : s.inTime task.number = true
    · -- the executor forgets the task, and possibly some of those that no longer matter
      refine ⟨stale.filter (·.number ≠ task.number), ?_, fun other hother =>
        (hstale other (List.mem_filter.mp hother).1).supersede⟩
      show s.tasksAfterAbort = _
      simp [tasksAfterAbort, hhandle, htime, htasks]
    · have hfew := hroom.resolve_left fun hall => htime (hall task.number)
      refine ⟨stale ++ [task], ?_, fun other hother => ?_⟩
      · show s.tasksAfterAbort = _
        simp [tasksAfterAbort, hhandle, htime, htasks]
      · rcases List.mem_append.mp hother with hold | hnew
        · exact (hstale other hold).supersede
        · obtain rfl := List.mem_singleton.mp hnew
          exact h.superseded_current (Bool.eq_false_iff.mpr htime) hfew

/-- A task that is spawned when none is current becomes the current one. -/
theorem Holds.spawn (h : s.Holds room none) (hheld : s.isDropped = false) (mark : α) :
    (s.spawn mark).Holds room (some ⟨s.spawned, s.now + s.delay, s.slot.generation, mark⟩) := by
  obtain ⟨stale, htasks, hstale⟩ := h.tasks_eq
  have hspawned : (s.spawn mark).tasks =
      stale ++ [⟨s.spawned, s.now + s.delay, s.slot.generation, mark⟩] := by
    show s.tasks ++ _ = _
    rw [htasks, Option.toList_none, List.append_nil]
  refine ⟨⟨stale, hspawned, fun task htask => ?_⟩, rfl, fun task htask => ?_, fun hdropped => ?_⟩
  · exact (hstale task htask).congr rfl rfl
  · obtain rfl := Option.some.inj htask
    rfl
  · exact absurd (hheld.symm.trans hdropped) (by simp)

/-- When the clock moves, superseded tasks do nothing, whether they wake or sleep on. -/
theorem advance_of_superseded {stale : List (Task α)} (htasks : s.tasks = stale ++ current.toList)
    (hstale : ∀ task ∈ stale, s.Superseded room task) (time : Nat) :
    s.advance time =
      (current.toList.filter (·.deadline ≤ s.now + time)).foldl wake (s.moveClock time) := by
  have hwoken : ∀ task ∈ stale.filter (·.deadline ≤ s.now + time),
      (s.moveClock time).Superseded room task :=
    fun task htask => (hstale task (List.mem_filter.mp htask).1).congr rfl rfl
  rw [advance, htasks, List.filter_append, List.foldl_append, foldl_wake_of_superseded hwoken]

/-- Before its deadline the current task sleeps on. -/
theorem Holds.sleepsOn (h : s.Holds room current) (time : Nat)
    (hlater : ∀ task ∈ current, s.now + time < task.deadline) :
    s.advance time = s.moveClock time ∧ (s.moveClock time).Holds room current := by
  obtain ⟨stale, htasks, hstale⟩ := h.tasks_eq
  have hnone : current.toList.filter (·.deadline ≤ s.now + time) = [] := by
    rw [List.filter_eq_nil_iff]
    intro task htask
    simpa using hlater task (Option.mem_toList.mp htask)
  have hall : current.toList.filter (s.now + time < ·.deadline) = current.toList := by
    rw [List.filter_eq_self]
    intro task htask
    simpa using hlater task (Option.mem_toList.mp htask)
  have hsleeping : (s.moveClock time).tasks =
      stale.filter (s.now + time < ·.deadline) ++ current.toList := by
    rw [Session.moveClock, htasks, List.filter_append, hall]
  refine ⟨?_, ⟨_, hsleeping, fun task htask => ?_⟩, h.handle_eq, h.token_eq, h.eq_none⟩
  · rw [advance_of_superseded htasks hstale, hnone]
    rfl
  · exact (hstale task (List.mem_filter.mp htask).1).congr rfl rfl

/-- At its deadline the current task clears the slot and runs its action. -/
theorem Holds.wakes (h : s.Holds room (some task)) {time : Nat}
    (hdue : task.deadline ≤ s.now + time) :
    s.advance time = (s.moveClock time).wake task ∧
      ((s.moveClock time).wake task).Holds room none := by
  obtain ⟨stale, htasks, hstale⟩ := h.tasks_eq
  have htoken : task.token = (s.moveClock time).slot.generation := h.token_eq task rfl
  constructor
  · rw [advance_of_superseded htasks hstale]
    simp [hdue]
  · rw [wake_of_token_eq htoken]
    have hsleeping : (s.moveClock time).tasks =
        stale.filter (s.now + time < ·.deadline) ++ (none : Option (Task α)).toList := by
      rw [Session.moveClock, htasks, List.filter_append]
      simp [hdue]
    refine ⟨⟨_, hsleeping, fun other hother => ?_⟩, rfl, by simp, fun _ => rfl⟩
    exact (hstale other (List.mem_filter.mp hother).1).congr rfl rfl

/-! ## Outlines -/

/-- Whoever may begin `room + 1` generations may begin `room`. -/
theorem Holds.weaken (h : s.Holds (room + 1) current) : s.Holds room current := by
  obtain ⟨stale, htasks, hstale⟩ := h.tasks_eq
  refine ⟨⟨stale, htasks, fun task htask => ?_⟩, h.handle_eq, h.token_eq, h.eq_none⟩
  obtain ⟨hlate, htoken⟩ := hstale task htask
  exact ⟨hlate, fun i hi => htoken i (Nat.le_succ_of_le hi)⟩

/-- Whether something waits can be seen from outside. -/
theorem Holds.pending?_eq (h : s.Holds room current) :
    s.pending? = (s.outline current).pending? := by
  rw [pending?, Outline.pending?, outline, h.handle_eq]
  cases hdropped : s.isDropped <;> cases current <;> rfl

/-- A step moves a session as it moves its outline. -/
def Follows (s t : Session α) (room : Nat) (o : Outline α) : Prop :=
  t.inTime = s.inTime ∧ ∃ current, t.Holds room current ∧ t.outline current = o

/-- A move of the clock does to a session what it does to the outline. -/
theorem Holds.follows_advance (h : s.Holds room current) (time : Nat) :
    s.Follows (s.advance time) room ((s.outline current).step (.advance time)) := by
  cases current with
  | none =>
    obtain ⟨hadvance, hholds⟩ := h.sleepsOn time (by simp)
    rw [hadvance]
    refine ⟨rfl, none, hholds, ?_⟩
    cases hdropped : s.isDropped <;>
      simp [outline, moveClock, Outline.step, takeDue, setClock, hdropped]
  | some task =>
    have hheld : s.isDropped = false := by
      rw [Bool.eq_false_iff]
      exact fun hdropped => absurd (h.eq_none hdropped) (by simp)
    by_cases hdue : task.deadline ≤ s.now + time
    · obtain ⟨hadvance, hholds⟩ := h.wakes hdue
      rw [hadvance]
      have htoken : task.token = (s.moveClock time).slot.generation := h.token_eq task rfl
      rw [wake_of_token_eq htoken] at hholds ⊢
      refine ⟨rfl, none, hholds, ?_⟩
      simp [outline, moveClock, Outline.step, takeDue, setClock, Task.scheduled, hheld, hdue]
    · obtain ⟨hadvance, hholds⟩ := h.sleepsOn time (by simpa using hdue)
      rw [hadvance]
      refine ⟨rfl, some task, hholds, ?_⟩
      simp [outline, moveClock, Outline.step, takeDue, setClock, Task.scheduled, hheld, hdue]

/-- Without a timer, an action that is armed runs at once. -/
theorem arm_of_immediate (h : s.timing = .immediate) (mark : α) :
    s.arm mark = { s.supersede with fired := s.fired ++ [mark] } := by
  have htiming : s.supersede.timing = .immediate := h
  simp only [arm, htiming]
  rfl

/-- With a timer, a task is spawned for it. -/
theorem arm_of_delayed (h : s.timing = .delayed) (mark : α) :
    s.arm mark = s.supersede.spawn mark := by
  have htiming : s.supersede.timing = .delayed := h
  simp only [arm, htiming]

/-- Arming an action does to a session what it does to the outline. -/
theorem Holds.follows_arm (h : s.Holds (room + 1) current)
    (hroom : (∀ number, s.inTime number = true) ∨ room + 1 < UInt64.size)
    (hheld : s.isDropped = false) (mark : α) :
    s.Follows (s.arm mark) room ((s.outline current).step (.arm mark)) := by
  have hsuperseded := h.supersede hroom
  cases htiming : s.timing with
  | immediate =>
    rw [arm_of_immediate htiming]
    refine ⟨rfl, none, hsuperseded.congr rfl rfl rfl, ?_⟩
    simp [outline, Outline.step, Debouncer.arm, Debouncer.cancel, Session.supersede, htiming, hheld]
  | delayed =>
    rw [arm_of_delayed htiming]
    refine ⟨rfl, _, hsuperseded.spawn hheld mark, ?_⟩
    simp [outline, Outline.step, Debouncer.arm, Session.spawn, Session.supersede, Task.scheduled,
      htiming, hheld]

/-- What has been given up no longer changes. -/
theorem Holds.follows_self (h : s.Holds (room + 1) current) (hdropped : s.isDropped = true)
    (what : Step α) : s.Follows s room ((s.outline current).step what) :=
  ⟨rfl, current, h.weaken, by simp [outline, Outline.step, hdropped]⟩

/-- **Each step does to a session what it does to its outline.** -/
theorem Holds.follows_step (h : s.Holds (room + 1) current)
    (hroom : (∀ number, s.inTime number = true) ∨ room + 1 < UInt64.size) (what : Step α) :
    s.Follows (s.step what) room ((s.outline current).step what) := by
  cases what with
  | advance time => exact h.weaken.follows_advance time
  | arm mark =>
    rw [step]
    split
    · next hdropped => exact h.follows_self hdropped _
    · next hheld => exact h.follows_arm hroom (Bool.eq_false_iff.mpr hheld) mark
  | cancel =>
    rw [step]
    split
    · next hdropped => exact h.follows_self hdropped _
    · next hheld =>
      refine ⟨rfl, none, h.supersede hroom, ?_⟩
      simp [outline, Outline.step, Debouncer.cancel, Session.supersede, hheld]
  | drop =>
    rw [step]
    split
    · next hdropped => exact h.follows_self hdropped _
    · next hheld =>
      refine ⟨rfl, none, (h.supersede hroom).congr rfl rfl rfl, ?_⟩
      simp [outline, Outline.step, Session.supersede, hheld]

/-- **A session goes on as its outline does**, if every abort comes in time or there are fewer steps
than generations. -/
theorem Holds.follows_run {steps : List (Step α)} (h : s.Holds (room + steps.length) current)
    (hroom : (∀ number, s.inTime number = true) ∨ room + steps.length < UInt64.size) :
    s.Follows (s.run steps) room ((s.outline current).run steps) := by
  induction steps generalizing s current with
  | nil => exact ⟨rfl, current, h, rfl⟩
  | cons what steps ih =>
    have hlength : room + (what :: steps).length = room + steps.length + 1 := rfl
    rw [hlength] at h hroom
    obtain ⟨htime, next, hnext, houtline⟩ := h.follows_step hroom what
    obtain ⟨htimes, last, hlast, hrun⟩ := ih hnext (by
      rw [htime]
      exact hroom.imp_right Nat.lt_of_succ_lt)
    refine ⟨htimes.trans htime, last, hlast, hrun.trans ?_⟩
    rw [houtline]
    rfl

/-- From its beginning on a session goes on as its outline does. -/
theorem exists_holds_run [Timer] (inTime : Nat → Bool) (timing : Timing) (delay : Nat)
    (steps : List (Step α))
    (hroom : (∀ number, inTime number = true) ∨ steps.length < UInt64.size) :
    ∃ current, ((begin inTime timing delay).run steps).Holds 0 current ∧
      ((begin inTime timing delay).run steps).outline current =
        (Outline.start timing delay).run steps ∧
      ((begin inTime timing delay).run steps).inTime = inTime := by
  have hbegin : (begin inTime timing delay : Session α).Holds (0 + steps.length) none :=
    ⟨⟨[], rfl, by simp⟩, rfl, by simp, fun _ => rfl⟩
  obtain ⟨htime, current, hholds, houtline⟩ := hbegin.follows_run (by
    rw [Nat.zero_add]
    exact hroom)
  exact ⟨current, hholds, houtline, htime⟩

/-- **What was superseded leaves no trace.** A session shows the marks of its outline, and whether
something waits there, even if aborts come too late, as long as there are fewer steps than
generations. -/
theorem begin_run_shows [Timer] (inTime : Nat → Bool) (timing : Timing) (delay : Nat)
    (steps : List (Step α))
    (hroom : (∀ number, inTime number = true) ∨ steps.length < UInt64.size) :
    ((begin inTime timing delay).run steps).fired =
        ((Outline.start timing delay).run steps).fired ∧
      ((begin inTime timing delay).run steps).pending? =
        ((Outline.start timing delay).run steps).pending? := by
  obtain ⟨current, hholds, houtline, -⟩ := exists_holds_run inTime timing delay steps hroom
  rw [← houtline]
  exact ⟨rfl, hholds.pending?_eq⟩

end Session

/-- The marks of a session are those of its outline. -/
theorem fired_session [Timer] (timing : Timing) (delay : Nat) (steps : List (Step α)) :
    (session timing delay steps).fired = ((Outline.start timing delay).run steps).fired :=
  (Session.begin_run_shows (fun _ => true) timing delay steps (.inl fun _ => rfl)).1

/-- Something waits in a session if it does in the outline. -/
theorem pending?_session [Timer] (timing : Timing) (delay : Nat) (steps : List (Step α)) :
    (session timing delay steps).pending? = ((Outline.start timing delay).run steps).pending? :=
  (Session.begin_run_shows (fun _ => true) timing delay steps (.inl fun _ => rfl)).2

/-- At most one task sleeps in a session. -/
theorem length_tasks_session_le [Timer] (timing : Timing) (delay : Nat) (steps : List (Step α)) :
    (session timing delay steps).tasks.length ≤ 1 := by
  obtain ⟨current, hholds, -, htime⟩ := Session.exists_holds_run (α := α) (fun _ => true) timing
    delay steps (.inl fun _ => rfl)
  obtain ⟨stale, htasks, hstale⟩ := hholds.tasks_eq
  have hnil : stale = [] := by
    rw [List.eq_nil_iff_forall_not_mem]
    intro task htask
    have hlate := (hstale task htask).late
    rw [htime] at hlate
    exact absurd hlate (by simp)
  show ((Session.begin _ timing delay).run steps).tasks.length ≤ 1
  rw [htasks, hnil]
  cases current <;> simp

end ManagedRegion.Debouncer
