import ManagedRegion.Proofs.Inline

/-!
# Passes: each decode pass has a load of its own

A decode pass is armed by a load that succeeds, and by nothing else. What waits may be superseded,
by another load or by a pull for a size that was recorded, so that there may be fewer passes than
loads, but at no point of a journal have there been more (`passes_le_loads`).

The invariant of moves has to count the pass that waits, since it runs with no load in between
(`Caused`). Without a timer nothing is superseded, and after each step there have been as many
passes as loads (`Matched`).
-/

namespace ManagedRegion

open Image Region Smbios

/-! ## Counting in a journal -/

/-- The number of decode passes that a journal tells of. -/
def passes (journal : List Event) : Nat :=
  (journal.filterMap Event.handedOver?).length

section Counts

variable (journal : List Event)

/-- A size that is recorded is no pass. -/
@[simp] theorem passes_resized (slot : Fin Directory.slots) (size : UInt32) :
    passes (.resized slot size :: journal) = passes journal := rfl

/-- A load is no pass. -/
@[simp] theorem passes_pulled (outcome : Except LoadFailure LoadReport) (table : Table) :
    passes (.pulled outcome table :: journal) = passes journal := rfl

/-- A pass is one more. -/
@[simp] theorem passes_decoded (table : Table) :
    passes (.decoded table :: journal) = passes journal + 1 := rfl

/-- A size that is recorded is no load. -/
@[simp] theorem loads_resized (slot : Fin Directory.slots) (size : UInt32) :
    loads (.resized slot size :: journal) = loads journal := rfl

/-- A load that fails does not count. -/
@[simp] theorem loads_pulled_error (failure : LoadFailure) (table : Table) :
    loads (.pulled (.error failure) table :: journal) = loads journal := rfl

/-- A load that succeeds counts. -/
@[simp] theorem loads_pulled_ok (report : LoadReport) (table : Table) :
    loads (.pulled (.ok report) table :: journal) = (report, table) :: loads journal := rfl

/-- A pass is no load. -/
@[simp] theorem loads_decoded (table : Table) :
    loads (.decoded table :: journal) = loads journal := rfl

end Counts

/-- What holds at each point of a journal holds at each point of a longer one, if it holds at its
end. -/
theorem forall_suffix_cons {P : List Event → Prop} {journal : List Event} {event : Event}
    (h : ∀ earlier, earlier <:+ journal → P earlier) (hend : P (event :: journal)) :
    ∀ earlier, earlier <:+ event :: journal → P earlier := by
  intro earlier hsuffix
  rcases List.suffix_cons_iff.mp hsuffix with rfl | hsuffix
  · exact hend
  · exact h earlier hsuffix

/-! ## With a timer or without -/

namespace Situation

variable {σ τ : Situation}

/-- Each decode pass, and the one that waits, has a load of its own. -/
structure Caused (σ : Situation) : Prop where
  /-- At no point have there been more passes than loads that succeeded. -/
  passes_le : ∀ earlier, earlier <:+ σ.journal → passes earlier ≤ (loads earlier).length
  /-- If a pass waits, a load has succeeded for it. -/
  passes_lt : σ.waiting = some .decode → passes σ.journal < (loads σ.journal).length

/-- No move runs or arms a decode pass without a load of its own. -/
theorem Caused.step (hmove : Move σ τ) (h : Caused σ) : Caused τ := by
  have hend := h.passes_le σ.journal List.suffix_rfl
  cases hmove with
  | resize slot size =>
    exact ⟨forall_suffix_cons h.passes_le (by simpa using hend), fun hpass => by simp at hpass⟩
  | load hload =>
    have hmore : passes σ.journal < (loads σ.journal).length + 1 := Nat.lt_succ_of_le hend
    exact ⟨forall_suffix_cons h.passes_le (by simpa using Nat.le_of_lt hmore),
      fun _ => by simpa using hmore⟩
  | fail hquiet hload =>
    exact ⟨forall_suffix_cons h.passes_le (by simpa using hend),
      fun hpass => by simpa using h.passes_lt hpass⟩
  | failDue hdue hload =>
    exact ⟨forall_suffix_cons h.passes_le (by simpa using hend), fun hpass => by simp at hpass⟩
  | decode hdue =>
    -- the pass that runs is the one that was counted as waiting
    have hbefore := Nat.succ_le_of_lt (h.passes_lt hdue)
    exact ⟨forall_suffix_cons h.passes_le (by simpa using hbefore), fun hpass => by simp at hpass⟩

end Situation

namespace Service

open Situation

variable {s : Service}

/-- **Decode passes never outnumber loads**, neither at the end of a run nor before. -/
theorem passes_le_loads [Timer] (timing : Timing) (delay : Nat) (store : Store) (steps : List Step)
    {earlier : List Event}
    (h : earlier <:+ ((start timing delay store).run steps).journal) :
    passes earlier ≤ (loads earlier).length := by
  have hinitial : Caused (initial timing) := by
    refine ⟨?_, fun hwaiting => by simp [initial] at hwaiting⟩
    intro earlier hsuffix
    rw [List.suffix_nil.mp hsuffix]
    exact Nat.le_refl 0
  have hled := leads_start_run timing delay store steps
  exact (Situation.invariant Caused Caused.step hled.moves hinitial).passes_le earlier h

/-! ## Without a timer -/

/-- There have been as many decode passes as loads that succeeded. -/
def Matched (s : Service) : Prop :=
  passes s.journal = (loads s.journal).length

/-- Only the journal matters. -/
theorem Matched.congr {after : Service} (h : s.Matched) (hjournal : after.journal = s.journal) :
    after.Matched := by
  rw [Matched, hjournal]
  exact h

/-- An inline pull whose load succeeds runs the decode pass as well; one whose load fails does
neither. -/
theorem Inline.matched_pull (h : s.Inline) (hmatched : s.Matched) : s.pull.2.Matched := by
  rcases hload : load s.store s.table with ⟨failure | report, table⟩
  · rw [pull_of_error hload, Matched, note, passes_pulled, loads_pulled_error]
    exact hmatched
  · rw [h.pull_of_ok hload, Matched, decode, note, passes_decoded, loads_decoded]
    exact congrArg Nat.succ hmatched

/-- The pull that follows a size which was recorded runs at once. -/
theorem Inline.matched_synchronizeCommonData (h : s.Inline) (hmatched : s.Matched) (index : Nat)
    (size : UInt32) : (s.synchronizeCommonData index size).2.Matched := by
  by_cases hindex : index < Directory.slots
  · let resized : Service := { s with
      directory := s.directory.setEntry ⟨index, hindex⟩
        { s.directory.entry ⟨index, hindex⟩ with size }
      journal := .resized ⟨index, hindex⟩ size :: s.journal }
    have hinline : resized.Inline := ⟨h.timing_eq, h.pending_eq⟩
    have hpull : s.resize ⟨index, hindex⟩ size = resized.pull.2 :=
      hinline.arm_eq .pull (·.perform .pull)
    rw [synchronizeCommonData_of_lt s hindex, hpull]
    exact hinline.matched_pull hmatched
  · rw [synchronizeCommonData_of_le s (Nat.le_of_not_lt hindex)]
    exact hmatched

/-- Without a timer each step runs as many decode passes as it loads. -/
theorem Inline.matched_step (h : s.Inline) (hmatched : s.Matched) (what : Step) :
    (s.step what).Matched := by
  cases what with
  | request request =>
    cases request with
    | sendDirectory page =>
      exact hmatched.congr (congrArg Situation.journal (situation_receivePage s page))
    | sendInformation index flag dataSetSize dataVersion timestamp =>
      exact hmatched.congr (congrArg Situation.journal
        (situation_receiveInformation s index dataSetSize dataVersion timestamp))
    | synchronize => exact h.matched_pull hmatched
    | pull => exact h.matched_pull hmatched
    | synchronizeCommonData index size => exact h.matched_synchronizeCommonData hmatched index size
    | directoryInformation | dataInformation | dataOffer | findIndex | publishEntries | records =>
      exact hmatched
  | store store => exact hmatched
  | advance time =>
    show (s.advance time).Matched
    rw [h.advance_eq]
    exact hmatched

/-- **Without a timer there are as many decode passes as loads after each step.** -/
theorem matched_start_run [Timer] (delay : Nat) (store : Store) (steps : List Step) :
    ((start .immediate delay store).run steps).Matched := by
  have hidle := inline_idle delay store
  have hstart : (start .immediate delay store).Matched := hidle.matched_pull rfl
  have hinline : (start .immediate delay store).Inline := hidle.step (.request .pull)
  generalize start .immediate delay store = s at hstart hinline
  induction steps generalizing s with
  | nil => exact hstart
  | cons what steps ih => exact ih _ (hinline.matched_step hstart what) (hinline.step what)

end Service

end ManagedRegion
