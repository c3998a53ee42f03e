import ManagedRegion.Platform.Executor
import ManagedRegion.Proofs.Load
import ManagedRegion.Proofs.Moves

/-!
# Quiescence: what holds while nothing is pending

Decode passes and pulls share one timer, and each arming forgets what the timer held. Nothing is
lost by that: at every point of a run at which nothing is pending, each size that was recorded has
been followed by a load, and if the last load succeeded, then its table is the one that was handed
over last (`quiescent_run`).

Both halves are invariants of moves. A recorded size is followed by a load, or a pull still waits
(`Followed`); the newest load has failed, or its table was handed over, or something still waits
(`UpToDate`).
-/

namespace ManagedRegion

open Image Region Smbios

namespace Situation

variable {σ τ : Situation} {base : List Event}

/-- The journal has grown from `base`, and since then a load was tried, unless a pull waits. -/
def Followed (base : List Event) (σ : Situation) : Prop :=
  ∃ later, σ.journal = later ++ base ∧
    (σ.waiting = some .pull ∨ ∃ outcome table, .pulled outcome table ∈ later)

/-- With a load, a recorded size has been followed by one. -/
theorem followed_of_pulled {later : List Event} {outcome : Except LoadFailure LoadReport}
    {table : Table} (hjournal : σ.journal = later ++ base)
    (hpulled : τ.journal = .pulled outcome table :: σ.journal) : Followed base τ := by
  refine ⟨.pulled outcome table :: later, ?_, .inr ⟨outcome, table, List.mem_cons_self⟩⟩
  rw [hpulled, hjournal, List.cons_append]

/-- No move takes it back that a recorded size will be followed by a load. -/
theorem Followed.step (hmove : Move σ τ) (h : Followed base σ) : Followed base τ := by
  obtain ⟨later, hjournal, hlater⟩ := h
  cases hmove with
  | resize slot size =>
    refine ⟨.resized slot size :: later, ?_, .inl rfl⟩
    rw [List.cons_append, ← hjournal]
  | load hload => exact followed_of_pulled hjournal rfl
  | fail hquiet hload => exact followed_of_pulled hjournal rfl
  | failDue hdue hload => exact followed_of_pulled hjournal rfl
  | decode hdue =>
    -- the pass that runs is what waited, so no pull did
    rcases hlater with hpull | ⟨outcome, table, hmem⟩
    · exact absurd (hdue.symm.trans hpull) (by simp)
    · refine ⟨.decoded σ.table :: later, ?_, .inr ⟨outcome, table, List.mem_cons_of_mem _ hmem⟩⟩
      rw [List.cons_append, ← hjournal]

/-- If the newest load succeeded and nothing waits, the current table was handed over last. -/
def UpToDate (σ : Situation) : Prop :=
  ∀ report table, (attempts σ.journal).head? = some (.ok report, table) → σ.waiting = none →
    (σ.journal.filterMap Event.handedOver?).head? = some σ.table

/-- A move leaves something waiting, or ends in a failure, or hands the table over. -/
theorem upToDate_of_move (hmove : Move σ τ) : UpToDate τ := by
  intro report table hattempt hnone
  cases hmove with
  | resize slot size => exact absurd hnone (by simp)
  | load hload => exact absurd hnone (by simp)
  | fail hquiet hload => exact absurd hattempt (by simp)
  | failDue hdue hload => exact absurd hattempt (by simp)
  | decode hdue => rfl

end Situation

namespace Service

open Situation

variable {s : Service}

/-- A new size is recorded exactly for the slots there are. -/
theorem handle_synchronizeCommonData {index : Nat} {size : UInt32} {response : Response}
    (h : (s.handle (.synchronizeCommonData index size)).1 = .ok response) :
    ∃ slot : Fin Directory.slots, slot.val = index ∧
      s.step (.request (.synchronizeCommonData index size)) = s.resize slot size := by
  by_cases hindex : index < Directory.slots
  · refine ⟨⟨index, hindex⟩, rfl, ?_⟩
    show (s.synchronizeCommonData index size).2 = _
    rw [synchronizeCommonData, dif_pos hindex]
  · rw [handle, synchronizeCommonData, dif_neg hindex] at h
    cases h

/-- Once nothing is pending any more, a size that was recorded has been followed by a load. -/
theorem followed_of_resize (slot : Fin Directory.slots) (size : UInt32) (after : List Step)
    (hpending : ((s.resize slot size).run after).isPending = false) :
    ∃ later outcome table, ((s.resize slot size).run after).journal =
      later ++ .resized slot size :: s.journal ∧ .pulled outcome table ∈ later := by
  have hresized := leads_resize s slot size
  have hled := hresized.trans (leads_run hresized.quiet after)
  obtain ⟨later, hjournal, hlater⟩ := Situation.invariant
    (Followed (.resized slot size :: s.journal)) Followed.step hled.moves ⟨[], rfl, .inl rfl⟩
  rcases hlater with hpull | ⟨outcome, table, hmem⟩
  · exact absurd (hpull.symm.trans (waiting_of_not_isPending hpending)) (by simp)
  · exact ⟨later, outcome, table, hjournal, hmem⟩

/-- **Nothing is lost in the timer.** Whenever nothing is pending, each size that was recorded has
been followed by a load since; and if the newest load succeeded, the table that was handed over last
is the current one, so that the latest inventory is that of the current table. -/
theorem quiescent_run [Timer] (timing : Timing) (delay : Nat) (store : Store) (steps : List Step)
    (hpending : ((start timing delay store).run steps).isPending = false) :
    (∀ before after index size response,
      steps = before ++ .request (.synchronizeCommonData index size) :: after →
      (((start timing delay store).run before).handle (.synchronizeCommonData index size)).1 =
        .ok response →
      ∃ slot later outcome table, slot.val = index ∧
        ((start timing delay store).run steps).journal = later ++
          .resized slot size :: ((start timing delay store).run before).journal ∧
        .pulled outcome table ∈ later) ∧
    ∀ report table,
      (attempts ((start timing delay store).run steps).journal).head? = some (.ok report, table) →
      ((start timing delay store).run steps).handedOver.head? =
        some ((start timing delay store).run steps).table ∧
      ((start timing delay store).run steps).latestInventory? =
        some (Inventory.collect ((start timing delay store).run steps).table) := by
  constructor
  · rintro before after index size response rfl hresponse
    obtain ⟨slot, hslot, hstep⟩ := handle_synchronizeCommonData hresponse
    rw [run_append] at hpending ⊢
    rw [show ((start timing delay store).run before).run
      (.request (.synchronizeCommonData index size) :: after) =
        ((((start timing delay store).run before).step
          (.request (.synchronizeCommonData index size))).run after) from rfl, hstep] at hpending ⊢
    obtain ⟨later, outcome, table, hjournal, hmem⟩ := followed_of_resize slot size after hpending
    exact ⟨slot, later, outcome, table, hslot, hjournal, hmem⟩
  · intro report table hattempt
    have hled := leads_start_run timing delay store steps
    have hbegin : UpToDate (initial timing) := by
      intro report table hattempt
      exact absurd hattempt (by simp [initial, attempts])
    have hhanded := Situation.invariant UpToDate (fun hmove _ => upToDate_of_move hmove) hled.moves
      hbegin report table hattempt (waiting_of_not_isPending hpending)
    refine ⟨hhanded, ?_⟩
    rw [latestInventory?]
    exact congrArg (Option.map Inventory.collect) hhanded

/-- A size is recorded while the first decode pass waits, and time passes. The pull that takes its
place runs, and so does the pass that this one arms. -/
theorem run_resize_advance [Timer] {image : Bytes} {report : LoadReport} {table : Table}
    (hload : ∀ before, load (.memory (some image)) before = (.ok report, table)) (delay : Nat)
    (size : UInt32) :
    let s := (start .delayed delay (.memory (some image))).run
      [.request (.synchronizeCommonData 0 size), .advance (2 * delay)]
    s.isPending = false ∧ s.journal = [.decoded table, .pulled (.ok report) table,
      .resized 0 size, .pulled (.ok report) table] := by
  have hkept := Timer.kept_le delay
  have hpull : Timer.kept delay ≤ 2 * delay := by omega
  have hdecode : Timer.kept delay + Timer.kept delay ≤ 2 * delay := by omega
  constructor <;>
    simp [start, idle, run, step, handle, synchronizeCommonData, resize, advance, runDue, perform,
      pull, hload, note, setStage, markLoaded, arm, decode, isPending, Debouncer.create,
      Debouncer.arm, Debouncer.takeDue, Debouncer.setClock, Debouncer.isPending, hpull, hdecode]

/-- With the image of the minimal content, the size that was recorded is followed by a load, and the
latest inventory is that of the table that this load left. -/
theorem quiescent_run_minimalContent :
    let first := start .delayed 2000 (.memory (some (encode 1 0 minimalContent)))
    let last := first.run [.request (.synchronizeCommonData 0 64), .advance 4000]
    (∃ slot later outcome table, slot.val = 0 ∧
      last.journal = later ++ .resized slot 64 :: first.journal ∧
      .pulled outcome table ∈ later) ∧
    last.latestInventory? = some (Inventory.collect last.table) := by
  intro first last
  obtain ⟨hpending, hjournal⟩ := run_resize_advance load_minimalContent 2000 64
  obtain ⟨hfollowed, hlatest⟩ := quiescent_run .delayed 2000
    (.memory (some (encode 1 0 minimalContent)))
    [.request (.synchronizeCommonData 0 64), .advance 4000] hpending
  refine ⟨hfollowed [] [.advance 4000] 0 64 _ rfl rfl, ?_⟩
  refine (hlatest minimalReport (Table.ofBytes minimalContent) ?_).2
  rw [hjournal]
  rfl

end Service

end ManagedRegion
