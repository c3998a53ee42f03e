import ManagedRegion.Platform.Executor
import ManagedRegion.Service.Request

/-!
# Traces: the requests that leave none

A request that only reads leaves the service as it is, and so does a request that is refused: all
that could speak against a page, against metadata or against a size is looked at before the first
change, also what is looked at last, whether a page of another version fits
(`handle_of_refused`). This holds of the whole state: of the directory, the table and the published
number, of what waits for the timer and until when, and of the journal with its decode passes.

So a run can be told without such requests (`leaves_no_trace`): the steps that matter
(`effective`) lead to the same service. What is refused depends on the state in which it
arrives, so the steps are judged one after the other, each in the state that those before it leave.
-/

namespace ManagedRegion

open Region

/-- Whether a request can only be answered, and never changes anything. -/
def Request.reads : Request → Bool
  | directoryInformation _ | dataInformation _ | dataOffer | findIndex _ | records _ => true
  | sendDirectory _ | sendInformation .. | publishEntries _ | synchronize | pull
  | synchronizeCommonData .. => false

/-- Whether an answer says that a request was turned down. -/
def isRefusal : Except RequestFailure Response → Bool
  | .error (.refused _) => true
  | .error (.notLoaded _) | .ok _ => false

namespace Service

variable {s : Service} {refusal : Refusal}

/-! ## Requests that are refused -/

/-- An answer is a refusal exactly if what it was made of is one. -/
theorem reply_eq_refused_iff {α : Type} {wrap : α → Response} {answer : Except Refusal α} :
    handle.reply wrap answer = .error (.refused refusal) ↔ answer = .error refusal := by
  cases answer with
  | error other =>
    constructor
    · intro h
      cases h
      rfl
    · intro h
      cases h
      rfl
  | ok value =>
    constructor
    · intro h
      cases h
    · intro h
      cases h

/-- A page that is refused is not taken over. -/
theorem receivePage_of_refused {page : Directory.Page}
    (h : (s.receivePage page).1 = .error refusal) : (s.receivePage page).2 = s := by
  rcases s.receivePage_cases page with ⟨-, fault, hpage⟩ | ⟨-, -, hpage⟩ | ⟨-, hpage⟩
  · rw [hpage]
  · rw [hpage]
  · rw [hpage] at h
    cases h

/-- Metadata that are refused are not taken over. -/
theorem receiveInformation_of_refused {index : UInt8} {dataSetSize dataVersion timestamp : UInt32}
    (h : (s.receiveInformation index dataSetSize dataVersion timestamp).1 = .error refusal) :
    (s.receiveInformation index dataSetSize dataVersion timestamp).2 = s := by
  unfold receiveInformation at h ⊢
  split at h
  · cases h
  · next hindex => rw [dif_neg hindex]

/-- A size that is refused is not recorded, and arms nothing. -/
theorem synchronizeCommonData_of_refused {index : Nat} {size : UInt32}
    (h : (s.synchronizeCommonData index size).1 = .error refusal) :
    (s.synchronizeCommonData index size).2 = s := by
  unfold synchronizeCommonData at h ⊢
  split at h
  · cases h
  · next hindex => rw [dif_neg hindex]

/-- **A request that is refused changes nothing.** -/
theorem handle_of_refused {request : Request}
    (h : (s.handle request).1 = .error (.refused refusal)) : (s.handle request).2 = s := by
  cases request with
  | sendDirectory page => exact receivePage_of_refused (reply_eq_refused_iff.mp h)
  | sendInformation index flag dataSetSize dataVersion timestamp =>
    exact receiveInformation_of_refused (reply_eq_refused_iff.mp h)
  | synchronizeCommonData index size =>
    exact synchronizeCommonData_of_refused (reply_eq_refused_iff.mp h)
  | publishEntries proposed => cases h
  | synchronize => cases h
  | pull =>
    have hanswer : ((s.pull.1.map .report).mapError .notLoaded :
        Except RequestFailure Response) = .error (.refused refusal) := h
    -- a load that fails is no refusal
    cases houtcome : s.pull.1 with
    | error failure =>
      rw [houtcome] at hanswer
      cases hanswer
    | ok report =>
      rw [houtcome] at hanswer
      cases hanswer
  | directoryInformation | dataInformation | dataOffer | findIndex | records => rfl

/-- A request that only reads changes nothing. -/
theorem handle_of_reads {request : Request} (h : request.reads = true) :
    (s.handle request).2 = s := by
  cases request with
  | directoryInformation | dataInformation | dataOffer | findIndex | records => rfl
  | sendDirectory | sendInformation | publishEntries | synchronize | pull
  | synchronizeCommonData => cases h

/-! ## Runs without them -/

/-- Whether a step is a request that only reads or is refused. -/
def isSilent (s : Service) : Step → Bool
  | .request request => request.reads || isRefusal (s.handle request).1
  | .store _ | .advance _ => false

/-- The steps of a run but for the requests that only read or are refused when they arrive. -/
def effective (s : Service) : List Step → List Step
  | [] => []
  | what :: later =>
    if s.isSilent what then s.effective later else what :: (s.step what).effective later

/-- A silent step changes nothing. -/
theorem step_of_isSilent {what : Step} (h : s.isSilent what = true) : s.step what = s := by
  cases what with
  | request request =>
    rcases Bool.or_eq_true_iff.mp h with hreads | hrefusal
    · exact handle_of_reads hreads
    · unfold isRefusal at hrefusal
      split at hrefusal
      · next refusal hanswer => exact handle_of_refused hanswer
      · cases hrefusal
      · cases hrefusal
  | store => cases h
  | advance => cases h

/-- The steps that matter lead to where all of them lead. -/
theorem run_effective (s : Service) (steps : List Step) :
    s.run (s.effective steps) = s.run steps := by
  induction steps generalizing s with
  | nil => rfl
  | cons what later ih =>
    unfold effective
    by_cases hsilent : s.isSilent what = true
    · rw [if_pos hsilent, ih]
      show s.run later = (s.step what).run later
      rw [step_of_isSilent hsilent]
    · rw [if_neg hsilent]
      exact ih (s.step what)

/-- **Requests that are refused or only read leave no trace.** In every state of a service a request
that is refused leaves everything as it is, and so does one that only reads, whatever the answer is;
and a run leads to the same service without them. -/
theorem leaves_no_trace (s : Service) :
    (∀ request refusal, (s.handle request).1 = .error (.refused refusal) →
      (s.handle request).2 = s) ∧
    (∀ request, request.reads = true → (s.handle request).2 = s) ∧
    ∀ steps, s.run (s.effective steps) = s.run steps :=
  ⟨fun _ _ => handle_of_refused, fun _ => handle_of_reads, s.run_effective⟩

/-- A page of another version that reaches behind the last slot is refused, and the pull that waits
goes on waiting. -/
theorem leaves_no_trace_overflow :
    let s := (start .delayed 2000 (.memory (some #[]))).run
      [.request (.synchronizeCommonData 3 99)]
    let page : Directory.Page := ⟨9, 3, 2, 0, Array.replicate 32 0xAA⟩
    s.isPending = true ∧
      (s.handle (.sendDirectory page)).1 =
        .error (.refused (.invalidParameter (.pageOverflow 3 5))) ∧
      (s.handle (.sendDirectory page)).2 = s := by
  intro s page
  have hrefused : (s.handle (.sendDirectory page)).1 =
      .error (.refused (.invalidParameter (.pageOverflow 3 5))) := rfl
  obtain ⟨hunchanged, -, -⟩ := leaves_no_trace s
  exact ⟨rfl, hrefused, hunchanged _ _ hrefused⟩

end Service

end ManagedRegion
