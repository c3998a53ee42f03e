import ManagedRegion.Platform.Executor
import ManagedRegion.Service.Request

/-!
# Exchange: what the pages of an agent leave behind

An agent sends its directory in pages. A page that is well formed and brings the version that the
directory has already completes the exchange at once and changes nothing, however far it reaches; a
well-formed page that brings another version and fits is applied; and every other page is refused
(`Answers`).

Pages may overlap, and exchanges may be given up halfway or mixed with others. Whatever the order
is, the last page that was applied decides: about the name of a slot the last one that covers it,
about the number of populated slots the last one of all, and about the version the last one behind
which no entries remain. Nothing else ever changes (`Exchanged`, `exchanged_run`).

The induction is on the pages, from the first one on, and all three parts follow one law: what the
first page writes is what the others begin with (`lastWritten_cons`).
-/

namespace ManagedRegion

open Region

/-! ## What is written last -/

/-- What the elements of a list that satisfy `p` write one over the other: the last of them gives
it, and if there is none, `initial` stays. -/
def lastWritten {α β : Type} (p : α → Bool) (value : α → β) (initial : β) (list : List α) : β :=
  (list.filter p).getLast?.elim initial value

/-- What the first element writes is what the others begin with. -/
theorem lastWritten_cons {α β : Type} (p : α → Bool) (value : α → β) (initial : β) (first : α)
    (rest : List α) :
    lastWritten p value initial (first :: rest) =
      lastWritten p value (if p first then value first else initial) rest := by
  unfold lastWritten
  by_cases hfirst : p first = true
  · rw [List.filter_cons_of_pos hfirst, List.getLast?_cons, if_pos hfirst]
    cases (rest.filter p).getLast? with
    | none => rfl
    | some last => rfl
  · rw [List.filter_cons_of_neg hfirst, if_neg hfirst]

/-! ## Pages and the names that they give -/

namespace Region.Directory

/-- A page covers as many slots as it counts, from its first one on. -/
def Page.Covers (page : Page) (slot : Nat) : Prop :=
  page.slot.toNat ≤ slot ∧ slot < page.slot.toNat + page.count.toNat

instance (page : Page) (slot : Nat) : Decidable (page.Covers slot) :=
  inferInstanceAs (Decidable (_ ∧ _))

/-- The bytes of a page that name a slot which it covers: the first sixteen for its first slot, the
next sixteen for the next one, and so on. -/
def Page.chunk (page : Page) (slot : Nat) : Bytes :=
  let start := (slot - page.slot.toNat) * DataId.size
  page.ids.extract start (start + DataId.size)

variable {page : Page}

/-- A well-formed page has sixteen bytes for each slot that it covers. -/
theorem Page.IsWellFormed.size_chunk (h : page.IsWellFormed) {slot : Nat}
    (hcovers : page.Covers slot) : (page.chunk slot).size = DataId.size := by
  obtain ⟨-, -, hsize⟩ := h
  obtain ⟨hfirst, hlast⟩ := hcovers
  have hstop : (slot - page.slot.toNat) * DataId.size + DataId.size ≤ page.ids.size := by
    rw [← hsize, ← Nat.succ_mul]
    apply Nat.mul_le_mul_right
    omega
  unfold chunk
  dsimp only
  rw [Array.size_extract, Nat.min_eq_left hstop]
  omega

/-- A well-formed page names the slots that it covers by their sixteen bytes, and no others. -/
theorem Page.IsWellFormed.toArray_id_rename (h : page.IsWellFormed) (entry : Entry) (slot : Nat) :
    (rename entry (page.idFor? slot)).id.toArray =
      if page.Covers slot then page.chunk slot else entry.id.toArray := by
  by_cases hcovers : page.Covers slot
  · have hid : page.idFor? slot = some ⟨page.chunk slot, h.size_chunk hcovers⟩ := by
      have hchunk : page.idFor? slot = DataId.ofBytes? (page.chunk slot) := if_pos hcovers
      rw [hchunk]
      exact dif_pos (h.size_chunk hcovers)
    rw [hid, if_pos hcovers]
    rfl
  · have hid : page.idFor? slot = none := if_neg hcovers
    rw [hid, if_neg hcovers]
    rfl

/-- A name changes nothing of an entry but its identity. -/
theorem rename_eq (entry : Entry) (id? : Option DataId) :
    rename entry id? = { entry with id := (rename entry id?).id } := by
  cases id? with
  | none => rfl
  | some id => rfl

end Region.Directory

namespace Service

open Directory

variable {s : Service} {page : Page}

/-! ## One page -/

/-- How a service answers a page. -/
structure Answers (s : Service) (page : Page) : Prop where
  /-- A page is refused, and changes nothing, exactly if it begins behind the last slot, covers no
  slot, has not sixteen bytes for each one, or brings another version and does not fit. -/
  refused_iff :
    (∃ fault, s.handle (.sendDirectory page) = (.error (.refused (.invalidParameter fault)), s)) ↔
      4 ≤ page.slot.toNat ∨ page.count.toNat = 0 ∨ page.ids.size ≠ 16 * page.count.toNat ∨
        (page.dirVersion ≠ s.directory.dirVersion ∧ 4 < page.slot.toNat + page.count.toNat)
  /-- A well-formed page of the version that the directory has completes the exchange and changes
  nothing, whether it fits or not. -/
  known : page.IsWellFormed → page.dirVersion = s.directory.dirVersion →
    s.handle (.sendDirectory page) = (.ok (.flag true), s)
  /-- A page that is applied completes the exchange exactly if no entries remain. -/
  applied : page.Applies s.directory.dirVersion →
    s.handle (.sendDirectory page) =
      (.ok (.flag (page.remaining = 0)), { s with directory := s.directory.apply page })

/-- The four faults of a page are what keeps it from being known or applied. -/
theorem faulty_iff (page : Page) (version : UInt8) :
    (4 ≤ page.slot.toNat ∨ page.count.toNat = 0 ∨ page.ids.size ≠ 16 * page.count.toNat ∨
      (page.dirVersion ≠ version ∧ 4 < page.slot.toNat + page.count.toNat)) ↔
    (¬ page.IsWellFormed ∨ page.dirVersion ≠ version ∧ ¬ page.Fits) := by
  unfold Page.IsWellFormed Page.Fits slots DataId.size
  by_cases hversion : page.dirVersion = version
  · simp only [hversion, ne_eq, not_true_eq_false, false_and, or_false]
    omega
  · simp only [hversion, ne_eq, not_false_eq_true, true_and]
    omega

/-- A page is answered with what taking it over gives. -/
theorem handle_sendDirectory (s : Service) (page : Page) :
    s.handle (.sendDirectory page) =
      (handle.reply .flag (s.receivePage page).1, (s.receivePage page).2) := rfl

/-- A page that is neither known nor applied is refused. -/
theorem handle_of_faulty
    (h : ¬ page.IsWellFormed ∨ page.dirVersion ≠ s.directory.dirVersion ∧ ¬ page.Fits) :
    ∃ fault, s.handle (.sendDirectory page) =
      (.error (.refused (.invalidParameter fault)), s) := by
  rcases s.receivePage_cases page with
    ⟨-, fault, hpage⟩ | ⟨hform, hversion, -⟩ | ⟨⟨hform, -, hfits⟩, -⟩
  · refine ⟨fault, ?_⟩
    rw [handle_sendDirectory, hpage]
    rfl
  · exact absurd h (not_or.mpr ⟨not_not_intro hform, fun hother => hother.1 hversion⟩)
  · exact absurd h (not_or.mpr ⟨not_not_intro hform, fun hother => hother.2 hfits⟩)

/-- A well-formed page of the local version completes the exchange. -/
theorem handle_of_known (hform : page.IsWellFormed)
    (hversion : page.dirVersion = s.directory.dirVersion) :
    s.handle (.sendDirectory page) = (.ok (.flag true), s) := by
  rcases s.receivePage_cases page with
    ⟨hfaulty, -⟩ | ⟨-, -, hpage⟩ | ⟨⟨-, hother, -⟩, -⟩
  · rcases hfaulty with hnot | ⟨hother, -⟩
    · exact absurd hform hnot
    · exact absurd hversion hother
  · rw [handle_sendDirectory, hpage]
    rfl
  · exact absurd hversion hother

/-- A page that is applied is written into the directory. -/
theorem handle_of_applies (h : page.Applies s.directory.dirVersion) :
    s.handle (.sendDirectory page) =
      (.ok (.flag (page.remaining = 0)), { s with directory := s.directory.apply page }) := by
  obtain ⟨hform, hother, hfits⟩ := h
  rcases s.receivePage_cases page with
    ⟨hfaulty, -⟩ | ⟨-, hversion, -⟩ | ⟨-, hpage⟩
  · rcases hfaulty with hnot | ⟨-, hnot⟩
    · exact absurd hform hnot
    · exact absurd hfits hnot
  · exact absurd hversion hother
  · rw [handle_sendDirectory, hpage]
    rfl

/-- **Each page is refused, known or applied**, whatever the state of the service is. -/
theorem answers (s : Service) (page : Page) : Answers s page where
  refused_iff := by
    rw [faulty_iff]
    constructor
    · rintro ⟨fault, hrefused⟩
      rcases s.receivePage_cases page with ⟨hfaulty, -⟩ | ⟨hform, hversion, -⟩ | ⟨happlies, -⟩
      · exact hfaulty
      -- what is known or applied has an answer, and that is no refusal
      · rw [handle_of_known hform hversion] at hrefused
        cases hrefused
      · rw [handle_of_applies happlies] at hrefused
        cases hrefused
    · exact handle_of_faulty
  known := handle_of_known
  applied := handle_of_applies

/-- A page is either applied or leaves the service as it is. -/
theorem handle_snd_of_not_applies (h : ¬ page.Applies s.directory.dirVersion) :
    (s.handle (.sendDirectory page)).2 = s := by
  rw [handle_sendDirectory]
  rcases s.receivePage_cases page with ⟨-, fault, hpage⟩ | ⟨-, -, hpage⟩ | ⟨happlies, -⟩
  · rw [hpage]
  · rw [hpage]
  · exact absurd happlies h

/-! ## A run of pages -/

/-- The steps in which an agent sends pages one after the other. -/
def sending (pages : List Page) : List Step :=
  pages.map fun page => .request (.sendDirectory page)

/-- Those of the pages sent one after the other that are applied, in order. -/
def applied (s : Service) : List Page → List Page
  | [] => []
  | page :: later =>
    let after := s.step (.request (.sendDirectory page))
    if page.Applies s.directory.dirVersion then page :: after.applied later
    else after.applied later

/-- What is left of a service when pages have been applied one after the other. -/
structure Exchanged (s : Service) (pages : List Page) (after : Service) : Prop where
  /-- Each slot has the name that the last page gives it which covers it. -/
  id_eq : ∀ slot : Fin slots, (after.directory.entry slot).id.toArray =
    lastWritten (·.Covers slot) (·.chunk slot) (s.directory.entry slot).id.toArray pages
  /-- As many slots are populated as the last page counts. -/
  dirEntries_eq : after.directory.dirEntries =
    lastWritten (fun _ => true) (·.count) s.directory.dirEntries pages
  /-- The version is that of the last page behind which no entries remain. -/
  dirVersion_eq : after.directory.dirVersion =
    lastWritten (·.remaining = 0) (·.dirVersion) s.directory.dirVersion pages
  /-- Of an entry nothing changes but the name. -/
  entry_eq : ∀ slot, after.directory.entry slot =
    { s.directory.entry slot with id := (after.directory.entry slot).id }
  /-- The version of the local agent is kept. -/
  agentVersion_eq : after.directory.agentVersion = s.directory.agentVersion
  /-- The status of the directory is kept. -/
  status_eq : after.directory.status = s.directory.status
  /-- The version of the remote directory is kept. -/
  remoteDirVersion_eq : after.directory.remoteDirVersion = s.directory.remoteDirVersion
  /-- Of the service nothing changes but the directory. -/
  service_eq : after = { s with directory := after.directory }

/-- Without a page nothing changes. -/
theorem exchanged_nil (s : Service) : Exchanged s [] s :=
  ⟨fun _ => rfl, rfl, rfl, fun _ => rfl, rfl, rfl, rfl, rfl⟩

/-- What the later pages leave is what all of them leave, if the first one is applied before. -/
theorem Exchanged.cons {pages : List Page} {after : Service}
    (h : Exchanged { s with directory := s.directory.apply page } pages after)
    (hform : page.IsWellFormed) : Exchanged s (page :: pages) after where
  id_eq slot := by
    have hlater := h.id_eq slot
    rw [lastWritten_cons]
    simp only [decide_eq_true_eq]
    rw [← hform.toArray_id_rename, ← entry_apply]
    exact hlater
  dirEntries_eq := by
    have hlater := h.dirEntries_eq
    rw [lastWritten_cons]
    exact hlater
  dirVersion_eq := by
    have hlater := h.dirVersion_eq
    rw [lastWritten_cons]
    simp only [decide_eq_true_eq]
    exact hlater
  entry_eq slot := by
    have hlater := h.entry_eq slot
    have hfirst := rename_eq (s.directory.entry slot) (page.idFor? slot)
    rw [← entry_apply] at hfirst
    exact hlater.trans
      (congrArg (fun entry : Entry => { entry with id := (after.directory.entry slot).id }) hfirst)
  agentVersion_eq := h.agentVersion_eq
  status_eq := h.status_eq
  remoteDirVersion_eq := h.remoteDirVersion_eq
  service_eq := h.service_eq

/-- **The last page that was applied decides.** A service answers each page as it should, and
behind any pages, each name, the number of populated slots and the version are those of the last
page that was applied and concerns them; nothing else has changed. -/
theorem exchanged_run (s : Service) :
    (∀ page, Answers s page) ∧
      ∀ pages, Exchanged s (s.applied pages) (s.run (sending pages)) := by
  refine ⟨s.answers, fun pages => ?_⟩
  induction pages generalizing s with
  | nil => exact exchanged_nil s
  | cons page later ih =>
    have hlater := ih (s.step (.request (.sendDirectory page)))
    show Exchanged s (s.applied (page :: later))
      ((s.step (.request (.sendDirectory page))).run (sending later))
    unfold applied
    by_cases happlies : page.Applies s.directory.dirVersion
    · have hstep : s.step (.request (.sendDirectory page)) =
          { s with directory := s.directory.apply page } :=
        congrArg Prod.snd (handle_of_applies happlies)
      rw [if_pos happlies]
      rw [hstep] at hlater ⊢
      exact hlater.cons happlies.1
    · have hstep : s.step (.request (.sendDirectory page)) = s :=
        handle_snd_of_not_applies happlies
      rw [if_neg happlies]
      rw [hstep] at hlater ⊢
      exact hlater

/-- Of two exchanges that overlap the later one names the slots that both cover, and a page of the
version that it brings is known, though it reaches behind the last slot. -/
example :
    let pages : List Page :=
      [⟨7, 0, 2, 1, Array.replicate 32 0xAA⟩, ⟨8, 1, 2, 0, Array.replicate 32 0xBB⟩,
        ⟨8, 3, 2, 0, Array.replicate 32 0xCC⟩]
    let after := (idle .immediate 0 (.memory none)).run (sending pages)
    after.directory.entries.toList.map (·.id.toList.head?) =
        [some 0xAA, some 0xBB, some 0xBB, some 0] ∧
      after.directory.dirEntries = 2 ∧ after.directory.dirVersion = 8 := by
  decide

end Service

end ManagedRegion
