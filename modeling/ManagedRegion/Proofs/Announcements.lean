import ManagedRegion.Proofs.Exchange

/-!
# Announcements: what the metadata of an agent leave behind

An agent announces metadata for a region: the size of the next content, its version and its time. The
three of them are `CommonData`, and a region takes them over as a whole. Whether they are new is one
question (`announce_eq`), and content that is there counts as updated exactly if they are.

A service refuses an announcement exactly if there is no such region (`Answered`). Whatever the order
is in which metadata are announced for several regions, the last announcement for a region decides
about its metadata. Nothing else ever changes but the stage, and of what a service says about the
region only the version and the time (`Announced`, `announced_run`).
-/

namespace ManagedRegion

open Region

/-! ## One entry -/

/-- A region has content exactly if it is loaded or updated. -/
theorem Region.Stage.hasContent_iff (stage : Stage) :
    stage.hasContent = true ↔ stage = .loaded ∨ stage = .updated := by
  cases stage <;> decide

namespace Region.Entry

variable {entry before after later : Entry} {metadata : CommonData}

/-- An entry has other metadata than those announced if one of the three differs. -/
theorem ofEntry_ne_iff (entry : Entry) (metadata : CommonData) :
    CommonData.ofEntry entry ≠ metadata ↔ entry.dataSetSize ≠ metadata.dataSetSize ∨
      entry.dataVersion ≠ metadata.dataVersion ∨ entry.timestamp ≠ metadata.timestamp := by
  obtain ⟨dataSetSize, dataVersion, timestamp⟩ := metadata
  simp only [CommonData.ofEntry, ne_eq, CommonData.mk.injEq, Classical.not_and_iff_not_or_not]

/-- What an announcement makes of an entry. -/
structure Adopts (before : Entry) (metadata : CommonData) (after : Entry) : Prop where
  /-- The entry has the metadata that were announced. -/
  metadata_eq : CommonData.ofEntry after = metadata
  /-- Content that has been loaded counts as updated if the metadata are new. -/
  stage_eq : after.stage =
    if (before.stage = .loaded ∨ before.stage = .updated) ∧ CommonData.ofEntry before ≠ metadata
    then .updated else before.stage
  /-- The identity is kept. -/
  id_eq : after.id = before.id
  /-- The size of the content is kept. -/
  size_eq : after.size = before.size
  /-- The lock is kept. -/
  lock_eq : after.lock = before.lock

/-- An announcement is news exactly if the entry has other metadata. -/
theorem announce_fst (entry : Entry) (metadata : CommonData) :
    (entry.announce metadata.dataSetSize metadata.dataVersion metadata.timestamp).1 =
      decide (CommonData.ofEntry entry ≠ metadata) := by
  simp only [ofEntry_ne_iff]
  rfl

/-- **An entry takes over what is announced.** -/
theorem adopts_announce (entry : Entry) (metadata : CommonData) :
    entry.Adopts metadata
      (entry.announce metadata.dataSetSize metadata.dataVersion metadata.timestamp).2 where
  metadata_eq := rfl
  stage_eq := by
    simp only [ofEntry_ne_iff, ← Stage.hasContent_iff, and_comm (a := entry.stage.hasContent = true)]
    rfl
  id_eq := rfl
  size_eq := rfl
  lock_eq := rfl

/-- An entry that has the metadata already stays as it is. -/
theorem announce_of_eq (h : CommonData.ofEntry entry = metadata) :
    (entry.announce metadata.dataSetSize metadata.dataVersion metadata.timestamp).2 = entry := by
  subst h
  simp [announce, CommonData.ofEntry]

/-- What announcements leave alone: the identity, the size and the lock, and of the stage whether
there is content. -/
structure Kept (before after : Entry) : Prop where
  /-- The identity is kept. -/
  id_eq : after.id = before.id
  /-- The size of the content is kept. -/
  size_eq : after.size = before.size
  /-- The lock is kept. -/
  lock_eq : after.lock = before.lock
  /-- The stage is kept, or content that has been loaded counts as updated now. -/
  stage_cases : after.stage = before.stage ∨
    (before.stage = .loaded ∨ before.stage = .updated) ∧ after.stage = .updated

/-- Nothing changes by itself. -/
theorem Kept.refl (entry : Entry) : Kept entry entry :=
  ⟨rfl, rfl, rfl, .inl rfl⟩

/-- What is left alone twice is left alone. -/
theorem Kept.trans (h : Kept before after) (h' : Kept after later) : Kept before later where
  id_eq := h'.id_eq.trans h.id_eq
  size_eq := h'.size_eq.trans h.size_eq
  lock_eq := h'.lock_eq.trans h.lock_eq
  stage_cases := by
    rcases h'.stage_cases with hsame | ⟨hcontent, hupdated⟩
    · rw [hsame]
      exact h.stage_cases
    · rcases h.stage_cases with hsame | ⟨hloaded, -⟩
      · exact .inr ⟨hsame ▸ hcontent, hupdated⟩
      · exact .inr ⟨hloaded, hupdated⟩

/-- An entry that takes metadata over keeps the rest. -/
theorem Adopts.kept (h : before.Adopts metadata after) : Kept before after where
  id_eq := h.id_eq
  size_eq := h.size_eq
  lock_eq := h.lock_eq
  stage_cases := by
    have hstage := h.stage_eq
    split at hstage
    · next hnew => exact .inr ⟨hnew.1, hstage⟩
    · exact .inl hstage

/-- Content that counts as updated is as valid as before. -/
theorem Kept.validity_eq (h : Kept before after) : after.validity = before.validity := by
  unfold Entry.validity
  rw [h.lock_eq]
  rcases h.stage_cases with hsame | ⟨hloaded | hupdated, hnow⟩
  · rw [hsame]
  · rw [hloaded, hnow]
    cases before.lock <;> rfl
  · rw [hupdated, hnow]

/-- The first twenty-two bytes about a region are its identity, validity and size, the others its
version and time. -/
theorem information_parts (entry : Entry) :
    entry.information.take 22 = [2] ++ entry.id.toList ++ [entry.validity.toByte] ++
        Bytes.toBigEndian 4 entry.size.toNat ∧
      entry.information.drop 22 =
        entry.dataVersion.toUInt8 :: Bytes.toBigEndian 4 entry.timestamp.toNat := by
  have hid : entry.id.toList.length = 16 := Vector.length_toList
  have hfront : ([2] ++ entry.id.toList ++ [entry.validity.toByte] ++
      Bytes.toBigEndian 4 entry.size.toNat).length = 22 := by
    simp [Bytes.toBigEndian, hid]
  have hparts : entry.information = ([2] ++ entry.id.toList ++ [entry.validity.toByte] ++
      Bytes.toBigEndian 4 entry.size.toNat) ++
        entry.dataVersion.toUInt8 :: Bytes.toBigEndian 4 entry.timestamp.toNat := by
    simp [information, protocolVersion]
  rw [hparts, List.take_left' hfront, List.drop_left' hfront]
  exact ⟨rfl, rfl⟩

end Region.Entry

namespace Service

open Directory

variable {s : Service}

/-! ## One announcement -/

/-- What an agent announces: metadata for a region, with a flag. -/
structure Announcement where
  /-- The slot of the region. -/
  index : UInt8
  /-- The flag, which says nothing. -/
  flag : UInt8
  /-- The metadata. -/
  metadata : CommonData

/-- The request that makes an announcement. -/
def Announcement.request (a : Announcement) : Request :=
  .sendInformation a.index a.flag a.metadata.dataSetSize a.metadata.dataVersion
    a.metadata.timestamp

/-- How a service answers an announcement, and what becomes of it. -/
structure Answered (s : Service) (a : Announcement) (after : Service) : Prop where
  /-- It is refused exactly if there is no such region. -/
  refused_iff : (∃ failure, (s.handle a.request).1 = .error failure) ↔ 4 ≤ a.index.toNat
  /-- The refusal says that there is no such region, and changes nothing. -/
  refused : 4 ≤ a.index.toNat → s.handle a.request =
    (.error (.refused (.invalidParameter (.noRegion a.index.toNat))), s)
  /-- Otherwise the answer is whether the metadata are new. -/
  answer_eq : ∀ slot : Fin slots, slot.val = a.index.toNat → (s.handle a.request).1 =
    .ok (.flag (CommonData.ofEntry (s.directory.entry slot) ≠ a.metadata))
  /-- The entry of the region takes them over. -/
  adopts : ∀ slot : Fin slots, slot.val = a.index.toNat →
    (s.directory.entry slot).Adopts a.metadata (after.directory.entry slot)
  /-- The other entries are kept. -/
  entry_eq : ∀ slot : Fin slots, slot.val ≠ a.index.toNat →
    after.directory.entry slot = s.directory.entry slot
  /-- Nothing changes but entries. -/
  service_eq : after =
    { s with directory := { s.directory with entries := after.directory.entries } }
  /-- The flag makes no difference. -/
  flag_eq : ∀ flag, s.handle { a with flag }.request = s.handle a.request
  /-- The same announcement once more is no news, and changes nothing. -/
  again : ∀ slot : Fin slots, slot.val = a.index.toNat →
    after.handle a.request = (.ok (.flag false), after)

/-- Each announcement is answered with what taking it over gives. -/
theorem handle_announcement (s : Service) (a : Announcement) :
    s.handle a.request =
      (handle.reply .flag (s.receiveInformation a.index a.metadata.dataSetSize
        a.metadata.dataVersion a.metadata.timestamp).1,
      (s.receiveInformation a.index a.metadata.dataSetSize a.metadata.dataVersion
        a.metadata.timestamp).2) := rfl

/-- An announcement for a region that there is not is refused. -/
theorem handle_announcement_of_le {a : Announcement} (h : 4 ≤ a.index.toNat) :
    s.handle a.request =
      (.error (.refused (.invalidParameter (.noRegion a.index.toNat))), s) := by
  rw [handle_announcement, s.receiveInformation_of_le h]
  rfl

/-- An announcement for a region that there is, is taken over by its entry. -/
theorem handle_announcement_of_eq {a : Announcement} (slot : Fin slots)
    (h : slot.val = a.index.toNat) :
    s.handle a.request =
      (.ok (.flag (CommonData.ofEntry (s.directory.entry slot) ≠ a.metadata)),
        { s with
          directory := s.directory.setEntry slot ((s.directory.entry slot).announce
            a.metadata.dataSetSize a.metadata.dataVersion a.metadata.timestamp).2 }) := by
  rw [handle_announcement, s.receiveInformation_of_eq h, Entry.announce_fst]
  rfl

/-- An announcement for a region that there is not changes nothing. -/
theorem answered_of_le {a : Announcement} (h : 4 ≤ a.index.toNat) : Answered s a s where
  refused_iff := ⟨fun _ => h, fun _ => ⟨_, congrArg Prod.fst (handle_announcement_of_le h)⟩⟩
  refused := handle_announcement_of_le
  answer_eq slot hslot := absurd h (Nat.not_le.mpr (hslot ▸ slot.isLt))
  adopts slot hslot := absurd h (Nat.not_le.mpr (hslot ▸ slot.isLt))
  entry_eq _ _ := rfl
  service_eq := rfl
  flag_eq _ := rfl
  again slot hslot := absurd h (Nat.not_le.mpr (hslot ▸ slot.isLt))

/-- An announcement for a region that there is changes its entry and no other. -/
theorem answered_of_eq {a : Announcement} (own : Fin slots) (h : own.val = a.index.toNat) :
    Answered s a (s.handle a.request).2 := by
  have hhandle := handle_announcement_of_eq (s := s) own h
  have hadopts := Entry.adopts_announce (s.directory.entry own) a.metadata
  have hown {slot : Fin slots} (hslot : slot.val = a.index.toNat) : slot = own :=
    Fin.ext (hslot.trans h.symm)
  have hentry : (s.handle a.request).2.directory.entry own = ((s.directory.entry own).announce
      a.metadata.dataSetSize a.metadata.dataVersion a.metadata.timestamp).2 := by
    rw [hhandle]
    exact entry_setEntry_self _ _ _
  constructor
  case refused_iff =>
    refine ⟨fun ⟨failure, hfailure⟩ => ?_, fun hle => absurd hle (Nat.not_le.mpr (h ▸ own.isLt))⟩
    rw [hhandle] at hfailure
    cases hfailure
  case refused => exact handle_announcement_of_le
  case answer_eq =>
    intro slot hslot
    rw [hown hslot, hhandle]
  case adopts =>
    intro slot hslot
    rw [hown hslot, hentry]
    exact hadopts
  case entry_eq =>
    intro slot hslot
    rw [hhandle]
    exact entry_setEntry_of_ne _ _ fun heq => hslot (heq ▸ h)
  case service_eq =>
    rw [hhandle]
    rfl
  case flag_eq => exact fun _ => rfl
  case again =>
    intro slot _
    have hmetadata : CommonData.ofEntry ((s.handle a.request).2.directory.entry own) =
        a.metadata := hentry ▸ hadopts.metadata_eq
    -- the metadata are those of the entry, so they are no news and the entry is put back as it is
    rw [handle_announcement_of_eq own h, Entry.announce_of_eq hmetadata, setEntry_entry, hmetadata]
    simp

/-- **Each announcement is refused or taken over**, whatever the state of the service is. -/
theorem answered (s : Service) (a : Announcement) : Answered s a (s.handle a.request).2 := by
  by_cases hindex : a.index.toNat < slots
  · exact answered_of_eq ⟨a.index.toNat, hindex⟩ rfl
  · have hle : 4 ≤ a.index.toNat := Nat.le_of_not_lt hindex
    rw [handle_announcement_of_le hle]
    exact answered_of_le hle

/-! ## A run of announcements -/

/-- The steps in which an agent makes announcements one after the other. -/
def announcing (announcements : List Announcement) : List Step :=
  announcements.map fun a => .request a.request

/-- The metadata of a slot behind announcements: those of the last one for it. -/
def lastAnnounced (s : Service) (announcements : List Announcement) (slot : Fin slots) :
    CommonData :=
  lastWritten (fun a => slot.val = a.index.toNat) (·.metadata)
    (.ofEntry (s.directory.entry slot)) announcements

/-- What is left of a service when announcements have been made one after the other. -/
structure Announced (s : Service) (announcements : List Announcement) (after : Service) :
    Prop where
  /-- Each entry has the metadata of the last announcement for it. -/
  metadata_eq : ∀ slot, CommonData.ofEntry (after.directory.entry slot) =
    s.lastAnnounced announcements slot
  /-- Of an entry nothing else changes, but that loaded content may count as updated. -/
  kept : ∀ slot, Entry.Kept (s.directory.entry slot) (after.directory.entry slot)
  /-- Of the service nothing changes but entries. -/
  service_eq : after =
    { s with directory := { s.directory with entries := after.directory.entries } }

/-- Without an announcement nothing changes. -/
theorem announced_nil (s : Service) : Announced s [] s :=
  ⟨fun _ => rfl, fun slot => .refl (s.directory.entry slot), rfl⟩

/-- An entry keeps all but its metadata, whatever is announced. -/
theorem Answered.kept {a : Announcement} {after : Service} (h : Answered s a after)
    (slot : Fin slots) : Entry.Kept (s.directory.entry slot) (after.directory.entry slot) := by
  by_cases hslot : slot.val = a.index.toNat
  · exact (h.adopts slot hslot).kept
  · rw [h.entry_eq slot hslot]
    exact .refl _

/-- The metadata of the other slots are those from before an announcement. -/
theorem Answered.metadata_eq {a : Announcement} {after : Service} (h : Answered s a after)
    (slot : Fin slots) : CommonData.ofEntry (after.directory.entry slot) =
      if slot.val = a.index.toNat then a.metadata
      else .ofEntry (s.directory.entry slot) := by
  split
  · next hslot => exact (h.adopts slot hslot).metadata_eq
  · next hslot => rw [h.entry_eq slot hslot]

/-- What the later announcements leave is what all of them leave, behind the first one. -/
theorem Announced.cons {a : Announcement} {later : List Announcement} {next after : Service}
    (hfirst : Answered s a next) (h : Announced next later after) :
    Announced s (a :: later) after where
  metadata_eq slot := by
    have hlater := h.metadata_eq slot
    unfold lastAnnounced at hlater ⊢
    rw [lastWritten_cons]
    simp only [decide_eq_true_eq]
    rw [← hfirst.metadata_eq]
    exact hlater
  kept slot := (hfirst.kept slot).trans (h.kept slot)
  service_eq := by
    rw [h.service_eq, hfirst.service_eq]

/-- Each run of announcements leaves what its last announcements say. -/
theorem announced_announcing (s : Service) (announcements : List Announcement) :
    Announced s announcements (s.run (announcing announcements)) := by
  induction announcements generalizing s with
  | nil => exact announced_nil s
  | cons a later ih => exact .cons (s.answered a) (ih _)

/-! ## What a service says about a region -/

/-- A region that there is is described. -/
theorem handle_dataInformation_of_eq (s : Service) {index : UInt8} {slot : Fin slots}
    (h : slot.val = index.toNat) :
    s.handle (.dataInformation index) =
      (.ok (.bytes (s.directory.entry slot).information), s) := by
  have hentry : s.directory.entry? index.toNat = some (s.directory.entry slot) :=
    h ▸ s.directory.entry?_eq slot
  show (handle.reply .bytes (s.dataInformation index), s) = _
  rw [dataInformation, hentry]
  rfl

/-- What a service said about a region before, and what it says afterwards. -/
structure Describes (s : Service) (index : UInt8) (metadata : CommonData) (after : Service)
    (before now : List UInt8) : Prop where
  /-- The region was described. -/
  described : s.handle (.dataInformation index) = (.ok (.bytes before), s)
  /-- It still is. -/
  described_now : after.handle (.dataInformation index) = (.ok (.bytes now), after)
  /-- Identity, validity and size are those from before. -/
  take_eq : now.take 22 = before.take 22
  /-- The version, of which there is but the low byte, and the time are those of the metadata. -/
  drop_eq : now.drop 22 = UInt8.ofNat (metadata.dataVersion.toNat % 256) ::
    Bytes.toBigEndian 4 metadata.timestamp.toNat

/-- Announcements change nothing of what is said about a region but its version and its time. -/
theorem Announced.describes {announcements : List Announcement} {after : Service}
    (h : Announced s announcements after) {index : UInt8} {slot : Fin slots}
    (hslot : slot.val = index.toNat) :
    Describes s index (s.lastAnnounced announcements slot) after
      (s.directory.entry slot).information (after.directory.entry slot).information where
  described := s.handle_dataInformation_of_eq hslot
  described_now := after.handle_dataInformation_of_eq hslot
  take_eq := by
    have hkept := h.kept slot
    rw [(Entry.information_parts _).1, (Entry.information_parts _).1, hkept.id_eq, hkept.size_eq,
      hkept.validity_eq]
  drop_eq := by
    have hlow : (after.directory.entry slot).dataVersion.toUInt8 =
        UInt8.ofNat ((after.directory.entry slot).dataVersion.toNat % 256) :=
      UInt8.ofNat_mod_size.symm
    rw [(Entry.information_parts _).2, ← h.metadata_eq slot, hlow]
    rfl

/-- **The last announcement decides.** A service answers each announcement as it should, and behind
any announcements each entry has the metadata of the last one for it; nothing else has changed but
the stage of what was loaded, and a region is described as before but for its version and time. -/
theorem announced_run (s : Service) :
    (∀ a, Answered s a (s.handle a.request).2) ∧
      ∀ announcements,
        Announced s announcements (s.run (announcing announcements)) ∧
        ∀ (index : UInt8) (slot : Fin slots), slot.val = index.toNat →
          ∃ before now, Describes s index (s.lastAnnounced announcements slot)
            (s.run (announcing announcements)) before now := by
  refine ⟨s.answered, fun announcements => ?_⟩
  have hannounced := s.announced_announcing announcements
  exact ⟨hannounced, fun index slot hslot => ⟨_, _, hannounced.describes hslot⟩⟩

/-- Of three announcements the one for a region that there is not has no part in what is said about
the first region, and of the version 258 the low byte is seen. -/
theorem announced_run_refused :
    let s := start .delayed 2000 (.memory none)
    let announcements : List Announcement :=
      [⟨0, 7, ⟨100, 257, 3⟩⟩, ⟨0, 0, ⟨100, 258, 4⟩⟩, ⟨5, 0, ⟨1, 1, 1⟩⟩]
    let after := s.run (announcing announcements)
    (0 : Fin slots).val = (0 : UInt8).toNat ∧
      ∃ before now, s.handle (.dataInformation 0) = (.ok (.bytes before), s) ∧
        after.handle (.dataInformation 0) = (.ok (.bytes now), after) ∧
        now.take 22 = before.take 22 ∧ now.drop 22 = [2, 0, 0, 0, 4] := by
  intro s announcements after
  obtain ⟨-, hrun⟩ := announced_run s
  obtain ⟨-, hdescribes⟩ := hrun announcements
  obtain ⟨before, now, h⟩ := hdescribes 0 0 rfl
  exact ⟨rfl, before, now, h.described, h.described_now, h.take_eq, h.drop_eq.trans (by decide)⟩

end Service

end ManagedRegion
