import ManagedRegion.Proofs.Announcements
import ManagedRegion.Proofs.Synchronization

/-!
# Independence: requests that concern different things

Pages, announcements and loads all write into the same directory, pages and announcements even into
the same entry. They do not get in each other's way, since each of them writes single fields: a page
the name of an entry, an announcement its metadata, a load what it reports of the structure table.
So two requests of different kinds, or announcements for different regions, can be made in either
order: each of them is answered as if the other one had not been made, and the services that they
lead to are the same in every respect (`Independent`, `independent_requests`).

A page and an announcement are edits of the directory (`edit`). An edit that commutes with a change
of an entry (`CommutesWith`) can be moved past whatever makes that change, past a pull and the
decode pass that it arms as well (`pull_edit`, `resize_edit`).
-/

namespace ManagedRegion

open Image Region

/-! ## Edits of a directory -/

namespace Region.Directory

variable {change : Entry → Entry}

/-- Changes the entry in a slot. -/
def modify (d : Directory) (slot : Fin slots) (change : Entry → Entry) : Directory :=
  d.setEntry slot (change (d.entry slot))

/-- An edit that can come before or behind a change of the entry in a slot. -/
def CommutesWith (edit : Directory → Directory) (slot : Fin slots) (change : Entry → Entry) : Prop :=
  ∀ d, edit (d.modify slot change) = (edit d).modify slot change

/-- A change of an entry that has nothing to do with its name. -/
def SparesName (change : Entry → Entry) : Prop :=
  ∀ entry id?, rename (change entry) id? = change (rename entry id?)

/-- A size has nothing to do with the name. -/
theorem sparesName_resize (size : UInt32) : SparesName ({ · with size }) := by
  intro entry id?
  cases id? <;> rfl

/-- What a load reports has nothing to do with the name. -/
theorem sparesName_markLoaded (dataVersion timestamp size : UInt32) :
    SparesName (·.markLoaded dataVersion timestamp size) := by
  intro entry id?
  cases id? <;> rfl

/-- Metadata have nothing to do with the name. -/
theorem sparesName_announce (dataSetSize dataVersion timestamp : UInt32) :
    SparesName fun entry => (entry.announce dataSetSize dataVersion timestamp).2 := by
  intro entry id?
  cases id? <;> rfl

/-- Changes of different entries can be made in either order. -/
theorem commutesWith_modify {slot other : Fin slots} (h : other ≠ slot)
    (change second : Entry → Entry) :
    CommutesWith (·.modify other second) slot change := by
  intro d
  dsimp only [modify]
  rw [entry_setEntry_of_ne _ _ h, entry_setEntry_of_ne _ _ h.symm, setEntry_comm _ _ _ h]

/-- Takes a page over, if it applies. -/
def receive (page : Page) (d : Directory) : Directory :=
  if page.Applies d.dirVersion then d.apply page else d

/-- A page can be taken over before or behind a change that has nothing to do with names. -/
theorem commutesWith_receive (page : Page) (slot : Fin slots) (h : SparesName change) :
    CommutesWith (receive page) slot change := by
  intro d
  have hversion : (d.modify slot change).dirVersion = d.dirVersion := rfl
  unfold receive
  rw [hversion]
  split
  · unfold modify
    rw [apply_setEntry, entry_apply, h]
  · rfl

/-- A page does not touch the metadata of an entry. -/
theorem ofEntry_receive (page : Page) (d : Directory) (slot : Fin slots) :
    CommonData.ofEntry ((receive page d).entry slot) = .ofEntry (d.entry slot) := by
  unfold receive
  split
  · rw [entry_apply, rename_eq]
    rfl
  · rfl

end Region.Directory

namespace Service

open Directory

variable {s : Service} {f : Directory → Directory}

/-- The service with another directory. -/
def edit (s : Service) (f : Directory → Directory) : Service :=
  { s with directory := f s.directory }

/-! ## Edits and pulls -/

/-- An edit can be moved past what is armed, if it can be moved past what is run. -/
theorem arm_edit {run : Service → Service} (hrun : ∀ t : Service, run (t.edit f) = (run t).edit f)
    (s : Service) (action : Action) : (s.edit f).arm action run = (s.arm action run).edit f := by
  cases htiming : s.debouncer.timing with
  | immediate =>
    have hedited : (s.edit f).debouncer.timing = .immediate := htiming
    rw [arm_of_immediate htiming, arm_of_immediate hedited, ← hrun]
    rfl
  | delayed =>
    have hedited : (s.edit f).debouncer.timing = .delayed := htiming
    rw [arm_of_delayed htiming, arm_of_delayed hedited]
    rfl

/-- An edit that commutes with what loads report. -/
def SparesLoads (f : Directory → Directory) : Prop :=
  ∀ dataVersion timestamp size,
    CommutesWith f tableSlot (·.markLoaded dataVersion timestamp size)

/-- An edit that commutes with what loads report can be moved past a pull. -/
theorem pull_edit (h : SparesLoads f) (s : Service) :
    (s.edit f).pull = (s.pull.1, s.pull.2.edit f) := by
  rcases hload : load s.store s.table with ⟨failure | report, table⟩
  · have hedited : load (s.edit f).store (s.edit f).table = (.error failure, table) := hload
    rw [pull_of_error hload, pull_of_error hedited]
    rfl
  · have hedited : load (s.edit f).store (s.edit f).table = (.ok report, table) := hload
    let loaded : Service := { s with table }.note (.pulled (.ok report) table)
    have hmarked : (loaded.edit f).markLoaded report = (loaded.markLoaded report).edit f :=
      congrArg (fun directory => { loaded with directory }) (h _ _ _ s.directory).symm
    rw [pull_of_ok hload, pull_of_ok hedited]
    show (Except.ok report, ((loaded.edit f).markLoaded report).arm .decode decode) = _
    rw [hmarked, arm_edit fun _ => rfl]

/-- An edit that commutes with sizes as well can be moved past the recording of a size. -/
theorem resize_edit (h : SparesLoads f) {slot : Fin slots} {size : UInt32}
    (hsize : CommutesWith f slot ({ · with size })) (s : Service) :
    (s.edit f).resize slot size = (s.resize slot size).edit f := by
  let resized : Service := { s with
    directory := s.directory.modify slot ({ · with size })
    journal := .resized slot size :: s.journal }
  have hresized : { (s.edit f) with
      directory := (f s.directory).modify slot ({ · with size })
      journal := .resized slot size :: s.journal } = resized.edit f :=
    congrArg (fun directory => { resized with directory }) (hsize s.directory).symm
  have hpull (t : Service) : (t.edit f).perform .pull = (t.perform .pull).edit f :=
    congrArg Prod.snd (pull_edit h t)
  show ({ (s.edit f) with
      directory := (f s.directory).modify slot ({ · with size })
      journal := .resized slot size :: s.journal } : Service).arm .pull (·.perform .pull) = _
  rw [hresized, arm_edit hpull]
  rfl

/-! ## Requests as edits -/

/-- Taking a page over is an edit. -/
theorem handle_sendDirectory_snd (s : Service) (page : Page) :
    (s.handle (.sendDirectory page)).2 = s.edit (receive page) := by
  unfold edit receive
  split
  · next happlies => rw [handle_of_applies happlies]
  · next hnot => exact handle_snd_of_not_applies hnot

/-- How a page is answered depends on the version of the directory alone. -/
theorem handle_sendDirectory_fst_congr {t : Service} (page : Page)
    (h : t.directory.dirVersion = s.directory.dirVersion) :
    (t.handle (.sendDirectory page)).1 = (s.handle (.sendDirectory page)).1 := by
  rw [handle_sendDirectory, handle_sendDirectory]
  unfold receivePage
  dsimp only
  rw [h]
  repeat' split
  all_goals rfl

/-- Takes over what is announced, if there is the region. -/
def announce (a : Announcement) (d : Directory) : Directory :=
  if h : a.index.toNat < slots then
    d.modify ⟨a.index.toNat, h⟩ fun entry => (entry.announce a.metadata.dataSetSize
      a.metadata.dataVersion a.metadata.timestamp).2
  else d

/-- Taking an announcement over is an edit. -/
theorem handle_announcement_snd (s : Service) (a : Announcement) :
    (s.handle a.request).2 = s.edit (announce a) := by
  unfold edit announce
  split
  · next h =>
    rw [handle_announcement_of_eq ⟨a.index.toNat, h⟩ rfl]
    rfl
  · next h => rw [handle_announcement_of_le (Nat.le_of_not_lt h)]

/-- How an announcement is answered depends on the metadata of its entry alone. -/
theorem handle_announcement_fst_congr {t : Service} (a : Announcement)
    (h : ∀ slot : Fin slots, slot.val = a.index.toNat →
      CommonData.ofEntry (t.directory.entry slot) = .ofEntry (s.directory.entry slot)) :
    (t.handle a.request).1 = (s.handle a.request).1 := by
  by_cases hindex : a.index.toNat < slots
  · let slot : Fin slots := ⟨a.index.toNat, hindex⟩
    rw [handle_announcement_of_eq slot rfl, handle_announcement_of_eq slot rfl, h slot rfl]
  · have hle := Nat.le_of_not_lt hindex
    rw [handle_announcement_of_le hle, handle_announcement_of_le hle]

/-- An announcement does not touch the version of the directory. -/
theorem dirVersion_announce (a : Announcement) (d : Directory) :
    (announce a d).dirVersion = d.dirVersion := by
  unfold announce
  split <;> rfl

/-- An announcement does not touch the entries of other regions. -/
theorem entry_announce_of_ne {a : Announcement} {slot : Fin slots} (h : slot.val ≠ a.index.toNat)
    (d : Directory) : (announce a d).entry slot = d.entry slot := by
  unfold announce
  split
  · exact entry_setEntry_of_ne _ _ fun heq => h (congrArg Fin.val heq)
  · rfl

/-- An announcement can be taken over before or behind a change of the entry of another region. -/
theorem commutesWith_announce {a : Announcement} {slot : Fin slots} (h : slot.val ≠ a.index.toNat)
    (change : Entry → Entry) : CommutesWith (announce a) slot change := by
  by_cases hindex : a.index.toNat < slots
  · have hother : (⟨a.index.toNat, hindex⟩ : Fin slots) ≠ slot :=
      fun heq => h (congrArg Fin.val heq).symm
    intro d
    unfold announce
    rw [dif_pos hindex, dif_pos hindex]
    exact commutesWith_modify hother _ _ d
  · intro d
    unfold announce
    rw [dif_neg hindex, dif_neg hindex]

/-- An edit that commutes with what an entry takes over can be moved past the announcement, if it
does not touch the metadata of the entry. -/
theorem handle_announcement_edit {a : Announcement}
    (hmetadata : ∀ d (slot : Fin slots), slot.val = a.index.toNat →
      CommonData.ofEntry ((f d).entry slot) = .ofEntry (d.entry slot))
    (hcommutes : ∀ slot : Fin slots, slot.val = a.index.toNat →
      CommutesWith f slot fun entry => (entry.announce a.metadata.dataSetSize
        a.metadata.dataVersion a.metadata.timestamp).2) (s : Service) :
    (s.edit f).handle a.request = ((s.handle a.request).1, (s.handle a.request).2.edit f) := by
  apply Prod.ext
  · exact handle_announcement_fst_congr a (hmetadata s.directory)
  · rw [handle_announcement_snd, handle_announcement_snd]
    unfold edit announce
    split
    · next hindex =>
      exact congrArg (fun directory => { s with directory })
        (hcommutes ⟨a.index.toNat, hindex⟩ rfl s.directory).symm
    · rfl

/-- An edit that commutes with what loads report can be moved past both ways to ask for a pull. -/
theorem handle_pull_edit (h : SparesLoads f) (s : Service) :
    (s.edit f).handle .pull = ((s.handle .pull).1, (s.handle .pull).2.edit f) ∧
      (s.edit f).handle .synchronize =
        ((s.handle .synchronize).1, (s.handle .synchronize).2.edit f) := by
  have hpull := pull_edit h s
  constructor
  · show ((((s.edit f).pull.1.map .report).mapError .notLoaded, (s.edit f).pull.2) :
      Except RequestFailure Response × Service) = _
    rw [hpull]
    rfl
  · show ((.ok (.flag (s.edit f).pull.1.isOk), (s.edit f).pull.2) :
      Except RequestFailure Response × Service) = _
    rw [hpull]
    rfl

/-- An edit that commutes with sizes and with what loads report can be moved past the recording of a
size, if it does not touch metadata. -/
theorem handle_synchronizeCommonData_edit (h : SparesLoads f)
    (hsize : ∀ slot size, CommutesWith f slot ({ · with size }))
    (hmetadata : ∀ d slot, CommonData.ofEntry ((f d).entry slot) = .ofEntry (d.entry slot))
    (s : Service) (index : Nat) (size : UInt32) :
    (s.edit f).handle (.synchronizeCommonData index size) =
      ((s.handle (.synchronizeCommonData index size)).1,
        (s.handle (.synchronizeCommonData index size)).2.edit f) := by
  have hhandle (t : Service) : t.handle (.synchronizeCommonData index size) =
      (handle.reply .commonData (t.synchronizeCommonData index size).1,
        (t.synchronizeCommonData index size).2) := rfl
  rw [hhandle, hhandle]
  by_cases hindex : index < slots
  · have hanswer : CommonData.ofEntry ((s.edit f).directory.entry ⟨index, hindex⟩) =
        .ofEntry (s.directory.entry ⟨index, hindex⟩) := hmetadata s.directory _
    rw [synchronizeCommonData_of_lt _ hindex, synchronizeCommonData_of_lt _ hindex,
      resize_edit h (hsize _ size), hanswer]
  · have hle := Nat.le_of_not_lt hindex
    rw [synchronizeCommonData_of_le _ hle, synchronizeCommonData_of_le _ hle]

/-- Recording a size does not touch the version of the directory, and nor does the pull that
follows. -/
theorem dirVersion_resize (s : Service) (slot : Fin slots) (size : UInt32) :
    (s.resize slot size).directory.dirVersion = s.directory.dirVersion := by
  let resized : Service := { s with
    directory := s.directory.setEntry slot { s.directory.entry slot with size }
    journal := .resized slot size :: s.journal }
  show (resized.arm .pull (·.perform .pull)).directory.dirVersion = resized.directory.dirVersion
  cases htiming : resized.debouncer.timing with
  | immediate =>
    rw [arm_of_immediate htiming]
    exact (keeps_pull_snd _).dirVersion_eq
  | delayed => rw [arm_of_delayed htiming]

/-- A request to record a size does not touch the version of the directory. -/
theorem dirVersion_synchronizeCommonData (s : Service) (index : Nat) (size : UInt32) :
    (s.handle (.synchronizeCommonData index size)).2.directory.dirVersion =
      s.directory.dirVersion := by
  show (s.synchronizeCommonData index size).2.directory.dirVersion = _
  by_cases hindex : index < slots
  · rw [synchronizeCommonData_of_lt s hindex]
    exact dirVersion_resize s _ size
  · rw [synchronizeCommonData_of_le s (Nat.le_of_not_lt hindex)]

/-! ## Independent requests -/

/-- Two requests that can be made in either order. -/
structure Independent (s : Service) (first second : Request) : Prop where
  /-- The first one is answered as if the second one had not been made. -/
  first_eq : ((s.handle second).2.handle first).1 = (s.handle first).1
  /-- The second one is answered as if the first one had not been made. -/
  second_eq : ((s.handle first).2.handle second).1 = (s.handle second).1
  /-- They lead to the same service: directory, table, published number, store, clock, what waits
  and until when, and the journal with its decode passes. -/
  service_eq : ((s.handle first).2.handle second).2 = ((s.handle second).2.handle first).2

/-- A request that is an edit is independent of one past which the edit can be moved, if that one
does not change how it is answered. -/
theorem independent_of_edit {first second : Request}
    (hfirst : ∀ t : Service, (t.handle first).2 = t.edit f)
    (hanswer : ((s.handle second).2.handle first).1 = (s.handle first).1)
    (hsecond : (s.edit f).handle second = ((s.handle second).1, (s.handle second).2.edit f)) :
    Independent s first second where
  first_eq := hanswer
  second_eq := by rw [hfirst, hsecond]
  service_eq := by rw [hfirst, hfirst, hsecond]

/-- What a page writes has nothing to do with what loads report. -/
theorem sparesLoads_receive (page : Page) : SparesLoads (receive page) :=
  fun _ _ _ => commutesWith_receive page _ (sparesName_markLoaded _ _ _)

/-- The slot of a region other than that of the structure table. -/
theorem ne_tableSlot {index : UInt8} (h : index ≠ 0) {slot : Fin slots}
    (hslot : slot.val = index.toNat) : slot ≠ tableSlot := by
  rintro rfl
  exact h (UInt8.toNat_inj.mp hslot.symm)

/-- An announcement for another region than that of the structure table has nothing to do with what
loads report. -/
theorem sparesLoads_announce {a : Announcement} (h : a.index ≠ 0) : SparesLoads (announce a) :=
  fun _ _ _ => commutesWith_announce (fun hslot => ne_tableSlot h hslot rfl) _

/-- A page is independent of a request that its edit can be moved past and that keeps the version of
the directory. -/
theorem independent_page (s : Service) (page : Page) {second : Request}
    (hsecond : (s.edit (receive page)).handle second =
      ((s.handle second).1, (s.handle second).2.edit (receive page)))
    (hversion : (s.handle second).2.directory.dirVersion = s.directory.dirVersion) :
    Independent s (.sendDirectory page) second :=
  independent_of_edit (handle_sendDirectory_snd · page)
    (handle_sendDirectory_fst_congr page hversion) hsecond

/-- An announcement is independent of a request that its edit can be moved past and that keeps the
metadata of its entry. -/
theorem independent_announcement (s : Service) (a : Announcement) {second : Request}
    (hsecond : (s.edit (announce a)).handle second =
      ((s.handle second).1, (s.handle second).2.edit (announce a)))
    (hentry : ∀ slot : Fin slots, slot.val = a.index.toNat →
      (s.handle second).2.directory.entry slot = s.directory.entry slot) :
    Independent s a.request second :=
  independent_of_edit (handle_announcement_snd · a)
    (handle_announcement_fst_congr a fun slot hslot => congrArg _ (hentry slot hslot)) hsecond

/-- **Requests that concern different things are independent**, in every state of a service. A page
is independent of announcements, of loads and of sizes that are recorded; announcements for
different regions are independent; and an announcement for another region than that of the
structure table is independent of loads. -/
theorem independent_requests (s : Service) :
    (∀ page,
      (∀ a : Announcement, Independent s (.sendDirectory page) a.request) ∧
      Independent s (.sendDirectory page) .pull ∧
      Independent s (.sendDirectory page) .synchronize ∧
      ∀ index size, Independent s (.sendDirectory page) (.synchronizeCommonData index size)) ∧
    (∀ a b : Announcement, a.index ≠ b.index → Independent s a.request b.request) ∧
    ∀ a : Announcement, a.index ≠ 0 →
      Independent s a.request .pull ∧ Independent s a.request .synchronize := by
  refine ⟨fun page => ⟨fun a => ?_, ?_, ?_, fun index size => ?_⟩, fun a b hne => ?_,
    fun a hne => ⟨?_, ?_⟩⟩
  · exact independent_page s page
      (handle_announcement_edit (fun d slot _ => ofEntry_receive page d slot)
        (fun _ _ => commutesWith_receive page _ (sparesName_announce _ _ _)) s)
      (by rw [handle_announcement_snd]; exact dirVersion_announce a _)
  · exact independent_page s page (handle_pull_edit (sparesLoads_receive page) s).1
      (keeps_pull_snd s).dirVersion_eq
  · exact independent_page s page (handle_pull_edit (sparesLoads_receive page) s).2
      (keeps_pull_snd s).dirVersion_eq
  · exact independent_page s page
      (handle_synchronizeCommonData_edit (sparesLoads_receive page)
        (fun _ _ => commutesWith_receive page _ (sparesName_resize _)) (ofEntry_receive page) s
        index size)
      (dirVersion_synchronizeCommonData s index size)
  · have hdistinct {slot : Fin slots} (hb : slot.val = b.index.toNat) :
        slot.val ≠ a.index.toNat := fun ha => hne (UInt8.toNat_inj.mp (ha.symm.trans hb))
    refine independent_announcement s a (handle_announcement_edit
      (fun d slot hb => congrArg _ (entry_announce_of_ne (hdistinct hb) d))
      (fun slot hb => commutesWith_announce (hdistinct hb) _) s) fun slot ha => ?_
    rw [handle_announcement_snd]
    exact entry_announce_of_ne (fun hb => hdistinct hb ha) _
  · exact independent_announcement s a (handle_pull_edit (sparesLoads_announce hne) s).1
      fun slot hslot => (keeps_pull_snd s).entry_eq slot (ne_tableSlot hne hslot)
  · exact independent_announcement s a (handle_pull_edit (sparesLoads_announce hne) s).2
      fun slot hslot => (keeps_pull_snd s).entry_eq slot (ne_tableSlot hne hslot)

/-- In a service that decodes inline, an announcement for the second region is independent of one for
the structure table and of the load that would overwrite that one. -/
theorem independent_requests_inline :
    let s := start .immediate 0 (.memory (some (encode 1 0 minimalContent)))
    let a : Announcement := ⟨1, 0, ⟨7, 8, 9⟩⟩
    let b : Announcement := ⟨0, 0, ⟨4, 5, 6⟩⟩
    a.index ≠ b.index ∧ a.index ≠ 0 ∧ Independent s a.request b.request ∧
      Independent s a.request .pull ∧ Independent s a.request .synchronize := by
  intro s a b
  have hdistinct : a.index ≠ b.index := by decide
  have hother : a.index ≠ 0 := by decide
  obtain ⟨-, hannouncements, hloads⟩ := independent_requests s
  exact ⟨hdistinct, hother, hannouncements a b hdistinct, hloads a hother⟩

end Service

end ManagedRegion
