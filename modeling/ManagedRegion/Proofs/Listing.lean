import ManagedRegion.Proofs.Exchange
import ManagedRegion.Proofs.Regions

/-!
# Listing: a directory read from one service and sent to another

A listing and a page carry a directory in the same form, but the count in front of a listing and the
identities behind it are taken from the directory independently: the count by a subtraction of
bytes, the identities from the slots that are there. They agree because no more slots are populated
than there are, which holds of every service that can be reached (`Lists`).

So a listing can be sent on as a page. A service that takes it over answers every question about its
directory as the service from which it came (`HandedOn`, `listed_handedOn`). The questions read
nothing but the version, the number of entries and the identities of the populated slots
(`Directory.ids`), and these three are what a page brings (`ids_apply_ofListing`).
-/

namespace ManagedRegion

open Image Region

namespace Region

/-! ## Identities one after the other -/

/-- The bytes of some identities, one after the other. -/
def DataId.join (ids : List DataId) : List UInt8 :=
  ids.flatMap (·.toList)

/-- Each identity takes sixteen bytes. -/
theorem DataId.length_join (ids : List DataId) : (join ids).length = size * ids.length := by
  induction ids with
  | nil => rfl
  | cons id rest ih =>
    have hid : id.toList.length = size := Vector.length_toList
    unfold join at ih ⊢
    rw [List.flatMap_cons, List.length_append, ih, hid, List.length_cons, Nat.mul_succ,
      Nat.add_comm]

/-- The bytes of the first identities are left out with them. -/
theorem DataId.join_drop (ids : List DataId) (n : Nat) :
    join (ids.drop n) = (join ids).drop (size * n) := by
  induction n generalizing ids with
  | zero => rfl
  | succ n ih =>
    cases ids with
    | nil => exact List.drop_nil.symm
    | cons id rest =>
      have hid : id.toList.length = size := Vector.length_toList
      have hfront : join (id :: rest) = id.toList ++ join rest := List.flatMap_cons
      rw [List.drop_succ_cons, ih, hfront, Nat.mul_succ, Nat.add_comm, ← List.drop_drop,
        List.drop_left' hid]

/-- Each identity stands in the sixteen bytes behind those in front of it. -/
theorem DataId.take_drop_join {ids : List DataId} {n : Nat} (h : n < ids.length) :
    ((join ids).drop (size * n)).take size = ids[n].toList := by
  have hid : ids[n].toList.length = size := Vector.length_toList
  have hfront : join (ids[n] :: ids.drop (n + 1)) = ids[n].toList ++ join (ids.drop (n + 1)) :=
    List.flatMap_cons
  rw [← join_drop, List.drop_eq_getElem_cons h, hfront, List.take_left' hid]

namespace Directory

variable {d e : Directory} {loaded : Bool}

/-! ## What a directory shows -/

/-- The identities of the populated slots. -/
def ids (d : Directory) : List DataId :=
  d.populated.map (·.id)

/-- A listing shows the version, the number of entries and the identities. -/
theorem listing_eq (d : Directory) (slot : UInt8) :
    d.listing slot =
      [2, d.dirVersion, d.dirEntries - slot, 0] ++ DataId.join (d.ids.drop slot.toNat) := by
  unfold listing ids DataId.join
  rw [← List.map_drop, List.flatMap_map]
  rfl

/-- A region is found by the identities. -/
theorem find?_eq (d : Directory) (id : DataId) : d.find? id = d.ids.findIdx? (· == id) := by
  unfold find? ids
  rw [List.findIdx?_map]
  rfl

/-- There are as many identities as entries, if there are so many slots. -/
theorem length_ids (h : d.dirEntries.toNat ≤ slots) : d.ids.length = d.dirEntries.toNat := by
  unfold ids
  rw [List.length_map, length_populated h]

/-- The identity in the place of a populated slot is that of its entry. -/
theorem getElem?_ids (d : Directory) {slot : Fin slots} (h : slot.val < d.dirEntries.toNat) :
    d.ids[slot.val]? = some (d.entry slot).id := by
  unfold ids
  rw [List.getElem?_map, d.getElem?_populated h, entry?_eq]
  rfl

/-! ## Listings as pages -/

/-- The page that sends a listing on: version, count and remaining entries are the bytes behind the
first one of the listing, and the page covers the slots from the first one on. -/
def Page.ofListing (reply : List UInt8) : Page where
  dirVersion := reply[1]?.getD 0
  slot := 0
  count := reply[2]?.getD 0
  remaining := reply[3]?.getD 0
  ids := (reply.drop 4).toArray

/-- The page of a whole listing. -/
theorem ofListing_listing (d : Directory) :
    Page.ofListing (d.listing 0) =
      ⟨d.dirVersion, 0, d.dirEntries, 0, (DataId.join d.ids).toArray⟩ := by
  rw [listing_eq, UInt8.sub_zero]
  rfl

/-- The page of a whole listing is well formed, and fits every directory. -/
theorem Settled.ofListing (h : d.Settled loaded) :
    (Page.ofListing (d.listing 0)).IsWellFormed ∧ (Page.ofListing (d.listing 0)).Fits := by
  rw [ofListing_listing]
  refine ⟨⟨Nat.zero_lt_succ 3, Nat.ne_of_gt h.entries_pos, ?_⟩, ?_⟩
  · show d.dirEntries.toNat * DataId.size = (DataId.join d.ids).toArray.size
    rw [List.size_toArray, DataId.length_join, length_ids h.entries_le, Nat.mul_comm]
  · show 0 + d.dirEntries.toNat ≤ slots
    rw [Nat.zero_add]
    exact h.entries_le

/-- The page of a whole listing gives each populated slot the identity that was listed. -/
theorem chunk_ofListing {slot : Nat} (h : slot < d.ids.length) :
    (Page.ofListing (d.listing 0)).chunk slot = d.ids[slot].toArray := by
  have hchunk := DataId.take_drop_join h
  rw [ofListing_listing]
  apply Array.toList_inj.mp
  show ((DataId.join d.ids).toArray.extract _ _).toList = d.ids[slot].toList
  rw [← hchunk]
  simp [Nat.mul_comm]

/-- **A directory that takes a listing over has the identities that were listed.** -/
theorem Settled.ids_apply_ofListing (h : d.Settled loaded) (e : Directory) :
    (e.apply (.ofListing (d.listing 0))).ids = d.ids := by
  obtain ⟨hform, hfits⟩ := h.ofListing
  have hentries : (e.apply (.ofListing (d.listing 0))).dirEntries = d.dirEntries := by
    rw [ofListing_listing]
    rfl
  have hcount := length_ids h.entries_le
  apply List.ext_getElem?
  intro i
  by_cases hi : i < d.dirEntries.toNat
  · -- the page covers the slot and gives it the identity that was listed
    let slot : Fin slots := ⟨i, Nat.lt_of_lt_of_le hi h.entries_le⟩
    have hlisted : i < d.ids.length := hcount ▸ hi
    have hcovers : (Page.ofListing (d.listing 0)).Covers i := by
      rw [ofListing_listing]
      exact ⟨Nat.zero_le i, (Nat.zero_add _).symm ▸ hi⟩
    have hname := hform.toArray_id_rename (e.entry slot) i
    rw [← entry_apply, if_pos hcovers, chunk_ofListing hlisted] at hname
    have hin : slot.val < (e.apply (.ofListing (d.listing 0))).dirEntries.toNat := hentries ▸ hi
    have hnew := getElem?_ids _ hin
    rw [Vector.toArray_inj.mp hname] at hnew
    rw [List.getElem?_eq_getElem hlisted]
    exact hnew
  · have hnew := length_ids (d := e.apply (.ofListing (d.listing 0))) (hentries ▸ h.entries_le)
    rw [hentries] at hnew
    rw [List.getElem?_eq_none (by omega), List.getElem?_eq_none (by omega)]

/-- What the questions about a directory read: the version, the number of entries and the identities
of the populated slots. -/
structure SameListing (d e : Directory) : Prop where
  /-- The versions are the same. -/
  dirVersion_eq : d.dirVersion = e.dirVersion
  /-- The numbers of entries are the same. -/
  dirEntries_eq : d.dirEntries = e.dirEntries
  /-- The identities are the same. -/
  ids_eq : d.ids = e.ids

/-- A directory that takes a listing over shows what was listed. -/
theorem Settled.sameListing_apply (h : d.Settled loaded) (e : Directory) :
    SameListing (e.apply (.ofListing (d.listing 0))) d := by
  refine ⟨?_, ?_, h.ids_apply_ofListing e⟩
  · rw [ofListing_listing]
    rfl
  · rw [ofListing_listing]
    rfl

end Directory

end Region

namespace Service

open Directory

variable {s t : Service} {first : UInt8}

/-! ## What a service lists -/

/-- How a service lists its regions from a slot on, of which `count` are populated. -/
structure ListsFrom (s : Service) (first : UInt8) (count : Nat) (reply : List UInt8) : Prop where
  /-- In front stand the version of the protocol, that of the directory, how many regions are listed
  and that none remain. -/
  take_eq : reply.take 4 = [2, s.directory.dirVersion, UInt8.ofNat count, 0]
  /-- The number of regions does not wrap around. -/
  toNat_count : (UInt8.ofNat count).toNat = count
  /-- Behind them stand as many identities, those of the slots from the first one on. -/
  drop_eq : ∃ ids : List DataId, reply.drop 4 = DataId.join ids ∧ ids.length = count ∧
    ∀ k < count, ids[k]? = s.directory.entries[first.toNat + k]?.map (·.id)
  /-- Each identity takes sixteen bytes. -/
  length_eq : reply.length = 4 + 16 * count
  /-- The identities are those at the end of the whole listing. -/
  tail_eq : ∃ whole, s.handle (.directoryInformation 0) = (.ok (.bytes whole), s) ∧
    reply.drop 4 = whole.drop (4 + 16 * first.toNat)

/-- How a service answers when it is asked to list its regions from a slot on. -/
structure Lists (s : Service) (first : UInt8) : Prop where
  /-- It refuses exactly if the store cannot be opened or the slot lies behind the entries. -/
  refused_iff :
    (∃ fault,
      s.handle (.directoryInformation first) = (.error (.refused (.invalidParameter fault)), s)) ↔
    s.store.isReadable = false ∨ s.directory.dirEntries.toNat < first.toNat
  /-- Otherwise it lists the regions from the slot on. -/
  listed : s.store.isReadable = true → first.toNat ≤ s.directory.dirEntries.toNat →
    ∃ reply, s.handle (.directoryInformation first) = (.ok (.bytes reply), s) ∧
      ListsFrom s first (s.directory.dirEntries.toNat - first.toNat) reply

/-- A list is asked for from a slot on, and nothing changes. -/
theorem handle_directoryInformation (s : Service) (first : UInt8) :
    s.handle (.directoryInformation first) =
      (handle.reply .bytes (s.directoryInformation first), s) := rfl

/-- Without a store that can be opened, or from behind the entries, nothing is listed. -/
theorem handle_of_unlisted
    (h : s.store.isReadable = false ∨ s.directory.dirEntries.toNat < first.toNat) :
    ∃ fault, s.handle (.directoryInformation first) =
      (.error (.refused (.invalidParameter fault)), s) := by
  rw [handle_directoryInformation]
  unfold directoryInformation
  by_cases hreadable : s.store.isReadable = true
  · have hbehind : s.directory.dirEntries < first := by
      rw [hreadable] at h
      exact UInt8.lt_iff_toNat_lt.mpr (h.resolve_left Bool.noConfusion)
    rw [if_neg (not_not_intro hreadable), if_pos hbehind]
    exact ⟨_, rfl⟩
  · rw [if_pos hreadable]
    exact ⟨_, rfl⟩

/-- From the entries of a store that can be opened the regions are listed. -/
theorem handle_of_listed (hreadable : s.store.isReadable = true)
    (hfirst : first.toNat ≤ s.directory.dirEntries.toNat) :
    s.handle (.directoryInformation first) = (.ok (.bytes (s.directory.listing first)), s) := by
  have hnot : ¬ s.directory.dirEntries < first := fun hlt =>
    Nat.not_lt.mpr hfirst (UInt8.lt_iff_toNat_lt.mp hlt)
  rw [handle_directoryInformation]
  unfold directoryInformation
  rw [if_neg (not_not_intro hreadable), if_neg hnot]
  rfl

/-- The listing of a settled directory is the one that was asked for. -/
theorem Settled.listsFrom (h : s.Settled) (hreadable : s.store.isReadable = true)
    (hfirst : first.toNat ≤ s.directory.dirEntries.toNat) :
    ListsFrom s first (s.directory.dirEntries.toNat - first.toNat)
      (s.directory.listing first) := by
  have hle := h.directory_settled.entries_le
  have hcount : (s.directory.dirEntries - first).toNat =
      s.directory.dirEntries.toNat - first.toNat :=
    UInt8.toNat_sub_of_le _ _ (UInt8.le_iff_toNat_le.mpr hfirst)
  have hbyte : UInt8.ofNat (s.directory.dirEntries.toNat - first.toNat) =
      s.directory.dirEntries - first := by
    rw [← hcount, UInt8.ofNat_toNat]
  have hlength : (s.directory.ids.drop first.toNat).length =
      s.directory.dirEntries.toNat - first.toNat := by
    rw [List.length_drop, length_ids hle]
  constructor
  case take_eq =>
    rw [listing_eq, hbyte]
    rfl
  case toNat_count => rw [hbyte, hcount]
  case drop_eq =>
    refine ⟨s.directory.ids.drop first.toNat, ?_, hlength, fun k hk => ?_⟩
    · rw [listing_eq]
      rfl
    · have hslot : first.toNat + k < s.directory.dirEntries.toNat := by omega
      let slot : Fin slots := ⟨first.toNat + k, Nat.lt_of_lt_of_le hslot hle⟩
      have hentry : s.directory.entries[slot.val]? = some (s.directory.entry slot) :=
        s.directory.entry?_eq slot
      rw [List.getElem?_drop]
      show s.directory.ids[slot.val]? = s.directory.entries[slot.val]?.map (·.id)
      rw [getElem?_ids _ hslot, hentry]
      rfl
  case length_eq =>
    rw [listing_eq, List.length_append, DataId.length_join, hlength]
    rfl
  case tail_eq =>
    refine ⟨s.directory.listing 0, handle_of_listed hreadable (Nat.zero_le _), ?_⟩
    rw [listing_eq, listing_eq, ← List.drop_drop]
    exact DataId.join_drop _ _

/-- **A service lists what it has**, from any slot on. -/
theorem Settled.lists (h : s.Settled) (first : UInt8) : Lists s first where
  refused_iff := by
    constructor
    · rintro ⟨fault, hrefused⟩
      rcases Bool.eq_false_or_eq_true s.store.isReadable with hreadable | hunreadable
      · refine .inr (Nat.lt_of_not_le fun hfirst => ?_)
        rw [handle_of_listed hreadable hfirst] at hrefused
        cases hrefused
      · exact .inl hunreadable
    · exact handle_of_unlisted
  listed hreadable hfirst :=
    ⟨_, handle_of_listed hreadable hfirst, h.listsFrom hreadable hfirst⟩

/-! ## A listing that is handed on -/

/-- Services that show the same and whose stores can be opened list the same. -/
theorem handle_directoryInformation_congr (h : SameListing s.directory t.directory)
    (hstore : s.store.isReadable = t.store.isReadable) (first : UInt8) :
    (s.handle (.directoryInformation first)).1 = (t.handle (.directoryInformation first)).1 := by
  rw [handle_directoryInformation, handle_directoryInformation]
  unfold directoryInformation
  rw [hstore, listing_eq, listing_eq, h.dirVersion_eq, h.dirEntries_eq, h.ids_eq]

/-- Services that show the same find the same. -/
theorem handle_findIndex_congr (h : SameListing s.directory t.directory) (id : Bytes) :
    (s.handle (.findIndex id)).1 = (t.handle (.findIndex id)).1 := by
  have hfind : s.directory.find? = t.directory.find? := by
    funext id
    rw [find?_eq, find?_eq, h.ids_eq]
  show handle.reply .index (s.findIndex id) = handle.reply .index (t.findIndex id)
  unfold findIndex
  rw [hfind]

/-- The listing of one service is sent to another one as a page, and makes it answer alike. -/
structure HandedOn (s t : Service) (reply : List UInt8) (after : Service) : Prop where
  /-- The reply is the whole listing. -/
  listed : s.handle (.directoryInformation 0) = (.ok (.bytes reply), s)
  /-- The other service takes it over, and that completes the exchange. -/
  taken : t.handle (.sendDirectory (.ofListing reply)) = (.ok (.flag true), after)
  /-- From then on it lists the same. -/
  listing_eq : ∀ first, (after.handle (.directoryInformation first)).1 =
    (s.handle (.directoryInformation first)).1
  /-- From then on it finds the same. -/
  found_eq : ∀ id, (after.handle (.findIndex id)).1 = (s.handle (.findIndex id)).1

/-- **Listing a directory and pushing it are inverse.** A service that can be reached lists what it
has, and any other service with another version takes the listing over and shows the same from then
on. -/
theorem listed_handedOn [Timer] (hs : s.Reachable) :
    (∀ first, Lists s first) ∧
      ∀ t, s.store.isReadable = true → t.store.isReadable = true →
        s.directory.dirVersion ≠ t.directory.dirVersion →
        ∃ reply after, HandedOn s t reply after := by
  have hsettled := hs.settled
  refine ⟨hsettled.lists, fun t hreadable hopen hversion => ?_⟩
  have hdirectory := hsettled.directory_settled
  obtain ⟨hform, hfits⟩ := hdirectory.ofListing
  have happlies : (Page.ofListing (s.directory.listing 0)).Applies t.directory.dirVersion := by
    refine ⟨hform, ?_, hfits⟩
    rw [ofListing_listing]
    exact hversion
  let after : Service := { t with
    directory := t.directory.apply (.ofListing (s.directory.listing 0)) }
  have hsame : SameListing after.directory s.directory :=
    hdirectory.sameListing_apply t.directory
  refine ⟨s.directory.listing 0, after, ?_⟩
  constructor
  case listed => exact handle_of_listed hreadable (Nat.zero_le _)
  case taken =>
    have hlast : (Page.ofListing (s.directory.listing 0)).remaining = 0 := by
      rw [ofListing_listing]
    rw [handle_of_applies happlies, decide_eq_true hlast]
  case listing_eq => exact handle_directoryInformation_congr hsame (hopen.trans hreadable.symm)
  case found_eq => exact handle_findIndex_congr hsame

/-- A service that was sent two identities in two pages hands both on to one that has just begun,
though none of the two has ever loaded a table. -/
theorem listed_handedOn_twoPages :
    let short : Store := .memory (some #[])
    let pages : List Page :=
      [⟨7, 1, 1, 1, Array.replicate 16 0xBB⟩, ⟨7, 0, 2, 0, Array.replicate 32 0xAA⟩]
    let s := (start .delayed 2000 short).run (sending pages)
    let t := start .immediate 0 short
    s.Reachable ∧ s.store.isReadable = true ∧ t.store.isReadable = true ∧
      s.directory.dirVersion ≠ t.directory.dirVersion ∧
      ∃ reply after, HandedOn s t reply after := by
  intro short pages s t
  have hreachable : s.Reachable := ⟨.delayed, 2000, short, sending pages, rfl⟩
  have hversion : s.directory.dirVersion ≠ t.directory.dirVersion := by decide
  obtain ⟨-, hhanded⟩ := listed_handedOn hreachable
  exact ⟨hreachable, rfl, rfl, hversion, hhanded t rfl rfl hversion⟩

end Service

end ManagedRegion
