import ManagedRegion.Proofs.Announcements
import ManagedRegion.Proofs.Listing

/-!
# Identities: what a region is found by

An agent gets an identity from an offer or a listing, asks for the slot of the region that has it,
and then for what is known of that region. The answers fit together: the slot that is found is the
first populated one whose region has the identity, the region in that slot is described under it,
and it stands in the listing at the place of that slot and nowhere before (`Identifies`).

Slots behind the populated ones may still have identities from a larger exchange, and these are
found by nobody. Everything is read off the identities of the populated slots (`Directory.ids`);
that these are as many as the directory says, and at least one, holds of every service that can be
reached (`identities_agree`).
-/

namespace ManagedRegion

open Image Region

/-! ## The first slot with an identity -/

/-- A description holds the identity behind its first byte. -/
theorem Region.Entry.id_information (entry : Entry) :
    (entry.information.drop 1).take 16 = entry.id.toList := by
  have hid : entry.id.toList.length = 16 := Vector.length_toList
  have hbehind : entry.information.drop 1 = entry.id.toList ++ ([entry.validity.toByte] ++
      Bytes.toBigEndian 4 entry.size.toNat ++ [entry.dataVersion.toUInt8] ++
      Bytes.toBigEndian 4 entry.timestamp.toNat) := by
    simp [information]
  rw [hbehind, List.take_left' hid]

namespace Region.Directory

variable {d : Directory} {id : DataId} {k : Nat}

/-- The identity in the place of a slot is that of its entry. -/
theorem getElem_ids (hle : d.dirEntries.toNat ≤ slots) (slot : Fin slots)
    (h : slot.val < d.ids.length) : d.ids[slot.val] = (d.entry slot).id := by
  have hentry : d.ids[slot.val]? = some (d.entry slot).id := d.getElem?_ids (length_ids hle ▸ h)
  rw [List.getElem?_eq_getElem h] at hentry
  exact Option.some.inj hentry

/-- A populated slot whose region has an identity that the regions in front of it have not. -/
structure FirstNamed (d : Directory) (id : Bytes) (slot : Fin slots) : Prop where
  /-- The slot is populated. -/
  populated : slot.val < d.dirEntries.toNat
  /-- Its region has the identity. -/
  id_eq : (d.entry slot).id.toArray = id
  /-- The regions in front of it have others. -/
  id_ne : ∀ other < slot, (d.entry other).id.toArray ≠ id

/-- A search through the identities ends at the first slot with the identity. -/
theorem findIdx?_ids_eq_some_iff (hle : d.dirEntries.toNat ≤ slots) :
    d.ids.findIdx? (· == id) = some k ↔
      ∃ slot : Fin slots, slot.val = k ∧ d.FirstNamed id.toArray slot := by
  have hlength := length_ids hle
  rw [List.findIdx?_eq_some_iff_getElem]
  constructor
  · rintro ⟨hk, hfound, hbefore⟩
    let slot : Fin slots := ⟨k, by omega⟩
    have hid : d.ids[k] = (d.entry slot).id := getElem_ids hle slot hk
    rw [hid, beq_iff_eq] at hfound
    refine ⟨slot, rfl, hlength ▸ hk, congrArg _ hfound, fun other hother hsame => ?_⟩
    have hearlier := hbefore other.val hother
    rw [getElem_ids hle, beq_iff_eq] at hearlier
    exact hearlier (Vector.toArray_inj.mp hsame)
  · rintro ⟨slot, rfl, hpopulated, hid, hbefore⟩
    have hk : slot.val < d.ids.length := hlength ▸ hpopulated
    refine ⟨hk, ?_, fun j hj hsame => ?_⟩
    · rw [getElem_ids hle slot hk, beq_iff_eq]
      exact Vector.toArray_inj.mp hid
    · let other : Fin slots := ⟨j, by omega⟩
      have hother : d.ids[j] = (d.entry other).id :=
        getElem_ids hle other (Nat.lt_trans hj hk)
      rw [hother, beq_iff_eq] at hsame
      exact hbefore other hj (congrArg _ hsame)

/-- The identity at a place of a listing. -/
def idAt (reply : List UInt8) (i : Nat) : List UInt8 :=
  (reply.drop (4 + 16 * i)).take 16

/-- A listing holds the identities of the populated slots at their places. -/
theorem idAt_listing {i : Nat} (h : i < d.ids.length) :
    idAt (d.listing 0) i = d.ids[i].toList := by
  have hbehind : (d.listing 0).drop 4 = DataId.join d.ids := by
    rw [listing_eq]
    rfl
  rw [idAt, ← List.drop_drop, hbehind]
  exact DataId.take_drop_join h

/-- A listing takes sixteen bytes for each identity. -/
theorem length_listing (d : Directory) : (d.listing 0).length = 4 + 16 * d.ids.length := by
  rw [listing_eq, List.length_append, DataId.length_join]
  rfl

/-- An identity that stands among those of the populated slots is found there or before. -/
theorem exists_findIdx?_le {i : Nat} (h : i < d.ids.length) :
    ∃ k ≤ i, d.ids.findIdx? (· == d.ids[i]) = some k := by
  cases hresult : d.ids.findIdx? (· == d.ids[i]) with
  | none =>
    have hnone := List.findIdx?_eq_none_iff.mp hresult _ (List.getElem_mem h)
    exact absurd hnone (by simp)
  | some k =>
    obtain ⟨hk, -, hbefore⟩ := List.findIdx?_eq_some_iff_getElem.mp hresult
    refine ⟨k, Nat.le_of_not_lt fun hlt => ?_, rfl⟩
    exact hbefore i hlt (beq_iff_eq.mpr rfl)

/-- A listing in which an identity stands at a place, and at none before. -/
structure CarriesFirst (reply : List UInt8) (id : Bytes) (k : Nat) : Prop where
  /-- The listing reaches so far. -/
  le_length : 4 + 16 * (k + 1) ≤ reply.length
  /-- The identity stands at the place. -/
  idAt_eq : idAt reply k = id.toList
  /-- Others stand before. -/
  idAt_ne : ∀ j < k, idAt reply j ≠ id.toList

/-- What is found among the identities stands first in the listing. -/
theorem carriesFirst_listing (h : d.ids.findIdx? (· == id) = some k) :
    CarriesFirst (d.listing 0) id.toArray k := by
  obtain ⟨hk, hfound, hbefore⟩ := List.findIdx?_eq_some_iff_getElem.mp h
  refine ⟨?_, ?_, fun j hj hsame => ?_⟩
  · rw [length_listing]
    omega
  · rw [idAt_listing hk, beq_iff_eq.mp hfound]
    rfl
  · rw [idAt_listing (Nat.lt_trans hj hk)] at hsame
    exact hbefore j hj (beq_iff_eq.mpr (Vector.toList_inj.mp hsame))

end Region.Directory

namespace Service

open Directory

variable {s : Service}

/-! ## Lookups -/

/-- A lookup of sixteen bytes searches the identities of the populated slots. -/
theorem handle_findIndex (s : Service) (id : DataId) :
    (s.handle (.findIndex id.toArray)).1 =
      match s.directory.ids.findIdx? (· == id) with
      | some slot => .ok (.index slot)
      | none => .error (.refused .invalidId) := by
  have hid : DataId.ofBytes? id.toArray = some id := dif_pos id.size_toArray
  show handle.reply .index (s.findIndex id.toArray) = _
  rw [findIndex, hid, Option.bind_some, find?_eq]
  cases s.directory.ids.findIdx? (· == id) <;> rfl

/-- Other than sixteen bytes are no identity. -/
theorem handle_findIndex_of_size_ne {id : Bytes} (h : id.size ≠ 16) :
    (s.handle (.findIndex id)).1 = .error (.refused .invalidId) := by
  have hid : DataId.ofBytes? id = none := dif_neg h
  show handle.reply .index (s.findIndex id) = _
  rw [findIndex, hid]
  rfl

/-- A slot is found exactly if a search for the sixteen bytes among the identities ends there. -/
theorem handle_findIndex_eq_ok_iff {id : Bytes} {k : Nat} :
    (s.handle (.findIndex id)).1 = .ok (.index k) ↔
      ∃ x : DataId, x.toArray = id ∧ s.directory.ids.findIdx? (· == x) = some k := by
  constructor
  · intro hfound
    by_cases hsize : id.size = 16
    · let x : DataId := ⟨id, hsize⟩
      have hsearch := handle_findIndex s x
      refine ⟨x, rfl, ?_⟩
      cases hresult : s.directory.ids.findIdx? (· == x) with
      | none =>
        rw [hresult] at hsearch
        cases hfound.symm.trans hsearch
      | some slot =>
        rw [hresult] at hsearch
        cases hfound.symm.trans hsearch
        rfl
    · rw [handle_findIndex_of_size_ne hsize] at hfound
      cases hfound
  · rintro ⟨x, rfl, hresult⟩
    rw [handle_findIndex, hresult]

/-- A lookup finds a slot or says that there is no such identity. -/
theorem handle_findIndex_cases (s : Service) (id : Bytes) :
    (∃ k, (s.handle (.findIndex id)).1 = .ok (.index k)) ∨
      (s.handle (.findIndex id)).1 = .error (.refused .invalidId) := by
  by_cases hsize : id.size = 16
  · let x : DataId := ⟨id, hsize⟩
    have hsearch := handle_findIndex s x
    cases hresult : s.directory.ids.findIdx? (· == x) with
    | none =>
      rw [hresult] at hsearch
      exact .inr hsearch
    | some slot => exact .inl ⟨slot, handle_findIndex_eq_ok_iff.mpr ⟨x, rfl, hresult⟩⟩
  · exact .inr (handle_findIndex_of_size_ne hsize)

/-- What is listed from the first slot on is the listing of the directory. -/
theorem eq_listing_of_handle {reply : List UInt8}
    (h : (s.handle (.directoryInformation 0)).1 = .ok (.bytes reply)) :
    reply = s.directory.listing 0 := by
  by_cases hreadable : s.store.isReadable = true
  · rw [handle_of_listed hreadable (Nat.zero_le _)] at h
    cases h
    rfl
  · have hunreadable : s.store.isReadable = false := Bool.eq_false_iff.mpr hreadable
    obtain ⟨fault, hrefused⟩ := handle_of_unlisted (.inl hunreadable)
    rw [hrefused] at h
    cases h

/-- In a settled service, a slot is found exactly if it is the first populated one with the
identity. -/
theorem Settled.handle_findIndex_iff (h : s.Settled) (id : Bytes) (k : Nat) :
    (s.handle (.findIndex id)).1 = .ok (.index k) ↔
      id.size = 16 ∧ ∃ slot : Fin slots, slot.val = k ∧ s.directory.FirstNamed id slot := by
  have hle := h.directory_settled.entries_le
  rw [handle_findIndex_eq_ok_iff]
  constructor
  · rintro ⟨x, rfl, hresult⟩
    exact ⟨x.size_toArray, (findIdx?_ids_eq_some_iff hle).mp hresult⟩
  · rintro ⟨hsize, hfirst⟩
    exact ⟨⟨id, hsize⟩, rfl, (findIdx?_ids_eq_some_iff hle).mpr hfirst⟩

/-- The region in a slot is described under its identity. -/
theorem handle_dataInformation_of_firstNamed {id : Bytes} {slot : Fin slots}
    (h : s.directory.FirstNamed id slot) :
    ∃ reply, s.handle (.dataInformation (UInt8.ofNat slot.val)) = (.ok (.bytes reply), s) ∧
      (reply.drop 1).take 16 = id.toList := by
  have hindex : slot.val = (UInt8.ofNat slot.val).toNat :=
    (UInt8.toNat_ofNat_of_lt (Nat.lt_trans slot.isLt (by decide))).symm
  refine ⟨_, s.handle_dataInformation_of_eq hindex, ?_⟩
  rw [← h.id_eq]
  exact Entry.id_information _

/-- Each identity in a listing is found at its first place there. -/
theorem handle_findIndex_idAt {i : Nat} (hi : 4 + 16 * (i + 1) ≤ (s.directory.listing 0).length) :
    ∃ k ≤ i, (s.handle (.findIndex (idAt (s.directory.listing 0) i).toArray)).1 =
        .ok (.index k) ∧
      CarriesFirst (s.directory.listing 0) (idAt (s.directory.listing 0) i).toArray k := by
  have hlt : i < s.directory.ids.length := by
    rw [length_listing] at hi
    omega
  obtain ⟨k, hk, hresult⟩ := exists_findIdx?_le hlt
  have hid : (idAt (s.directory.listing 0) i).toArray = s.directory.ids[i].toArray := by
    rw [idAt_listing hlt]
    rfl
  rw [hid]
  exact ⟨k, hk, handle_findIndex_eq_ok_iff.mpr ⟨_, rfl, hresult⟩, carriesFirst_listing hresult⟩

/-- The structure table's region is the first one with its identity. -/
theorem Settled.firstNamed_tableSlot (h : s.Settled) :
    s.directory.FirstNamed s.directory.tableEntry.id.toArray tableSlot :=
  ⟨h.directory_settled.entries_pos, rfl, fun _ hother => absurd hother (Nat.not_lt_zero _)⟩

/-! ## How the answers fit together -/

/-- How the answers about identities fit together. -/
structure Identifies (s : Service) : Prop where
  /-- A slot is found exactly if it is the first populated one with the identity. -/
  found_iff : ∀ id k, (s.handle (.findIndex id)).1 = .ok (.index k) ↔
    id.size = 16 ∧ ∃ slot : Fin slots, slot.val = k ∧ s.directory.FirstNamed id slot
  /-- There is no other answer but that there is no such identity. -/
  refused_iff : ∀ id, (s.handle (.findIndex id)).1 = .error (.refused .invalidId) ↔
    ∀ k, (s.handle (.findIndex id)).1 ≠ .ok (.index k)
  /-- The slot that is found is one of the four. -/
  found_lt : ∀ id k, (s.handle (.findIndex id)).1 = .ok (.index k) → k < 4
  /-- Its region is described under the identity. -/
  described : ∀ id k, (s.handle (.findIndex id)).1 = .ok (.index k) →
    ∃ reply, s.handle (.dataInformation (UInt8.ofNat k)) = (.ok (.bytes reply), s) ∧
      (reply.drop 1).take 16 = id.toList
  /-- A listing holds the identity at the place of the slot, and not before. -/
  listed : ∀ id k, (s.handle (.findIndex id)).1 = .ok (.index k) → s.store.isReadable = true →
    ∃ reply, s.handle (.directoryInformation 0) = (.ok (.bytes reply), s) ∧
      CarriesFirst reply id k
  /-- Each identity in a listing is found at its first place there. -/
  found_of_listed : ∀ reply, (s.handle (.directoryInformation 0)).1 = .ok (.bytes reply) →
    ∀ i, 4 + 16 * (i + 1) ≤ reply.length →
      ∃ k ≤ i, (s.handle (.findIndex (idAt reply i).toArray)).1 = .ok (.index k) ∧
        CarriesFirst reply (idAt reply i).toArray k
  /-- An identity is offered. -/
  offered : ∃ id, (s.handle .dataOffer).1 = .ok (.bytes id)
  /-- The identity that is offered is found in the first slot. -/
  found_of_offered : ∀ id, (s.handle .dataOffer).1 = .ok (.bytes id) →
    (s.handle (.findIndex id.toArray)).1 = .ok (.index 0)

/-- **Identities are looked up alike by all requests**, in every state that a service can reach. -/
theorem identities_agree [Timer] (h : s.Reachable) : Identifies s := by
  have hsettled := h.settled
  have hoffer := hsettled.regular.dataOffer_eq
  constructor
  case found_iff => exact hsettled.handle_findIndex_iff
  case refused_iff =>
    intro id
    refine ⟨fun hrefused k hfound => ?_, fun hnone => ?_⟩
    · cases hrefused.symm.trans hfound
    · exact (handle_findIndex_cases s id).resolve_left fun ⟨k, hfound⟩ => hnone k hfound
  case found_lt =>
    intro id k hfound
    obtain ⟨-, slot, rfl, -⟩ := (hsettled.handle_findIndex_iff id k).mp hfound
    exact slot.isLt
  case described =>
    intro id k hfound
    obtain ⟨-, slot, rfl, hfirst⟩ := (hsettled.handle_findIndex_iff id k).mp hfound
    exact handle_dataInformation_of_firstNamed hfirst
  case listed =>
    intro id k hfound hreadable
    obtain ⟨x, rfl, hresult⟩ := handle_findIndex_eq_ok_iff.mp hfound
    exact ⟨_, handle_of_listed hreadable (Nat.zero_le _), carriesFirst_listing hresult⟩
  case found_of_listed =>
    intro reply hlisted i hi
    obtain rfl := eq_listing_of_handle hlisted
    exact handle_findIndex_idAt hi
  case offered => exact ⟨_, hoffer⟩
  case found_of_offered =>
    intro id hoffered
    cases hoffered.symm.trans hoffer
    exact (hsettled.handle_findIndex_iff _ 0).mpr
      ⟨s.directory.tableEntry.id.size_toArray, tableSlot, rfl, hsettled.firstNamed_tableSlot⟩

/-- Of four regions that were sent, the second and third one with the same identity, a later page
leaves only the first two populated: the identity is found in the second slot, and that of the
fourth one is found no more though the slot still has it. -/
theorem identities_agree_leftOver :
    let s := (start .immediate 0 (.memory (some #[]))).run (sending
      [⟨7, 0, 4, 1, Array.replicate 16 0xAA ++ Array.replicate 32 0xBB ++ Array.replicate 16 0xCC⟩,
        ⟨7, 0, 2, 0, Array.replicate 16 0xAA ++ Array.replicate 16 0xBB⟩])
    s.Reachable ∧
      (s.handle (.findIndex (Array.replicate 16 0xBB))).1 = .ok (.index 1) ∧
      (s.handle (.findIndex (Array.replicate 16 0xCC))).1 = .error (.refused .invalidId) ∧
      (s.directory.entry 3).id.toArray = Array.replicate 16 0xCC := by
  intro s
  have hreachable : s.Reachable := ⟨.immediate, 0, .memory (some #[]), _, rfl⟩
  have hidentifies := identities_agree hreachable
  have hfirst : s.directory.FirstNamed (Array.replicate 16 0xBB) 1 :=
    ⟨by decide, by decide, by decide⟩
  have hnone : ∀ slot : Fin slots, slot.val < s.directory.dirEntries.toNat →
      (s.directory.entry slot).id.toArray ≠ Array.replicate 16 0xCC := by decide
  refine ⟨hreachable, ?_, ?_, by decide⟩
  · exact (hidentifies.found_iff _ 1).mpr ⟨by decide, 1, rfl, hfirst⟩
  · refine (hidentifies.refused_iff _).mpr fun k hfound => ?_
    obtain ⟨-, slot, -, hpopulated, hid, -⟩ := (hidentifies.found_iff _ k).mp hfound
    exact hnone slot hpopulated hid

end Service

end ManagedRegion
