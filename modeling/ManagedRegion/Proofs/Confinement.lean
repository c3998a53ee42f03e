import ManagedRegion.Proofs.Table
import ManagedRegion.Proofs.Views
import ManagedRegion.Proofs.Walk
import ManagedRegion.Smbios.Inventory

/-!
# Confinement: bytes that no search sees

A walk that stops at a header which begins no structure looks at no byte behind that header. In every
buffer that agrees up to there it goes the same way (`StopsAt.of_agree`) and its structures look the
same one by one (`lookAlike_walkFrom`).

The searches, listings, counts and summaries see nothing of a buffer but the views on its walk. They
are put together from `take`, `filter`, `find?` and the like, and `LookAlike` is kept by each of
these. So they all answer alike where the walks look alike (`LookAlike.searchAlike`,
`LookAlike.summaryAlike`). Together with what holds of one structure this is
**`unread_bytes_invisible`**.
-/

namespace ManagedRegion.Smbios

open Bytes

variable {buf other : Bytes} {start stop offset after : Nat}

/-! ## The walk -/

/-- From `start` on the walk comes to `stop`: the structures on the way end where the next one
begins, and the last one at `stop`. -/
inductive WalkReaches (buf : Bytes) (stop : Nat) : (start : Nat) → Prop where
  /-- The walk is there. -/
  | here : WalkReaches buf stop stop
  /-- The walk goes on behind the structure at its start. -/
  | step {start after : Nat} {header : Header} (hheader : headerAt? buf start = some header)
    (hnext : next? buf start = some after) (hrest : WalkReaches buf stop after) :
    WalkReaches buf stop start

/-- The walk of the buffer comes to a header that begins no structure. -/
structure StopsAt (buf : Bytes) (stop : Nat) : Prop where
  /-- The walk comes there. -/
  reaches : WalkReaches buf stop 0
  /-- There is room for a header. -/
  inside : stop + 4 ≤ buf.size
  /-- It marks the end, or declares no room for itself. -/
  headerAt?_eq : headerAt? buf stop = none

/-- The walk does not come back. -/
theorem WalkReaches.le (h : WalkReaches buf stop start) : start ≤ stop := by
  induction h with
  | here => exact Nat.le_refl _
  | step _ hnext _ ih =>
    have hbounds := next?_bounds hnext
    omega

/-- A walk goes the same way in every buffer that agrees up to where it comes. -/
theorem WalkReaches.of_agree (hreach : WalkReaches buf stop start)
    (h : AgreeBelow buf other stop) : WalkReaches other stop start := by
  induction hreach with
  | here => exact .here
  | step hheader hnext hrest ih =>
    rename_i start after header
    have hend : AgreeBelow buf other after := h.mono hrest.le
    have hinside := add_four_le_of_next? hheader hnext
    have hother : headerAt? other start = some header := by
      rw [headerAt?_eq_of_agree (hend.mono hinside)]
      exact hheader
    exact .step hother (next?_eq_of_agree hnext hend) ih

/-- So it stops where no structure begins in the other buffer either. -/
theorem StopsAt.of_agree (hstops : StopsAt buf stop) (h : AgreeBelow buf other (stop + 4)) :
    StopsAt other stop where
  reaches := hstops.reaches.of_agree (h.mono (Nat.le_add_right _ _))
  inside := (h.le_size_iff (Nat.le_refl _)).mpr hstops.inside
  headerAt?_eq := by
    rw [headerAt?_eq_of_agree h]
    exact hstops.headerAt?_eq

/-- Two lists of structures, of one buffer each, look the same. -/
def LookAlike (others those : List Structure) : Prop :=
  others.map Structure.view = those.map Structure.view

/-- No structure begins where no header does. -/
theorem structureAt?_of_none (h : headerAt? buf offset = none) :
    structureAt? buf offset = none := by
  rw [← Option.not_isSome_iff_eq_none, isSome_structureAt?, h]
  exact Bool.false_ne_true

/-- **A walk that comes to a header which begins no structure looks the same in every buffer that
agrees up to there.** -/
theorem lookAlike_walkFrom (hreach : WalkReaches buf stop start)
    (hnone : headerAt? buf stop = none) (h : AgreeBelow buf other (stop + 4)) :
    LookAlike (walkFrom other start) (walkFrom buf start) := by
  induction hreach with
  | here =>
    have hother : headerAt? other stop = none := by
      rw [headerAt?_eq_of_agree h]
      exact hnone
    rw [walkFrom_of_none (structureAt?_of_none hnone),
      walkFrom_of_none (structureAt?_of_none hother)]
    rfl
  | step hheader hnext hrest ih =>
    rename_i start after header
    have hagree : AgreeBelow buf other after := h.mono (Nat.le_add_right_of_le hrest.le)
    let s : Structure := ⟨buf, start, header, hheader⟩
    obtain ⟨t, ht, hview⟩ := view_eq_of_agree (s := s) hnext hagree
    rw [walkFrom_of_some (structureAt?_self s), walkBehind_of_some hnext, walkFrom_of_some ht,
      walkBehind_of_some (next?_eq_of_agree hnext hagree), LookAlike, List.map_cons, List.map_cons,
      hview, ih]

/-! ## Lists that look the same -/

namespace LookAlike

variable {others those : List Structure}

/-- So do their beginnings. -/
theorem take (h : LookAlike others those) (n : Nat) : LookAlike (others.take n) (those.take n) := by
  rw [LookAlike, List.map_take, List.map_take, h]

/-- So do the structures that are told apart by what can be read of them. -/
theorem filter (h : LookAlike others those) (wanted : View → Bool) :
    LookAlike (others.filter fun s => wanted s.view) (those.filter fun s => wanted s.view) := by
  have hfilter (structures : List Structure) :
      (structures.filter fun s => wanted s.view).map Structure.view =
        (structures.map Structure.view).filter wanted := List.filter_map.symm
  rw [LookAlike, hfilter, hfilter, h]

/-- So do the structures in the same place. -/
theorem getElem? (h : LookAlike others those) (n : Nat) :
    others[n]?.map Structure.view = those[n]?.map Structure.view := by
  rw [← List.getElem?_map, ← List.getElem?_map, h]

/-- So do the first structures of a kind. -/
theorem find? (h : LookAlike others those) (wanted : View → Bool) :
    (others.find? fun s => wanted s.view).map Structure.view =
      (those.find? fun s => wanted s.view).map Structure.view := by
  have hfind (structures : List Structure) :
      (structures.find? fun s => wanted s.view).map Structure.view =
        (structures.map Structure.view).find? wanted := List.find?_map.symm
  rw [hfind, hfind, h]

/-- There are as many structures of a kind. -/
theorem countP_eq (h : LookAlike others those) (wanted : View → Bool) :
    (others.countP fun s => wanted s.view) = those.countP fun s => wanted s.view := by
  have hcount (structures : List Structure) :
      (structures.countP fun s => wanted s.view) =
        (structures.map Structure.view).countP wanted := List.countP_map.symm
  rw [hcount, hcount, h]

/-- What is read of each of them is the same. -/
theorem filterMap_eq {α : Type} (h : LookAlike others those) (read : View → Option α) :
    (others.filterMap fun s => read s.view) = those.filterMap fun s => read s.view := by
  have hread (structures : List Structure) :
      (structures.filterMap fun s => read s.view) =
        (structures.map Structure.view).filterMap read := List.filterMap_map.symm
  rw [hread, hread, h]

/-- What each of them says is the same. -/
theorem map_eq {α : Type} (h : LookAlike others those) (read : View → α) :
    (others.map fun s => read s.view) = those.map fun s => read s.view := by
  have hread (structures : List Structure) :
      (structures.map fun s => read s.view) = (structures.map Structure.view).map read :=
    List.map_map.symm
  rw [hread, hread, h]

end LookAlike

/-! ## Searches and summaries -/

/-- Every search of a buffer from its front finds in the other buffer what looks the same. -/
structure SearchAlike (buf other : Bytes) : Prop where
  /-- The listing. -/
  structures_alike : LookAlike (structures other) (structures buf)
  /-- The first structure of a type that is long enough. -/
  first_alike : ∀ type minLength, (firstOfType? other 0 type minLength).map Structure.view =
    (firstOfType? buf 0 type minLength).map Structure.view
  /-- The structure at a position among those of a type. -/
  nth_alike : ∀ type n, (nthOfType? other type n).map Structure.view =
    (nthOfType? buf type n).map Structure.view
  /-- The structure with a handle. -/
  handle_alike : ∀ handle, (byHandle? other handle).map Structure.view =
    (byHandle? buf handle).map Structure.view
  /-- The number of structures of a type that are long enough. -/
  count_eq : ∀ type minLength, countOfType other type minLength = countOfType buf type minLength

/-- The records of a table look the same in the other table, and so do the summaries. -/
structure SummaryAlike (table other : Table) : Prop where
  /-- The structures of a type that are long enough. -/
  records_alike : ∀ type minLength, LookAlike (recordsOfType other.bytes type minLength)
    (recordsOfType table.bytes type minLength)
  /-- The memory devices. -/
  devices_eq : MemoryDevice.collect other = MemoryDevice.collect table
  /-- The inventory. -/
  inventory_eq : Inventory.collect other = Inventory.collect table

/-- The searches see nothing but the walk. -/
theorem LookAlike.searchAlike (h : LookAlike (walk other) (walk buf)) : SearchAlike buf other where
  structures_alike := by
    rw [structures_eq_take, structures_eq_take]
    exact h.take 255
  first_alike type minLength := by
    rw [firstOfType?, firstOfType?, first?_eq_find?, first?_eq_find?]
    exact h.find? fun v => v.header.isOfType type minLength
  nth_alike type n := by
    rw [nthOfType?_eq, nthOfType?_eq]
    split
    · exact (h.filter fun v => v.header.type = type).getElem? n
    · rfl
  handle_alike handle := by
    rw [byHandle?, byHandle?, structures_eq_take, structures_eq_take]
    exact (h.take 255).find? fun v => v.header.handle == handle
  count_eq type minLength := by
    rw [countOfType_eq, countOfType_eq]
    exact congrArg (min 255)
      (h.countP_eq fun v => v.header.type = type ∧ minLength ≤ v.header.length)

/-- The text that a field of a structure refers to can be read of the structure. -/
theorem textOf_congr {found other : Option Structure}
    (h : other.map Structure.view = found.map Structure.view) (field : Nat) :
    Inventory.textOf other field = Inventory.textOf found field := by
  have htext (s : Option Structure) :
      Inventory.textOf s field = ((s.map Structure.view).map (View.stringAt · field)).getD "" := by
    cases s <;> rfl
  rw [htext, htext, h]

/-- Nor do the records and summaries of a table. -/
theorem LookAlike.summaryAlike {table other : Table}
    (h : LookAlike (walk other.bytes) (walk table.bytes)) : SummaryAlike table other := by
  have hsearch := h.searchAlike
  have hrecords (type minLength : UInt8) : LookAlike (recordsOfType other.bytes type minLength)
      (recordsOfType table.bytes type minLength) := by
    rw [recordsOfType_eq, recordsOfType_eq]
    exact (h.filter fun v => v.header.type = type ∧ minLength ≤ v.header.length).take 255
  have htype (type : UInt8) : LookAlike (structuresOfType other.bytes type)
      (structuresOfType table.bytes type) :=
    hsearch.structures_alike.filter fun v => v.header.type == type
  refine ⟨hrecords, (hrecords _ _).filterMap_eq View.device?, ?_⟩
  have hbios := hsearch.first_alike Inventory.biosType 0
  have hsystem := hsearch.first_alike Inventory.systemType 0
  have hslots := (htype Inventory.slotType).countP_eq fun v => (v.byte? 5).any Inventory.isPcieSlot
  have hfirmware := (htype Inventory.firmwareType).map_eq fun v =>
    (⟨v.stringAt 4, v.stringAt 5⟩ : FirmwareComponent)
  rw [Inventory.collect, Inventory.collect]
  simp only [textOf_congr hbios, textOf_congr hsystem, hsearch.count_eq]
  congr 1

/-- **Bytes behind the end of a structure, and bytes behind the end of the walk, cannot be seen.** In
a buffer that agrees up to the end of a structure, a structure begins and ends where that one does,
and all that can be read of it is the same. In a buffer that agrees up to a header at which the walk
stops, every search looks the same; and so do the records and summaries of a table. -/
theorem unread_bytes_invisible :
    (∀ (s : Structure) (other : Bytes) (after : Nat), next? s.buffer s.offset = some after →
      AgreeBelow s.buffer other after →
      next? other s.offset = some after ∧
        ∃ t, structureAt? other s.offset = some t ∧ t.view = s.view) ∧
    (∀ (buf other : Bytes) (stop : Nat), StopsAt buf stop → AgreeBelow buf other (stop + 4) →
      SearchAlike buf other) ∧
    ∀ (table other : Table) (stop : Nat), StopsAt table.bytes stop →
      AgreeBelow table.bytes other.bytes (stop + 4) → SummaryAlike table other := by
  refine ⟨?_, ?_, ?_⟩
  · intro s other after hnext hagree
    exact ⟨next?_eq_of_agree hnext hagree, view_eq_of_agree hnext hagree⟩
  · intro buf other stop hstops hagree
    have hwalk := lookAlike_walkFrom hstops.reaches hstops.headerAt?_eq hagree
    exact LookAlike.searchAlike hwalk
  · intro table other stop hstops hagree
    have hwalk := lookAlike_walkFrom hstops.reaches hstops.headerAt?_eq hagree
    exact LookAlike.summaryAlike hwalk

/-- A structure with one text, then an end marker. -/
def endedBuffer : Bytes :=
  #[1, 5, 7, 0, 1, 0x41, 0, 0, 0, 0, 0, 0]

/-- The same with another structure behind the end marker. -/
def continuedBuffer : Bytes :=
  endedBuffer ++ #[17, 4, 8, 0, 0, 0]

/-- A structure behind the end marker is seen neither in the buffer nor in a table, nor by the
structure in front of the end marker. -/
theorem unread_bytes_invisible_endMarker :
    StopsAt endedBuffer 8 ∧ AgreeBelow endedBuffer continuedBuffer 12 ∧
    SearchAlike endedBuffer continuedBuffer ∧
    StopsAt (Table.ofBytes endedBuffer).bytes 8 ∧
    AgreeBelow (Table.ofBytes endedBuffer).bytes (Table.ofBytes continuedBuffer).bytes 12 ∧
    SummaryAlike (Table.ofBytes endedBuffer) (Table.ofBytes continuedBuffer) ∧
    ∃ s t, structureAt? endedBuffer 0 = some s ∧ next? s.buffer s.offset = some 8 ∧
      structureAt? continuedBuffer 0 = some t ∧ t.view = s.view := by
  have hheader : headerAt? endedBuffer 0 = some ⟨1, 5, 7⟩ := by decide +kernel
  have hnext : next? endedBuffer 0 = some 8 := by decide +kernel
  have hstops : StopsAt endedBuffer 8 :=
    ⟨.step hheader hnext .here, by decide, by decide +kernel⟩
  have hagree : AgreeBelow endedBuffer continuedBuffer 12 := by
    intro i hi
    exact Array.getElem?_append_left hi
  have htable : StopsAt (Table.ofBytes endedBuffer).bytes 8 :=
    hstops.of_agree (Table.agreeBelow_ofBytes (by decide))
  have htables := Table.agreeBelow_ofBytes_of_agree hagree
  obtain ⟨hview, hsearch, hsummary⟩ := unread_bytes_invisible
  let s : Structure := ⟨endedBuffer, 0, ⟨1, 5, 7⟩, hheader⟩
  obtain ⟨-, t, ht, heq⟩ := hview s continuedBuffer 8 hnext (hagree.mono (by decide))
  exact ⟨hstops, hagree, hsearch _ _ 8 hstops hagree, htable, htables,
    hsummary _ _ 8 htable htables, s, t, structureAt?_self s, hnext, ht, heq⟩

end ManagedRegion.Smbios
