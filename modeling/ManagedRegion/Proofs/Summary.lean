import ManagedRegion.Proofs.DeviceLayout
import ManagedRegion.Smbios.Inventory

/-!
# Summary: the structures that a summary is taken over

The listing of a table stops behind 255 structures of the walk. Of a summary only the slots and the
firmware components are read off the listing. A count stops behind 255 structures of its type, and
the first structure of a type is looked for without a limit, so both may take in structures that the
listing does not reach (`unlisted`).

**`collect_eq_ofListing_iff`** gives the figures of every table and says when all of them are those
of the listing, `ofListing (structures t.bytes)`. It comes down to two facts about a list and its
first elements: when a count that is cut off is the count of the first elements
(`min_countP_eq_countP_take_iff`), and when the first match has the text of the first match among
them (`textOf_find?_eq_iff`).

A summary only depends on a few aspects of each structure, and those of a written structure are the
ones that were written (`map_aspect_walk`). So the figures of a written table are computed from its
contents; `collect_crowdedTable` does it for a table on which eight figures are not those of the
listing.
-/

namespace ManagedRegion.Smbios

/-! ## A list and its first elements -/

/-- A count that is cut off at a limit is the count among that many first elements exactly if
nothing is counted behind them or everything is counted among them. -/
theorem min_countP_eq_countP_take_iff {α : Type} (p : α → Bool) (limit : Nat) (l : List α) :
    min limit (l.countP p) = (l.take limit).countP p ↔
      (∀ a ∈ l.drop limit, ¬p a = true) ∨ ∀ a ∈ l.take limit, p a = true := by
  have hsplit : l.countP p = (l.take limit).countP p + (l.drop limit).countP p := by
    rw [← List.countP_append, List.take_append_drop]
  have hfront : (l.take limit).countP p ≤ (l.take limit).length := List.countP_le_length
  have hback : (l.drop limit).countP p ≤ (l.drop limit).length := List.countP_le_length
  rw [List.length_take] at hfront
  rw [List.length_drop] at hback
  rw [← List.countP_eq_zero, ← List.countP_eq_length, List.length_take, hsplit]
  omega

namespace Inventory

variable {t : Table} {s : Structure} {c : StructureContent} {offset : Nat}

/-- The first match has the text of the first match among so many first elements exactly if there is
a match among them or the first match behind them has no text. -/
theorem textOf_find?_eq_iff (p : Structure → Bool) (limit : Nat) (l : List Structure)
    (field : Nat) :
    textOf (l.find? p) field = textOf ((l.take limit).find? p) field ↔
      (∃ s ∈ l.take limit, p s = true) ∨
        ∀ s, (l.drop limit).find? p = some s → s.stringAt field = "" := by
  have hsplit : l.find? p = ((l.take limit).find? p).or ((l.drop limit).find? p) := by
    rw [← List.find?_append, List.take_append_drop]
  rw [hsplit]
  cases hfront : (l.take limit).find? p with
  | some first =>
    have hmatch : ∃ s ∈ l.take limit, p s = true :=
      ⟨first, List.mem_of_find?_eq_some hfront, List.find?_some hfront⟩
    rw [Option.some_or]
    exact iff_of_true rfl (Or.inl hmatch)
  | none =>
    have hnone : ¬∃ s ∈ l.take limit, p s = true := by
      rintro ⟨s, hs, hwanted⟩
      exact List.find?_eq_none.mp hfront s hs hwanted
    rw [Option.none_or, or_iff_right hnone]
    cases (l.drop limit).find? p with
    | none => simp
    | some behind => simp [textOf]

/-! ## The summary of a listing -/

/-- The summary of a listing: every figure is taken over the structures of the listing. -/
def ofListing (listing : List Structure) : Inventory :=
  let bios := listing.find? fun s => s.type = 0
  let system := listing.find? fun s => s.type = 1
  { biosVendor := textOf bios 4
    biosVersion := textOf bios 5
    systemManufacturer := textOf system 4
    systemProduct := textOf system 5
    baseboards := listing.countP fun s => s.type = 2
    processors := listing.countP fun s => s.type = 4
    memoryDevices := listing.countP fun s => s.type = 17
    pcieSlots := (listing.filter fun s => s.type = 9).countP hasPcieSlot
    tpmDevices := listing.countP fun s => s.type = 43
    firmware := (listing.filter fun s => s.type = 45).map fun s =>
      ⟨s.stringAt 4, s.stringAt 5⟩ }

/-- The summary of a walk: its counts go through the whole walk until they reach 255 and its texts
are those of the first structures on it, but its slots and firmware components are those of the
listing. -/
def ofWalk (walked : List Structure) : Inventory :=
  let whole := ofListing walked
  let listing := ofListing (walked.take 255)
  { whole with
    baseboards := min 255 whole.baseboards
    processors := min 255 whole.processors
    memoryDevices := min 255 whole.memoryDevices
    pcieSlots := listing.pcieSlots
    tpmDevices := min 255 whole.tpmDevices
    firmware := listing.firmware }

/-- **The summary of a table is that of its walk.** -/
theorem collect_eq_ofWalk (t : Table) : collect t = ofWalk (walk t.bytes) := by
  rw [collect]
  simp only [firstOfType?_zero_eq_find?, countOfType_zero_eq_min, structuresOfType,
    structures_eq_take]
  rfl

/-- The summary of a walk is that of the listing exactly if their counts and their texts agree. -/
theorem ofWalk_eq_ofListing_iff (walked : List Structure) :
    ofWalk walked = ofListing (walked.take 255) ↔
      (∀ type ∈ ([2, 4, 17, 43] : List UInt8),
        min 255 (walked.countP fun s => s.type = type) =
          (walked.take 255).countP fun s => s.type = type) ∧
      ∀ type ∈ ([0, 1] : List UInt8), ∀ field ∈ [4, 5],
        textOf (walked.find? fun s => s.type = type) field =
          textOf ((walked.take 255).find? fun s => s.type = type) field := by
  simp only [ofWalk, ofListing, Inventory.mk.injEq, List.forall_mem_cons, List.not_mem_nil,
    false_implies, implies_true, and_true, true_and]
  constructor
  · rintro ⟨hvendor, hversion, hmanufacturer, hproduct, hcounts⟩
    exact ⟨hcounts, ⟨hvendor, hversion⟩, hmanufacturer, hproduct⟩
  · rintro ⟨hcounts, ⟨hvendor, hversion⟩, hmanufacturer, hproduct⟩
    exact ⟨hvendor, hversion, hmanufacturer, hproduct, hcounts⟩

/-! ## The summary of what was written -/

/-- What a summary reads of a structure. -/
structure Aspect where
  /-- Its type. -/
  type : UInt8
  /-- Whether it carries the code of a PCI Express slot. -/
  isPcieSlot : Bool
  /-- The text at offset 4. -/
  first : String
  /-- The text at offset 5. -/
  second : String
  deriving DecidableEq

/-- What a summary reads of a structure of a table. -/
def aspect (s : Structure) : Aspect :=
  ⟨s.type, hasPcieSlot s, s.stringAt 4, s.stringAt 5⟩

/-- The summary of structures of which no more is known than it reads. -/
def ofAspects (aspects : List Aspect) : Inventory :=
  let bios := aspects.find? fun a => a.type = 0
  let system := aspects.find? fun a => a.type = 1
  { biosVendor := (bios.map Aspect.first).getD ""
    biosVersion := (bios.map Aspect.second).getD ""
    systemManufacturer := (system.map Aspect.first).getD ""
    systemProduct := (system.map Aspect.second).getD ""
    baseboards := aspects.countP fun a => a.type = 2
    processors := aspects.countP fun a => a.type = 4
    memoryDevices := aspects.countP fun a => a.type = 17
    pcieSlots := (aspects.filter fun a => a.type = 9).countP Aspect.isPcieSlot
    tpmDevices := aspects.countP fun a => a.type = 43
    firmware := (aspects.filter fun a => a.type = 45).map fun a => ⟨a.first, a.second⟩ }

/-- A summary reads no more of a structure than its aspects. -/
theorem ofListing_eq_ofAspects (listing : List Structure) :
    ofListing listing = ofAspects (listing.map aspect) := by
  have htext (found : Option Structure) :
      textOf found 4 = ((found.map aspect).map Aspect.first).getD "" ∧
        textOf found 5 = ((found.map aspect).map Aspect.second).getD "" := by
    cases found with
    | none => exact ⟨rfl, rfl⟩
    | some s => exact ⟨rfl, rfl⟩
  simp only [ofListing, ofAspects, List.find?_map, List.countP_map, List.filter_map, List.map_map,
    (htext _).1, (htext _).2]
  rfl

/-- The text of a written structure whose number stands at `field`, empty if its formatted area does
not reach there. -/
def textAt (c : StructureContent) (field : Nat) : String :=
  c.encodeFormatted[field]?.elim "" (MemoryDevice.selected c.texts)

/-- What a summary reads of a structure that was written. -/
def writtenAspect (c : StructureContent) : Aspect :=
  ⟨c.type, c.encodeFormatted[5]?.any isPcieSlot, textAt c 4, textAt c 5⟩

/-- A summary reads of a structure what was written. -/
theorem aspect_of_shows (h : s.Shows offset c) : aspect s = writtenAspect c := by
  have hbyte (field : Nat) : s.byte? field = c.encodeFormatted[field]? := by
    rw [← h.formatted_eq, Array.getElem?_toList]
    rfl
  have hstring : s.string = MemoryDevice.selected c.texts := funext h.string_eq
  have htext (field : Nat) : s.stringAt field = textAt c field := by
    rw [Structure.stringAt, textAt, hbyte, hstring]
    cases c.encodeFormatted[field]? with
    | none => rfl
    | some number => rfl
  rw [aspect, writtenAspect, h.type_eq, hasPcieSlot, hbyte, htext, htext]

/-- **A summary reads of a written table what was written**, as long as it fits. -/
theorem map_aspect_walk {contents : List StructureContent} (padding : Nat)
    (hfit : contentOffset contents contents.length ≤ Table.capacity) :
    (walk (Table.ofBytes (encodeTable contents padding)).bytes).map aspect =
      contents.map writtenAspect := by
  have hstands := occursAt_ofBytes_encodeTable padding hfit
  have hlength := length_walk_ofBytes_encodeTable padding hfit
  refine List.ext_getElem (by simpa using hlength) fun i hi hi' => ?_
  rw [List.length_map] at hi hi'
  obtain ⟨s, hs, hshows⟩ := getElem?_walkFrom_of_occursAt hstands i hi'
  have hget : (walk (Table.ofBytes (encodeTable contents padding)).bytes)[i] = s :=
    (List.getElem?_eq_some_iff.mp hs).2
  rw [List.getElem_map, List.getElem_map, ← aspect_of_shows hshows, hget]

/-- Types of which a summary reads nothing do not change it. -/
theorem ofAspects_replicate_append {a : Aspect} (rest : List Aspect) (n : Nat)
    (h : a.type ∉ ([0, 1, 2, 4, 9, 17, 43, 45] : List UInt8)) :
    ofAspects (List.replicate n a ++ rest) = ofAspects rest := by
  simp only [List.mem_cons, List.not_mem_nil, or_false, not_or] at h
  obtain ⟨h0, h1, h2, h4, h9, h17, h43, h45⟩ := h
  simp [ofAspects, List.find?_append, List.countP_replicate, *]

/-! ## Structures behind the listing -/

/-- The structures of the walk that the listing does not reach. -/
def unlisted (t : Table) : List Structure :=
  (walk t.bytes).drop 255

/-- The count of a type takes in no structure behind the listing: there is none of the type, or the
listing alone makes up the limit. -/
def CountListed (t : Table) (type : UInt8) : Prop :=
  (∀ s ∈ unlisted t, ¬s.type = type) ∨ ∀ s ∈ structures t.bytes, s.type = type

/-- The text at `field` of the first structure of a type is not read behind the listing: the listing
has a structure of the type, or the first one behind it has no text there either. -/
def TextListed (t : Table) (type : UInt8) (field : Nat) : Prop :=
  (∃ s ∈ structures t.bytes, s.type = type) ∨
    ∀ s, ((unlisted t).find? fun s => s.type = type) = some s → s.stringAt field = ""

/-- A count of the walk that is cut off is the count of the listing exactly if it takes in no
structure behind it. -/
theorem min_countP_eq_iff (t : Table) (type : UInt8) :
    min 255 ((walk t.bytes).countP fun s => s.type = type) =
      ((structures t.bytes).countP fun s => s.type = type) ↔ CountListed t type := by
  rw [structures_eq_take, min_countP_eq_countP_take_iff, CountListed, structures_eq_take]
  simp only [decide_eq_true_eq]
  rfl

/-- The first structure on the walk has the text of the first one of the listing exactly if the text
is not read behind it. -/
theorem textOf_eq_iff (t : Table) (type : UInt8) (field : Nat) :
    textOf ((walk t.bytes).find? fun s => s.type = type) field =
      textOf ((structures t.bytes).find? fun s => s.type = type) field ↔
        TextListed t type field := by
  rw [structures_eq_take, textOf_find?_eq_iff, TextListed, structures_eq_take]
  simp only [decide_eq_true_eq]
  rfl

/-- Where the listing is the whole walk, no count takes in anything behind it. -/
theorem countListed_of_unlisted_eq_nil (h : unlisted t = []) (type : UInt8) :
    CountListed t type := by
  left
  simp [h]

/-- Where the listing is the whole walk, no text is read behind it. -/
theorem textListed_of_unlisted_eq_nil (h : unlisted t = []) (type : UInt8) (field : Nat) :
    TextListed t type field := by
  right
  simp [h]

/-- **When a summary is the summary of the listing.** Its slots and firmware components always are
those of the listing, but it counts up to 255 structures of a type on the whole walk, and its texts
are those of the first structures on the whole walk. So it is the summary of the listing exactly if
none of the four counts takes in a structure behind the listing and none of the four texts is read
there. That is so wherever the listing is the whole walk. -/
theorem collect_eq_ofListing_iff (t : Table) :
    collect t = ofWalk (walk t.bytes) ∧
    (collect t = ofListing (structures t.bytes) ↔
      (∀ type ∈ ([2, 4, 17, 43] : List UInt8), CountListed t type) ∧
        ∀ type ∈ ([0, 1] : List UInt8), ∀ field ∈ [4, 5], TextListed t type field) ∧
    ((walk t.bytes).length ≤ 255 → collect t = ofListing (structures t.bytes)) := by
  have hiff : collect t = ofListing (structures t.bytes) ↔
      (∀ type ∈ ([2, 4, 17, 43] : List UInt8), CountListed t type) ∧
        ∀ type ∈ ([0, 1] : List UInt8), ∀ field ∈ [4, 5], TextListed t type field := by
    simp only [← min_countP_eq_iff, ← textOf_eq_iff, structures_eq_take]
    rw [collect_eq_ofWalk, ofWalk_eq_ofListing_iff]
  refine ⟨collect_eq_ofWalk t, hiff, fun hwhole => hiff.mpr ?_⟩
  have hnil : unlisted t = [] := List.drop_eq_nil_of_le hwhole
  exact ⟨fun type _ => countListed_of_unlisted_eq_nil hnil type,
    fun type _ field _ => textListed_of_unlisted_eq_nil hnil type field⟩

/-! ## A table with figures that the listing does not show -/

/-- A structure that refers to two texts of one byte each. -/
def named (type first second : UInt8) (hfirst : first ≠ 0) (hsecond : second ≠ 0) :
    StructureContent :=
  { type := type, handle := 0, body := [1, 2], texts := [[first], [second]]
    length_body := by decide
    nil_notMem := by simp
    zero_notMem := by simp [hfirst.symm, hsecond.symm] }

/-- A structure of a type of which a summary reads nothing. -/
def filler : StructureContent :=
  named 0x7F 0x41 0x42 (by decide) (by decide)

/-- One structure for each figure that is not read off the listing. -/
def figured : List StructureContent :=
  [named 2 0x41 0x42 (by decide) (by decide), named 4 0x41 0x42 (by decide) (by decide),
    named 17 0x41 0x42 (by decide) (by decide), named 43 0x41 0x42 (by decide) (by decide),
    named 0 0x41 0x42 (by decide) (by decide), named 1 0x43 0x44 (by decide) (by decide)]

/-- These structures behind 255 others. -/
def crowdedContents : List StructureContent :=
  List.replicate 255 filler ++ figured

/-- The table of the crowded contents. -/
def crowdedTable : Table :=
  Table.ofBytes (encodeTable crowdedContents 0)

/-- The crowded contents fit a table. -/
theorem contentOffset_crowdedContents :
    contentOffset crowdedContents crowdedContents.length ≤ Table.capacity := by
  have hfiller : filler.encode.length = 11 := by decide
  have hfigured : (figured.flatMap StructureContent.encode).length = 66 := by decide
  rw [contentOffset, List.take_length, crowdedContents, List.flatMap_append, List.length_append,
    hfigured, List.length_flatMap, List.map_replicate, List.sum_replicate_nat, hfiller,
    Table.capacity]
  decide

/-- A summary reads of the crowded table 255 structures of which it reports nothing, then the
others. -/
theorem map_aspect_crowdedTable :
    (walk crowdedTable.bytes).map aspect =
      List.replicate 255 (writtenAspect filler) ++ figured.map writtenAspect := by
  rw [crowdedTable, map_aspect_walk 0 contentOffset_crowdedContents, crowdedContents,
    List.map_append, List.map_replicate]

/-- **Not every summary is the summary of the listing.** The summary of the crowded table has one
structure of each counted type and all four texts, and its listing shows none of them. -/
theorem collect_crowdedTable :
    collect crowdedTable =
      { biosVendor := "A", biosVersion := "B", systemManufacturer := "C", systemProduct := "D"
        baseboards := 1, processors := 1, memoryDevices := 1, pcieSlots := 0, tpmDevices := 1
        firmware := [] } ∧
    ofListing (structures crowdedTable.bytes) =
      { biosVendor := "", biosVersion := "", systemManufacturer := "", systemProduct := ""
        baseboards := 0, processors := 0, memoryDevices := 0, pcieSlots := 0, tpmDevices := 0
        firmware := [] } ∧
    ¬∀ t : Table, collect t = ofListing (structures t.bytes) := by
  have hnothing : (writtenAspect filler).type ∉ ([0, 1, 2, 4, 9, 17, 43, 45] : List UInt8) := by
    decide
  have hwhole : ofListing (walk crowdedTable.bytes) = ofAspects (figured.map writtenAspect) := by
    rw [ofListing_eq_ofAspects, map_aspect_crowdedTable, ofAspects_replicate_append _ _ hnothing]
  have hlisting : ofListing ((walk crowdedTable.bytes).take 255) = ofAspects [] := by
    rw [ofListing_eq_ofAspects, List.map_take, map_aspect_crowdedTable,
      List.take_left' List.length_replicate, ← ofAspects_replicate_append [] 255 hnothing,
      List.append_nil]
  have hsummary : collect crowdedTable = ⟨"A", "B", "C", "D", 1, 1, 1, 0, 1, []⟩ := by
    rw [collect_eq_ofWalk, ofWalk, hwhole, hlisting]
    decide +kernel
  have hshown : ofListing (structures crowdedTable.bytes) =
      ⟨"", "", "", "", 0, 0, 0, 0, 0, []⟩ := by
    rw [structures_eq_take, hlisting]
    rfl
  refine ⟨hsummary, hshown, fun hall => ?_⟩
  have hboards := congrArg Inventory.baseboards (hall crowdedTable)
  rw [hsummary, hshown] at hboards
  exact absurd hboards (by decide)

end Inventory

end ManagedRegion.Smbios
