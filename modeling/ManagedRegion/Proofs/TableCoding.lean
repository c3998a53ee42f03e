import ManagedRegion.Proofs.StringSet
import ManagedRegion.Proofs.Table
import ManagedRegion.Proofs.Walk

/-!
# Table coding: walking what was written

A table carries no length, neither of its string sets nor of itself. Still the walk over a written
table shows exactly the structures that were written (`structures_encodeTable`): each set ends at
the first two zero bytes behind the formatted area, whatever zero bytes the body holds, and the
padding is no structure.

`shows_of_occursAt` is the statement on one structure: wherever its bytes stand, it is viewed with
all that it says. A table of several structures is then walked by induction on the list of what was
written.
-/

namespace ManagedRegion.Smbios

open Bytes

variable {buf : Bytes} {start offset : Nat} {c : StructureContent}
  {contents : List StructureContent}

/-! ## One structure -/

namespace StructureContent

/-- The texts of a structure can be held by a set. -/
theorem storable (c : StructureContent) : StringSet.Storable c.texts :=
  ⟨c.nil_notMem, c.zero_notMem⟩

/-- The length of a formatted area fits its byte. -/
theorem toNat_length_header (c : StructureContent) :
    c.header.length.toNat = Header.size + c.body.length := by
  have hbody := c.length_body
  rw [header, UInt8.toNat_ofNat', Nat.mod_eq_of_lt]
  rw [Header.size]
  omega

/-- A formatted area is written with the length that its header declares. -/
theorem length_encodeFormatted (c : StructureContent) :
    c.encodeFormatted.length = c.header.length.toNat := by
  rw [toNat_length_header, encodeFormatted]
  simp [Header.size]
  omega

/-- The header of a structure begins one: it declares room for itself. -/
theorem beginsStructure_header (c : StructureContent) : c.header.beginsStructure = true := by
  have hlength := c.toNat_length_header
  have hpos : c.header.length ≠ 0 := by
    intro heq
    rw [heq, Header.size] at hlength
    simp at hlength
    omega
  simp [Header.beginsStructure, Header.isEndMarker, hpos, hlength]

/-- The header of a structure, which its formatted area begins with. -/
def encodeHeader (c : StructureContent) : List UInt8 :=
  c.type :: c.header.length :: toLittleEndian 2 c.handle.toNat

/-- Where a header stands, it is read, whatever follows it. -/
theorem parse?_of_occursAt (h : buf.occursAt c.encodeHeader offset = true) :
    Header.parse? buf offset = some c.header := by
  obtain ⟨htype, h⟩ := occursAt_cons.mp h
  obtain ⟨hlength, h⟩ := occursAt_cons.mp h
  have hhandle := number?_of_occursAt h (length_toLittleEndian 2 _) (by simp [toLittleEndian])
  have hrange : c.handle.toNat % Nat.pow 256 2 = c.handle.toNat :=
    Nat.mod_eq_of_lt c.handle.toNat_lt
  rw [ofLittleEndian_toLittleEndian, hrange] at hhandle
  simp [Header.parse?, htype, hlength, hhandle, header]

/-- Where the header of a structure stands, the structure begins. -/
theorem headerAt?_of_encodeHeader (h : buf.occursAt c.encodeHeader offset = true) :
    headerAt? buf offset = some c.header := by
  rw [headerAt?, parse?_of_occursAt h, Option.filter_some, if_pos c.beginsStructure_header]

/-- A formatted area that stands begins with its header. -/
theorem occursAt_encodeHeader (h : buf.occursAt c.encodeFormatted offset = true) :
    buf.occursAt c.encodeHeader offset = true :=
  (occursAt_append.mp h).1

/-- Where a formatted area stands, a structure begins. -/
theorem headerAt?_of_occursAt (h : buf.occursAt c.encodeFormatted offset = true) :
    headerAt? buf offset = some c.header :=
  headerAt?_of_encodeHeader (occursAt_encodeHeader h)

/-- Where a structure stands, it ends behind its last byte. -/
theorem next?_of_occursAt (h : buf.occursAt c.encode offset = true) :
    next? buf offset = some (offset + c.encode.length) := by
  obtain ⟨hformatted, htexts⟩ := occursAt_append.mp h
  have hlength : buf[offset + 1]? = some c.header.length :=
    (occursAt_cons.mp (occursAt_cons.mp hformatted).2).1
  have hend := doubleNull?_of_encode c.storable htexts
  rw [c.length_encodeFormatted, Option.map_eq_some_iff] at hend
  obtain ⟨closing, hclosing, hbehind⟩ := hend
  rw [encode, List.length_append, c.length_encodeFormatted, ← Nat.add_assoc, ← hbehind]
  simp [next?, hlength, hclosing]

end StructureContent

/-- The structure begins at `offset` and says what `c` does: its header, its formatted area, its
texts in order and each by its number, and where it ends. -/
structure Structure.Shows (s : Structure) (offset : Nat) (c : StructureContent) : Prop where
  /-- Where it begins. -/
  offset_eq : s.offset = offset
  /-- Its type. -/
  type_eq : s.type = c.type
  /-- Its declared length. -/
  toNat_length : s.length.toNat = 4 + c.body.length
  /-- Its handle. -/
  handle_eq : s.handle = c.handle
  /-- Its header and body. -/
  formatted_eq : s.formatted.toList = c.encodeFormatted
  /-- Its texts. -/
  strings_eq : s.strings = c.texts.map Utf8.lossy
  /-- Each text by its number. -/
  string_eq : ∀ number : UInt8, s.string number =
    if number.toNat = 0 then "" else (c.texts[number.toNat - 1]?.map Utf8.lossy).getD ""
  /-- Where it ends. -/
  next?_eq : Smbios.next? s.buffer s.offset = some (offset + c.encode.length)

/-- **A written structure is viewed with all that it says, wherever it stands.** -/
theorem shows_of_occursAt (h : buf.occursAt c.encode offset = true) :
    ∃ s, structureAt? buf offset = some s ∧ s.Shows offset c := by
  obtain ⟨hformatted, htexts⟩ := occursAt_append.mp h
  have hheader := StructureContent.headerAt?_of_occursAt hformatted
  have harea : offset + c.header.length.toNat = offset + c.encodeFormatted.length := by
    rw [c.length_encodeFormatted]
  let s : Structure := ⟨buf, offset, c.header, hheader⟩
  refine ⟨s, structureAt?_self s, rfl, rfl, c.toNat_length_header, rfl, ?_, ?_, ?_, ?_⟩
  · show (buf.extract offset (offset + c.header.length.toNat)).toList = c.encodeFormatted
    rw [harea]
    exact extract_of_occursAt hformatted
  · show StringSet.all buf (offset + c.header.length.toNat) = c.texts.map Utf8.lossy
    rw [harea]
    exact StringSet.all_of_encode c.storable htexts
  · intro number
    show StringSet.resolve buf (offset + c.header.length.toNat) number.toNat = _
    rw [harea]
    exact StringSet.resolve_of_encode c.storable htexts number.toNat
  · exact c.next?_of_occursAt h

/-- The walk takes a written structure and goes on behind its last byte. -/
theorem walkFrom_of_occursAt (h : buf.occursAt c.encode start = true) :
    ∃ s, s.Shows start c ∧ walkFrom buf start = s :: walkFrom buf (start + c.encode.length) := by
  obtain ⟨s, hs, hshows⟩ := shows_of_occursAt h
  refine ⟨s, hshows, ?_⟩
  rw [walkFrom_of_some hs, walkBehind_of_some (c.next?_of_occursAt h)]

/-! ## A table of structures -/

/-- How far in front of structure number `i` of a table the table begins. -/
def contentOffset (contents : List StructureContent) (i : Nat) : Nat :=
  ((contents.take i).flatMap StructureContent.encode).length

/-- A structure begins as far behind the first one as that is long, and the others before it. -/
theorem contentOffset_cons_succ (i : Nat) :
    contentOffset (c :: contents) (i + 1) = c.encode.length + contentOffset contents i := by
  simp [contentOffset]

/-- **Each structure of a table that stands in a buffer is at its place on the walk.** -/
theorem getElem?_walkFrom_of_occursAt
    (h : buf.occursAt (contents.flatMap StructureContent.encode) start = true) (i : Nat)
    (hi : i < contents.length) :
    ∃ s, (walkFrom buf start)[i]? = some s ∧
      s.Shows (start + contentOffset contents i) contents[i] := by
  induction contents generalizing start i with
  | nil => simp at hi
  | cons c contents ih =>
    rw [List.flatMap_cons, occursAt_append] at h
    obtain ⟨s, hshows, hwalk⟩ := walkFrom_of_occursAt h.1
    rw [hwalk]
    cases i with
    | zero => exact ⟨s, List.getElem?_cons_zero, hshows⟩
    | succ i =>
      obtain ⟨later, hlater, hshowsLater⟩ := ih h.2 i (by simpa using hi)
      refine ⟨later, by rw [List.getElem?_cons_succ, hlater], ?_⟩
      rw [contentOffset_cons_succ, ← Nat.add_assoc]
      exact hshowsLater

/-- Behind the structures of a table the walk goes on where the table ends. -/
theorem length_walkFrom_of_occursAt
    (h : buf.occursAt (contents.flatMap StructureContent.encode) start = true) :
    (walkFrom buf start).length = contents.length +
      (walkFrom buf (start + contentOffset contents contents.length)).length := by
  induction contents generalizing start with
  | nil => simp [contentOffset]
  | cons c contents ih =>
    rw [List.flatMap_cons, occursAt_append] at h
    obtain ⟨s, -, hwalk⟩ := walkFrom_of_occursAt h.1
    rw [hwalk, List.length_cons, ih h.2, List.length_cons, contentOffset_cons_succ,
      Nat.add_assoc start]
    omega

/-- No structure begins in zero bytes. -/
theorem structureAt?_of_zero (h : ∀ i, offset ≤ i → buf[i]?.getD 0 = 0) :
    structureAt? buf offset = none := by
  have hparse : headerAt? buf offset = none := by
    have htype := h offset (Nat.le_refl _)
    have hlength := h (offset + 1) (Nat.le_succ _)
    rw [headerAt?, Header.parse?]
    cases ht : buf[offset]? with
    | none => rfl
    | some type =>
      cases hl : buf[offset + 1]? with
      | none => rfl
      | some length =>
        obtain rfl : type = 0 := by simpa [ht] using htype
        obtain rfl : length = 0 := by simpa [hl] using hlength
        cases hh : buf.number? (offset + 2) 2 with
        | none => rfl
        | some handle => rfl
  rw [← Option.not_isSome_iff_eq_none, isSome_structureAt?, hparse]
  simp

/-- The listing of a buffer begins with the structures of the contents, as far as its limit. -/
def ListsFirst (buf : Bytes) (contents : List StructureContent) : Prop :=
  ∀ i (h : i < contents.length), i < 255 →
    ∃ s, (structures buf)[i]? = some s ∧ s.Shows (contentOffset contents i) contents[i]

/-- A table that stands at the front of a buffer is what its listing begins with. -/
theorem listsFirst_of_occursAt
    (h : buf.occursAt (contents.flatMap StructureContent.encode) 0 = true) :
    ListsFirst buf contents := by
  intro i hi hlimit
  obtain ⟨s, hs, hshows⟩ := getElem?_walkFrom_of_occursAt h i hi
  refine ⟨s, ?_, by rwa [Nat.zero_add] at hshows⟩
  rw [structures_eq_take, List.getElem?_take_of_lt hlimit]
  exact hs

/-- The listing of a buffer shows the structures of the contents, as far as its limit, and nothing
else. -/
structure Lists (buf : Bytes) (contents : List StructureContent) : Prop where
  /-- There are as many structures as in the contents, as far as the limit. -/
  length_eq : (structures buf).length = min 255 contents.length
  /-- They are those of the contents. -/
  listsFirst : ListsFirst buf contents

/-- A table with nothing but zero bytes behind it is what a buffer lists. -/
theorem lists_of_occursAt
    (h : buf.occursAt (contents.flatMap StructureContent.encode) 0 = true)
    (hzero : ∀ i, contentOffset contents contents.length ≤ i → buf[i]?.getD 0 = 0) :
    Lists buf contents where
  length_eq := by
    have hlength := length_walkFrom_of_occursAt h
    rw [Nat.zero_add, walkFrom_of_none (structureAt?_of_zero hzero)] at hlength
    rw [structures_eq_take, List.length_take, walk, hlength]
    rfl
  listsFirst := listsFirst_of_occursAt h

/-! ## Written tables -/

/-- The first structures of a table stand at its front. -/
theorem occursAt_encodeTable (contents : List StructureContent) (padding k : Nat) :
    (encodeTable contents padding).occursAt
      ((contents.take k).flatMap StructureContent.encode) 0 = true := by
  have hsplit : contents.flatMap StructureContent.encode =
      (contents.take k).flatMap StructureContent.encode ++
        (contents.drop k).flatMap StructureContent.encode := by
    rw [← List.flatMap_append, List.take_append_drop]
  rw [encodeTable, hsplit, List.append_assoc]
  exact occursAt_toArray_append [] _

/-- Behind its structures a table holds zero bytes. -/
theorem getElem?_encodeTable (contents : List StructureContent) (padding : Nat) {i : Nat}
    (h : contentOffset contents contents.length ≤ i) :
    (encodeTable contents padding)[i]?.getD 0 = 0 := by
  rw [contentOffset, List.take_length] at h
  rw [encodeTable, List.getElem?_toArray, List.getElem?_append_right h, List.getElem?_replicate]
  split <;> rfl

/-- All structures of a table that fit stand at the front of the table that is filled with them. -/
theorem occursAt_ofBytes_encodeTable (padding : Nat)
    (hfit : contentOffset contents contents.length ≤ Table.capacity) :
    (Table.ofBytes (encodeTable contents padding)).bytes.occursAt
      (contents.flatMap StructureContent.encode) 0 = true := by
  have hwritten := occursAt_encodeTable contents padding contents.length
  rw [contentOffset] at hfit
  rw [List.take_length] at hwritten hfit
  refine Table.occursAt_ofBytes hwritten ?_
  rw [Nat.zero_add]
  exact hfit

/-- The walk over a table that is filled with structures ends where they do: the padding is none. -/
theorem length_walk_ofBytes_encodeTable (padding : Nat)
    (hfit : contentOffset contents contents.length ≤ Table.capacity) :
    (walk (Table.ofBytes (encodeTable contents padding)).bytes).length = contents.length := by
  have hend : walkFrom (Table.ofBytes (encodeTable contents padding)).bytes
      (contentOffset contents contents.length) = [] := by
    refine walkFrom_of_none (structureAt?_of_zero fun i hi => ?_)
    rw [Table.getElem?_ofBytes]
    split
    · rw [Option.getD_some, getElem?_encodeTable contents padding hi]
    · rfl
  have hlength := length_walkFrom_of_occursAt (occursAt_ofBytes_encodeTable padding hfit)
  rw [Nat.zero_add, hend, List.length_nil, Nat.add_zero] at hlength
  exact hlength

/-- **Walking a written table shows what was written.** The listing of the bytes shows the first 255
structures in order, each at its place with its header, formatted area, texts and end, and nothing
else, however many zero bytes follow. A table that is filled with the bytes lists the same if they
fit; in any case its listing begins with all the structures that fit. -/
theorem structures_encodeTable (contents : List StructureContent) (padding : Nat) :
    Lists (encodeTable contents padding) contents ∧
    (contentOffset contents contents.length ≤ Table.capacity →
      Lists (Table.ofBytes (encodeTable contents padding)).bytes contents) ∧
    ∀ k, contentOffset contents k ≤ Table.capacity →
      ListsFirst (Table.ofBytes (encodeTable contents padding)).bytes (contents.take k) := by
  have hwritten := occursAt_encodeTable contents padding contents.length
  have hfirst : ∀ k, contentOffset contents k ≤ Table.capacity →
      (Table.ofBytes (encodeTable contents padding)).bytes.occursAt
        ((contents.take k).flatMap StructureContent.encode) 0 = true := by
    intro k hfit
    refine Table.occursAt_ofBytes (occursAt_encodeTable contents padding k) ?_
    rw [Nat.zero_add]
    exact hfit
  refine ⟨?_, fun hfit => ?_, fun k hfit => listsFirst_of_occursAt (hfirst k hfit)⟩
  · rw [List.take_length] at hwritten
    exact lists_of_occursAt hwritten fun i hi => getElem?_encodeTable contents padding hi
  · have hwhole := hfirst contents.length hfit
    rw [List.take_length] at hwhole
    refine lists_of_occursAt hwhole fun i hi => ?_
    rw [Table.getElem?_ofBytes]
    by_cases hcap : i < Table.capacity
    · rw [if_pos hcap, Option.getD_some, getElem?_encodeTable contents padding hi]
    · rw [if_neg hcap, Option.getD_none]

/-- Two structures that could be mistaken for padding or for one another: the first is of type 0 and
has a body of zero bytes and no texts, the second has two texts, one of them ill-formed. -/
def deceptiveContents : List StructureContent :=
  [{ type := 0, handle := 0, body := [0, 0, 0, 0], texts := []
     length_body := by decide, nil_notMem := by decide, zero_notMem := by decide },
   { type := 1, handle := 0x0100, body := [], texts := [[0x41], [0xFF, 0x42]]
     length_body := by decide, nil_notMem := by decide, zero_notMem := by decide }]

/-- The deceptive contents fit a table and are shown by it, and by their bytes with three zero bytes
behind them. -/
theorem structures_encodeTable_deceptive :
    contentOffset deceptiveContents deceptiveContents.length ≤ Table.capacity ∧
    Lists (encodeTable deceptiveContents 3) deceptiveContents ∧
    Lists (Table.ofBytes (encodeTable deceptiveContents 3)).bytes deceptiveContents :=
  have hfit : contentOffset deceptiveContents deceptiveContents.length ≤ Table.capacity := by decide
  ⟨hfit, (structures_encodeTable deceptiveContents 3).1,
    (structures_encodeTable deceptiveContents 3).2.1 hfit⟩

end ManagedRegion.Smbios
