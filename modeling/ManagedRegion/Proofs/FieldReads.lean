import ManagedRegion.Proofs.Stepping

/-!
# Field reads: what the four readers return, and the bytes that they see

A field of one, two, four or eight bytes is read exactly if it ends inside the formatted area, and
the area ends where the header or the buffer says, whichever comes first (`Structure.limit`). All
readers are one reader of numbers (`read?_eq_number?`), and what it reads in the area it reads at
the same place of the buffer (`number?_formatted`). A wide field is made up of two narrow ones
(`number?_add`). With offsets in words no sum leads the readers astray (`machine_read?_eq`).

**`fields_exactly_bounded`** puts this together.
-/

namespace ManagedRegion.Bytes

variable {buf : Bytes} {offset : Nat}

/-! ## Numbers in two parts -/

/-- The number of some bytes is that of the first ones, and behind it that of the others. -/
theorem ofLittleEndian_append (front back : List UInt8) :
    ofLittleEndian (front ++ back) =
      ofLittleEndian front + Nat.pow 256 front.length * ofLittleEndian back := by
  induction front with
  | nil =>
    rw [List.nil_append, ofLittleEndian, List.length_nil, Nat.zero_add]
    exact (Nat.one_mul _).symm
  | cons b front ih =>
    have hpow : Nat.pow 256 (front.length + 1) = 256 * Nat.pow 256 front.length :=
      Nat.mul_comm _ _
    rw [List.cons_append, ofLittleEndian, ofLittleEndian, ih, List.length_cons, hpow,
      Nat.mul_add, Nat.mul_assoc, Nat.add_assoc]

/-- **A number is read in two parts**, the low one first. -/
theorem number?_add (buf : Bytes) (offset low high : Nat) :
    buf.number? offset (low + high) =
      (buf.number? offset low).bind fun n =>
        (buf.number? (offset + low) high).map fun m => n + Nat.pow 256 low * m := by
  unfold number?
  by_cases hin : offset + low + high ≤ buf.size
  · have hlow : offset + low ≤ buf.size := by omega
    have hparts : buf.extract offset (offset + (low + high)) =
        buf.extract offset (offset + low) ++ buf.extract (offset + low) (offset + low + high) := by
      rw [Array.extract_append_extract, Nat.min_eq_left (Nat.le_add_right _ _),
        Nat.max_eq_right (Nat.le_add_right _ _), Nat.add_assoc]
    have hlength : (buf.extract offset (offset + low)).toList.length = low := by
      rw [Array.length_toList, Array.size_extract]
      omega
    rw [if_pos (by omega), if_pos hlow, if_pos hin, hparts, Array.toList_append,
      ofLittleEndian_append, hlength, Option.bind_some, Option.map_some]
  · simp only [if_neg hin, Option.map_none, Option.bind_fun_none]
    exact if_neg (by omega)

/-- A number of one byte is the byte. -/
theorem number?_one (buf : Bytes) (offset : Nat) :
    buf.number? offset 1 = buf[offset]?.map UInt8.toNat := by
  unfold number?
  split
  next hin =>
    have hbyte : (buf.extract offset (offset + 1)).toList = [buf[offset]] := by
      have hstands : buf.occursAt [buf[offset]] offset = true := by
        rw [occursAt_cons]
        exact ⟨Array.getElem?_eq_getElem hin, occursAt_nil⟩
      exact extract_of_occursAt hstands
    rw [hbyte, Array.getElem?_eq_getElem hin]
    rfl
  next hout => rw [Array.getElem?_eq_none (by omega), Option.map_none]

/-- A number that its width can hold is kept by every type of that width. -/
theorem map_number?_self {width : Nat} {α : Type} {ofNat : Nat → α} {toNat : α → Nat}
    (hto : ∀ n < Nat.pow 256 width, toNat (ofNat n) = n) :
    ((buf.number? offset width).map ofNat).map toNat = buf.number? offset width := by
  cases hn : buf.number? offset width with
  | none => rfl
  | some n => rw [Option.map_some, Option.map_some, hto n (lt_of_number? hn)]

end ManagedRegion.Bytes

namespace ManagedRegion.Smbios

open Bytes Machine

namespace Structure

variable {s t : Structure} {field : Nat}

/-! ## The readers -/

/-- The number of bytes of the formatted area: as many as are declared, as far as the buffer holds
them. -/
def limit (s : Structure) : Nat :=
  min s.length.toNat (s.buffer.size - s.offset)

/-- The number that the reader for fields of a width returns. -/
def read? (s : Structure) (width : Width) (field : Nat) : Option Nat :=
  match width with
  | .byte => (s.byte? field).map UInt8.toNat
  | .word => (s.word? field).map UInt16.toNat
  | .dword => (s.dword? field).map UInt32.toNat
  | .qword => (s.qword? field).map UInt64.toNat

/-- The formatted area ends at its limit. -/
theorem size_formatted (s : Structure) : s.formatted.size = s.limit := by
  rw [formatted, Array.size_extract, stringArea, limit]
  omega

/-- **Each reader reads a number of its width in the formatted area.** -/
theorem read?_eq_number? (s : Structure) (width : Width) (field : Nat) :
    s.read? width field = s.formatted.number? field width.bytes := by
  cases width with
  | byte => exact (number?_one s.formatted field).symm
  | word =>
    exact map_number?_self fun n (h : n < Nat.pow 256 2) => UInt16.toNat_ofNat_of_lt' h
  | dword =>
    exact map_number?_self fun n (h : n < Nat.pow 256 4) => UInt32.toNat_ofNat_of_lt' h
  | qword =>
    exact map_number?_self fun n (h : n < Nat.pow 256 8) => UInt64.toNat_ofNat_of_lt' h

/-- **A number in the formatted area is the number at its place in the buffer.** -/
theorem number?_formatted (s : Structure) (field width : Nat) :
    s.formatted.number? field width =
      if field + width ≤ s.limit then
        some (ofLittleEndian
          (s.buffer.extract (s.offset + field) (s.offset + field + width)).toList)
      else none := by
  rw [number?, size_formatted]
  split
  next hin =>
    have hdeclared : s.offset + (field + width) ≤ s.stringArea := by
      unfold limit at hin
      unfold stringArea
      omega
    rw [formatted, Array.extract_extract, Nat.min_eq_left hdeclared, Nat.add_assoc]
  next => rfl

/-! ## The bytes that readers see -/

/-- The formatted area lies in the buffer, in front of the string area. -/
theorem offset_add_limit_le (s : Structure) :
    s.offset + s.limit ≤ s.stringArea ∧ s.offset + s.limit ≤ s.buffer.size := by
  have hinside := (Array.getElem?_eq_some_iff.mp (getElem?_length_of_headerAt? s.header_eq).1).1
  unfold limit stringArea
  omega

/-- Structures whose formatted areas hold the same bytes have the same formatted area. -/
theorem formatted_eq_of_agree (hlimit : t.limit = s.limit)
    (h : ∀ i < s.limit, t.buffer[t.offset + i]? = s.buffer[s.offset + i]?) :
    t.formatted = s.formatted := by
  apply Array.ext_getElem?
  intro i
  by_cases hi : i < s.limit
  · have hs := (offset_add_limit_le s).1
    have ht := (offset_add_limit_le t).1
    rw [formatted, formatted, getElem?_extract, getElem?_extract, if_pos (by omega),
      if_pos (by omega), h i hi]
  · rw [Array.getElem?_eq_none (by rw [size_formatted]; omega),
      Array.getElem?_eq_none (by rw [size_formatted]; omega)]

/-- A byte inside the limit is the one at its place in the buffer. -/
theorem byte?_of_lt (hin : field < s.limit) :
    ∃ b, s.buffer[s.offset + field]? = some b ∧ s.byte? field = some b := by
  have hle := offset_add_limit_le s
  have hbyte : s.buffer[s.offset + field]? = some _ := Array.getElem?_eq_getElem (by omega)
  refine ⟨_, hbyte, ?_⟩
  rw [byte?, formatted, getElem?_extract, if_pos (by omega), hbyte]

/-- No byte is read from the limit on. -/
theorem byte?_of_le (hout : s.limit ≤ field) : s.byte? field = none :=
  Array.getElem?_eq_none (by rwa [size_formatted])

end Structure

namespace Machine

variable {s : Structure} {area : Bytes}

/-! ## The readers in words -/

/-- The formatted area can be taken. -/
theorem formatted?_eq (hsize : s.buffer.size < bufferLimit) :
    formatted? s = some s.formatted := by
  have hlimit : bufferLimit < UInt64.size := by decide
  have hin := (Array.getElem?_eq_some_iff.mp (getElem?_length_of_headerAt? s.header_eq).1).1
  have hoffset : (UInt64.ofNat s.offset).toNat = s.offset :=
    UInt64.toNat_ofNat_of_lt' (by omega)
  have hend : (UInt64.ofNat s.buffer.size).toNat = s.buffer.size :=
    UInt64.toNat_ofNat_of_lt' (by omega)
  have hbyte := s.length.toNat_lt
  obtain ⟨declared, hdeclared, hsum⟩ := exists_add? hsize
    (by rw [hoffset]; exact Nat.lt_of_succ_lt hin) s.length.toUInt64
    (by rw [UInt8.toNat_toUInt64]; exact hbyte)
  have harea : declared.toNat = s.stringArea := by
    rw [hsum, hoffset, UInt8.toNat_toUInt64, Structure.stringArea]
  have hbehind : s.offset ≤ s.stringArea := Nat.le_add_right _ _
  simp only [formatted?, hdeclared, Option.bind_eq_bind, Option.bind_some, harea]
  split
  next hfits =>
    rw [if_pos (UInt64.le_iff_toNat_le.mpr (by omega)), hoffset, harea, Structure.formatted]
  next hlong =>
    rw [if_pos (UInt64.le_iff_toNat_le.mpr (by omega)), hoffset, hend, Structure.formatted]
    exact congrArg some (Array.extract_eq_extract_right.mpr (by omega))

/-- A field of an area in memory is read in words as it is without a limit. -/
theorem field?_eq (hsize : area.size < bufferLimit) (width : Width) (field : UInt64) :
    field? area width field = area.number? field.toNat width.bytes := by
  have hwide (bytes : UInt64) : (bytesAt? area field bytes).map ofLittleEndian =
      area.number? field.toNat bytes.toNat := by
    rw [bytesAt?_eq area field bytes hsize, number?]
    split <;> rfl
  cases width with
  | byte => exact (number?_one area field.toNat).symm
  | word => exact hwide 2
  | dword => exact hwide 4
  | qword => exact hwide 8

/-- **The readers in words read what the readers without a limit read.** -/
theorem machine_read?_eq (hsize : s.buffer.size < bufferLimit) (width : Width) (field : UInt64) :
    read? s width field = some (s.read? width field.toNat) := by
  have harea : s.formatted.size < bufferLimit := by
    have hle := (s.offset_add_limit_le).2
    rw [s.size_formatted]
    omega
  rw [read?, formatted?_eq hsize, Option.map_some, field?_eq harea, s.read?_eq_number?]

end Machine

namespace Structure

variable {s t : Structure} {field : Nat}

/-! ## Fields made up of narrower ones -/

/-- A field of four bytes is made up of two fields of two bytes. -/
theorem read?_dword (s : Structure) (field : Nat) :
    s.read? .dword field = (s.read? .word field).bind fun low =>
      (s.read? .word (field + 2)).map fun high => low + 65536 * high := by
  simp only [read?_eq_number?]
  exact number?_add s.formatted field 2 2

/-- A field of eight bytes is made up of two fields of four bytes. -/
theorem read?_qword (s : Structure) (field : Nat) :
    s.read? .qword field = (s.read? .dword field).bind fun low =>
      (s.read? .dword (field + 4)).map fun high => low + 4294967296 * high := by
  simp only [read?_eq_number?]
  exact number?_add s.formatted field 4 4

/-! ## What holds of every field -/

/-- A field that is read ends in front of the string area, of the end of the structure and of the
end of the buffer. -/
theorem read?_inside {width : Width} (h : (s.read? width field).isSome) :
    s.offset + field + width.bytes ≤ s.stringArea ∧
      s.offset + field + width.bytes ≤ s.buffer.size ∧
      ∀ after, Smbios.next? s.buffer s.offset = some after →
        s.offset + field + width.bytes + 2 ≤ after := by
  have hin : field + width.bytes ≤ s.limit := by
    apply Decidable.byContradiction
    intro hout
    rw [read?_eq_number?, number?_formatted, if_neg hout] at h
    cases h
  have hle := offset_add_limit_le s
  refine ⟨by omega, by omega, fun after hafter => ?_⟩
  obtain ⟨p, harea, rfl, -⟩ := exists_occursAt_of_next? hafter
  omega

/-- The text that a field inside the limit refers to is the one with the number that stands
there. -/
theorem stringAt_of_lt (hin : field < s.limit) :
    ∃ number, s.buffer[s.offset + field]? = some number ∧
      s.stringAt field = s.string number := by
  obtain ⟨number, hnumber, hbyte⟩ := byte?_of_lt hin
  exact ⟨number, hnumber, by rw [stringAt, hbyte]⟩

/-- No field from the limit on refers to a text. -/
theorem stringAt_of_le (hout : s.limit ≤ field) : s.stringAt field = "" := by
  rw [stringAt, byte?_of_le hout]

/-- What is read is a matter of the bytes of the formatted area alone. -/
theorem read?_eq_of_agree (hlimit : t.limit = s.limit)
    (h : ∀ i < s.limit, t.buffer[t.offset + i]? = s.buffer[s.offset + i]?) (width : Width) :
    t.read? width field = s.read? width field := by
  rw [read?_eq_number?, read?_eq_number?, formatted_eq_of_agree hlimit h]

end Structure

/-- **Fields are read exactly inside the formatted area.** The area ends where the header or the
buffer says, whichever comes first. A field is read if it ends inside it, as the little-endian
number of its bytes in the buffer, and not otherwise; so a wide field is made up of two narrow ones,
and a field refers to a text exactly if it lies inside the area. What is read ends in front of the
string area, of the next structure and of the end of the buffer, and no byte from there on has any
influence on it. In a buffer in memory and with offsets in words the readers read the same, whether
or not a word can hold the end of the field. -/
theorem fields_exactly_bounded (s : Structure) (field : Nat) :
    (∀ width, s.read? width field =
      if field + width.bytes ≤ s.limit then
        some (ofLittleEndian
          (s.buffer.extract (s.offset + field) (s.offset + field + width.bytes)).toList)
      else none) ∧
    s.read? .dword field = ((s.read? .word field).bind fun low =>
      (s.read? .word (field + 2)).map fun high => low + 65536 * high) ∧
    s.read? .qword field = ((s.read? .dword field).bind fun low =>
      (s.read? .dword (field + 4)).map fun high => low + 4294967296 * high) ∧
    (field < s.limit → ∃ number, s.buffer[s.offset + field]? = some number ∧
      s.stringAt field = s.string number) ∧
    (s.limit ≤ field → s.stringAt field = "") ∧
    (∀ width, (s.read? width field).isSome →
      s.offset + field + width.bytes ≤ s.stringArea ∧
        s.offset + field + width.bytes ≤ s.buffer.size ∧
        ∀ after, next? s.buffer s.offset = some after →
          s.offset + field + width.bytes + 2 ≤ after) ∧
    (∀ t : Structure, t.limit = s.limit →
      (∀ i < s.limit, t.buffer[t.offset + i]? = s.buffer[s.offset + i]?) →
        ∀ width, t.read? width field = s.read? width field) ∧
    (s.buffer.size < bufferLimit → ∀ word : UInt64, word.toNat = field →
      ∀ width, Machine.read? s width word = some (s.read? width field)) := by
  refine ⟨fun width => ?_, s.read?_dword field, s.read?_qword field, Structure.stringAt_of_lt,
    Structure.stringAt_of_le, fun width => Structure.read?_inside,
    fun t hlimit h width => Structure.read?_eq_of_agree hlimit h width, ?_⟩
  · rw [s.read?_eq_number?, s.number?_formatted]
  · rintro hsize word rfl width
    exact machine_read?_eq hsize width word

/-- A structure that declares eight bytes, of which the buffer holds six. -/
def cutShort : Structure where
  buffer := #[1, 8, 2, 0, 0x34, 0x12]
  offset := 0
  header := ⟨1, 8, 2⟩
  header_eq := by decide

/-- The last word in front of the end of the buffer is read, the one behind it is not, and neither
is one whose end no word can hold. -/
theorem fields_exactly_bounded_cutShort :
    cutShort.buffer.size < bufferLimit ∧ cutShort.read? .word 4 = some 0x1234 ∧
      cutShort.read? .word 5 = none ∧
      Machine.read? cutShort .word 0xFFFFFFFFFFFFFFFF = some none := by
  have hsize : cutShort.buffer.size < bufferLimit := by decide
  obtain ⟨hlast, -⟩ := fields_exactly_bounded cutShort 4
  obtain ⟨hbehind, -⟩ := fields_exactly_bounded cutShort 5
  obtain ⟨hfar, -, -, -, -, -, -, hwords⟩ := fields_exactly_bounded cutShort 0xFFFFFFFFFFFFFFFF
  have hword := hwords hsize 0xFFFFFFFFFFFFFFFF rfl .word
  exact ⟨hsize, hlast .word, hbehind .word, hword.trans (congrArg some (hfar .word))⟩

end ManagedRegion.Smbios
