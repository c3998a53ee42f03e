import ManagedRegion.Proofs.TableCoding
import Mathlib.Tactic.Choose

/-!
# Device layout: the eighty bytes of a memory device record

A memory device record is read at thirty-three places of the formatted area, some of one byte and
some of two, four or eight. `encodeFields` lays the same fields out one behind the other. The two
agree place by place (`occursAt_encodeFields_iff`): the bytes from 0x04 up to 0x54 are the fields of
a record exactly if each field is read where the decoder looks for it. So no byte in between belongs
to two fields or to none.

**`decode?_inverts_layout`** puts this together: which structures are decoded, that a record which
was laid out is read back, that a record which is read is laid out as the bytes that stand there,
and that no two areas with the same text numbers are read as the same record.
-/

namespace ManagedRegion.Smbios

open Bytes

variable {s t : Structure} {field width : Nat} {buf : Bytes} {offset : Nat}

namespace Structure

/-! ## Fields and the bytes that they are read from -/

/-- A number of two bytes is read where they stand. -/
theorem word?_eq_some_iff {n : UInt16} :
    s.word? field = some n ↔ s.formatted.occursAt (toLittleEndian 2 n.toNat) field = true :=
  map_number?_eq_some_iff (by decide) UInt16.toNat_lt
    (fun n (h : n < Nat.pow 256 2) => UInt16.toNat_ofNat_of_lt' h) fun _ => UInt16.ofNat_toNat

/-- A number of four bytes is read where they stand. -/
theorem dword?_eq_some_iff {n : UInt32} :
    s.dword? field = some n ↔ s.formatted.occursAt (toLittleEndian 4 n.toNat) field = true :=
  map_number?_eq_some_iff (by decide) UInt32.toNat_lt
    (fun n (h : n < Nat.pow 256 4) => UInt32.toNat_ofNat_of_lt' h) fun _ => UInt32.ofNat_toNat

/-- A number of eight bytes is read where they stand. -/
theorem qword?_eq_some_iff {n : UInt64} :
    s.qword? field = some n ↔ s.formatted.occursAt (toLittleEndian 8 n.toNat) field = true :=
  map_number?_eq_some_iff (by decide) UInt64.toNat_lt
    (fun n (h : n < Nat.pow 256 8) => UInt64.toNat_ofNat_of_lt' h) fun _ => UInt64.ofNat_toNat

/-- A number that lies inside the formatted area is read, whatever it stands for. -/
theorem exists_map_number? {α : Type} {ofNat : Nat → α}
    (hin : field + width ≤ s.formatted.size) :
    ∃ a, (s.formatted.number? field width).map ofNat = some a := by
  rw [number?, if_pos hin]
  exact ⟨_, rfl⟩

/-- The formatted area has room for a record exactly if the buffer goes on so far, given that the
header declares so much. -/
theorem le_size_formatted_iff (hlength : 0x54 ≤ s.length.toNat) :
    0x54 ≤ s.formatted.size ↔ s.offset + 0x54 ≤ s.buffer.size := by
  rw [formatted, Array.size_extract, stringArea]
  omega

end Structure

namespace MemoryDevice

variable {m : MemoryDevice} {numbers others : TextNumbers}

/-! ## The place of each field -/

/-- Each field of the record, and each number of a text, is what is read at its place. -/
def Reads (m : MemoryDevice) (s : Structure) (numbers : TextNumbers) : Prop :=
  s.word? 0x04 = some m.physicalMemoryArrayHandle ∧
  s.word? 0x06 = some m.memoryErrorInformationHandle ∧
  s.word? 0x08 = some m.totalWidth ∧
  s.word? 0x0A = some m.dataWidth ∧
  s.word? 0x0C = some m.size ∧
  s.byte? 0x0E = some m.formFactor ∧
  s.byte? 0x0F = some m.deviceSet ∧
  s.byte? 0x10 = some numbers.deviceLocator ∧
  s.byte? 0x11 = some numbers.bankLocator ∧
  s.byte? 0x12 = some m.memoryType ∧
  s.word? 0x13 = some m.typeDetail ∧
  s.word? 0x15 = some m.speed ∧
  s.byte? 0x17 = some numbers.manufacturer ∧
  s.byte? 0x18 = some numbers.serialNumber ∧
  s.byte? 0x19 = some numbers.assetTag ∧
  s.byte? 0x1A = some numbers.partNumber ∧
  s.byte? 0x1B = some m.attributes ∧
  s.dword? 0x1C = some m.extendedSize ∧
  s.word? 0x20 = some m.configuredMemorySpeed ∧
  s.word? 0x22 = some m.minimumVoltage ∧
  s.word? 0x24 = some m.maximumVoltage ∧
  s.word? 0x26 = some m.configuredVoltage ∧
  s.byte? 0x28 = some m.memoryTechnology ∧
  s.word? 0x29 = some m.memoryOperatingModeCapability ∧
  s.byte? 0x2B = some numbers.firmwareVersion ∧
  s.word? 0x2C = some m.moduleManufacturerId ∧
  s.word? 0x2E = some m.moduleProductId ∧
  s.word? 0x30 = some m.memorySubsystemControllerManufacturerId ∧
  s.word? 0x32 = some m.memorySubsystemControllerProductId ∧
  s.qword? 0x34 = some m.nonVolatileSize ∧
  s.qword? 0x3C = some m.volatileSize ∧
  s.qword? 0x44 = some m.cacheSize ∧
  s.qword? 0x4C = some m.logicalSize

/-- **The fields stand one behind the other from 0x04 on exactly if each is read at its place.** -/
theorem occursAt_encodeFields_iff :
    s.formatted.occursAt (m.encodeFields numbers) 4 = true ↔ m.Reads s numbers := by
  unfold encodeFields Reads
  -- The first pass cuts the fields apart and adds up their places, the second one reads each.
  simp only [occursAt_append, List.length_append, length_toLittleEndian, List.length_cons,
    List.length_nil, Nat.reduceAdd]
  simp only [occursAt_cons, occursAt_nil, and_true, Nat.reduceAdd, and_assoc,
    ← Structure.word?_eq_some_iff, ← Structure.dword?_eq_some_iff,
    ← Structure.qword?_eq_some_iff]
  exact Iff.rfl

/-! ## Records that are laid out -/

/-- The record with the numbers of `m`, in which the header and the texts are those of a structure:
each text is the one that its number refers to. -/
def readBack (m : MemoryDevice) (numbers : TextNumbers) (header : Header)
    (text : UInt8 → String) : MemoryDevice :=
  { m with
    structureType := header.type
    length := header.length
    handle := header.handle
    deviceLocator := text numbers.deviceLocator
    bankLocator := text numbers.bankLocator
    manufacturer := text numbers.manufacturer
    serialNumber := text numbers.serialNumber
    assetTag := text numbers.assetTag
    partNumber := text numbers.partNumber
    firmwareVersion := text numbers.firmwareVersion }

/-- **A record that is laid out in a structure is read back from it.** -/
theorem decode?_of_occursAt (htype : s.header.isOfType type minLength = true)
    (h : s.formatted.occursAt (m.encodeFields numbers) 4 = true) :
    decode? s = some (m.readBack numbers s.header s.string) := by
  have hreads := occursAt_encodeFields_iff.mp h
  unfold Reads at hreads
  simp [decode?, htype, hreads, readBack, Structure.stringAt, Structure.type, Structure.length,
    Structure.handle]

/-! ## Records that are read -/

/-- Only structures of the type and the length of a record are decoded. -/
theorem isOfType_of_decode? (h : decode? s = some m) :
    s.header.isOfType type minLength = true := by
  by_contra htype
  simp [decode?, htype] at h

/-- A structure that the buffer cuts short of the last field is not decoded. -/
theorem le_size_of_decode? (h : decode? s = some m) : 0x54 ≤ s.formatted.size := by
  by_contra hsize
  have hnone : s.qword? 0x4C = none := by
    rw [Structure.qword?, number?, if_neg (by omega), Option.map_none]
  simp [decode?, hnone] at h

/-- **Every other structure of the type and the length of a record is decoded**, and the record is
laid out as the bytes that it was read from. -/
theorem exists_decode?_of_size (htype : s.header.isOfType type minLength = true)
    (hsize : 0x54 ≤ s.formatted.size) :
    ∃ (m : MemoryDevice) (numbers : TextNumbers),
      decode? s = some m ∧ s.formatted.occursAt (m.encodeFields numbers) 4 = true := by
  have hbyte : ∀ field, field + 1 ≤ 0x54 → ∃ b, s.byte? field = some b :=
    fun field hin => ⟨_, Array.getElem?_eq_getElem (by omega)⟩
  have hword : ∀ field, field + 2 ≤ 0x54 → ∃ n, s.word? field = some n :=
    fun field hin => Structure.exists_map_number? (by omega)
  have hdword : ∀ field, field + 4 ≤ 0x54 → ∃ n, s.dword? field = some n :=
    fun field hin => Structure.exists_map_number? (by omega)
  have hqword : ∀ field, field + 8 ≤ 0x54 → ∃ n, s.qword? field = some n :=
    fun field hin => Structure.exists_map_number? (by omega)
  choose byte hbyte using hbyte
  choose word hword using hword
  choose dword hdword using hdword
  choose qword hqword using hqword
  have hsome : ∃ m, decode? s = some m := by
    simp [decode?, htype, hbyte, hword, hdword, hqword]
  obtain ⟨m, hm⟩ := hsome
  -- The numbers of the texts are not part of the record: they are the bytes that were looked up.
  refine ⟨m, ⟨byte 0x10 (by decide), byte 0x11 (by decide), byte 0x17 (by decide),
    byte 0x18 (by decide), byte 0x19 (by decide), byte 0x1A (by decide), byte 0x2B (by decide)⟩,
    hm, occursAt_encodeFields_iff.mpr ?_⟩
  simp only [decode?, htype, if_true, hbyte, hword, hdword, hqword, Option.bind_eq_bind,
    Option.bind_some, Nat.reduceAdd, Nat.reduceLeDiff, pure, Option.some.injEq] at hm
  rw [← hm]
  simp [Reads, hbyte, hword, hdword, hqword]

/-- **A record that is read is laid out as the bytes that it was read from**, and its header and
texts are those of the structure. -/
theorem occursAt_of_decode? (h : decode? s = some m) :
    ∃ numbers, s.formatted.occursAt (m.encodeFields numbers) 4 = true ∧
      m = m.readBack numbers s.header s.string := by
  have htype := isOfType_of_decode? h
  obtain ⟨r, numbers, hread, hfields⟩ := exists_decode?_of_size htype (le_size_of_decode? h)
  obtain rfl := Option.some.inj (h.symm.trans hread)
  exact ⟨numbers, hfields, Option.some.inj (h.symm.trans (decode?_of_occursAt htype hfields))⟩

/-- A structure is decoded exactly if it has the type and the length of a record, and the buffer
does not cut it short of the last field. -/
theorem isSome_decode?_iff :
    (decode? s).isSome = true ↔
      s.header.isOfType type minLength = true ∧ 0x54 ≤ s.formatted.size := by
  rw [Option.isSome_iff_exists]
  constructor
  · rintro ⟨m, hm⟩
    exact ⟨isOfType_of_decode? hm, le_size_of_decode? hm⟩
  · rintro ⟨htype, hsize⟩
    obtain ⟨m, -, hm, -⟩ := exists_decode?_of_size htype hsize
    exact ⟨m, hm⟩

/-- Being of the type and the length of a record, said of the header's bytes. -/
theorem isOfType_iff :
    s.header.isOfType type minLength = true ↔ s.type = 17 ∧ 0x54 ≤ s.length.toNat := by
  rw [Header.isOfType, Bool.and_eq_true, beq_iff_eq, decide_eq_true_iff, UInt8.le_iff_toNat_le]
  exact Iff.rfl

/-- **The condition of success in terms of the buffer.** -/
theorem isSome_decode?_iff_offset :
    (decode? s).isSome = true ↔
      s.type = 17 ∧ 0x54 ≤ s.length.toNat ∧ s.offset + 0x54 ≤ s.buffer.size := by
  rw [isSome_decode?_iff, isOfType_iff, and_assoc]
  constructor
  · rintro ⟨htype, hlength, hsize⟩
    exact ⟨htype, hlength, (Structure.le_size_formatted_iff hlength).mp hsize⟩
  · rintro ⟨htype, hlength, hsize⟩
    exact ⟨htype, hlength, (Structure.le_size_formatted_iff hlength).mpr hsize⟩

/-! ## Written structures -/

/-- The text that a number refers to in a set of texts, empty if the number is 0 or larger than the
number of texts. -/
def selected (texts : List (List UInt8)) (number : UInt8) : String :=
  if number.toNat = 0 then "" else (texts[number.toNat - 1]?.map Utf8.lossy).getD ""

/-- **The record of a structure that was written is the one that was laid out in it**, with the
texts of the structure, wherever it stands and whatever follows the fields. -/
theorem decode?_of_encode {c : StructureContent} {extra : List UInt8} (htype : c.type = 17)
    (hbody : c.body = m.encodeFields numbers ++ extra)
    (h : buf.occursAt c.encode offset = true) :
    ∃ s, structureAt? buf offset = some s ∧
      decode? s = some (m.readBack numbers c.header (selected c.texts)) := by
  obtain ⟨s, hs, hshows⟩ := shows_of_occursAt h
  have hheader : s.header = c.header := by
    have hlength := hshows.toNat_length
    rw [← Header.size, ← c.toNat_length_header] at hlength
    obtain ⟨buffer, place, header, hstands⟩ := s
    obtain ⟨type, length, handle⟩ := header
    exact congr (congr (congrArg Header.mk hshows.type_eq) (UInt8.toNat_inj.mp hlength))
      hshows.handle_eq
  have hstring : s.string = selected c.texts := funext hshows.string_eq
  have hfields : s.formatted.occursAt (m.encodeFields numbers) 4 = true := by
    have hlist : s.formatted.toList =
        c.type :: c.header.length :: toLittleEndian 2 c.handle.toNat ++
          m.encodeFields numbers ++ extra := by
      rw [hshows.formatted_eq, StructureContent.encodeFormatted, hbody]
      simp [StructureContent.header, hbody]
    have hformatted : s.formatted = (c.type :: c.header.length ::
        toLittleEndian 2 c.handle.toNat ++ m.encodeFields numbers ++ extra).toArray := by
      rw [← hlist, Array.toArray_toList]
    rw [hformatted]
    exact occursAt_toArray_append _ _
  have hdevice : s.header.isOfType type minLength = true := by
    have hlength := hshows.toNat_length
    rw [hbody, List.length_append, length_encodeFields] at hlength
    exact isOfType_iff.mpr ⟨hshows.type_eq.trans htype, by omega⟩
  rw [← hheader, ← hstring]
  exact ⟨s, hs, decode?_of_occursAt hdevice hfields⟩

/-! ## Areas that differ -/

/-- The places at which the number of a text stands. -/
def textFields : List Nat := [0x10, 0x11, 0x17, 0x18, 0x19, 0x1A, 0x2B]

/-- Areas with the same bytes in the places of the text numbers have the same text numbers. -/
theorem numbers_eq_of_reads {r : MemoryDevice} (hs : m.Reads s numbers) (ht : r.Reads t others)
    (h : ∀ field ∈ textFields, s.byte? field = t.byte? field) : numbers = others := by
  obtain ⟨n₁, n₂, n₃, n₄, n₅, n₆, n₇⟩ := numbers
  obtain ⟨o₁, o₂, o₃, o₄, o₅, o₆, o₇⟩ := others
  unfold Reads at hs ht
  simp only [textFields, List.forall_mem_cons] at h
  simp_all

/-- Areas in which the same record is laid out with the same text numbers have the same bytes in the
range of the record. -/
theorem byte?_eq_of_occursAt (hs : s.formatted.occursAt (m.encodeFields numbers) 4 = true)
    (ht : t.formatted.occursAt (m.encodeFields numbers) 4 = true) {i : Nat} (hlow : 4 ≤ i)
    (hhigh : i < 0x54) : s.byte? i = t.byte? i := by
  obtain ⟨k, rfl⟩ := Nat.exists_eq_add_of_le hlow
  have hk : k < (m.encodeFields numbers).length := by
    rw [length_encodeFields]
    omega
  have hbyte := occursAt_iff_getElem?.mp hs k hk
  have hother := occursAt_iff_getElem?.mp ht k hk
  exact hbyte.trans hother.symm

/-- **Areas that differ in the range of the record, but not in a text number, are read as different
records.** -/
theorem decode?_ne_of_byte?_ne (hsome : (decode? s).isSome = true)
    (htexts : ∀ field ∈ textFields, s.byte? field = t.byte? field)
    (hdiffer : ∃ i, 4 ≤ i ∧ i < 0x54 ∧ s.byte? i ≠ t.byte? i) :
    decode? s ≠ decode? t := by
  intro heq
  obtain ⟨i, hlow, hhigh, hne⟩ := hdiffer
  obtain ⟨m, hm⟩ := Option.isSome_iff_exists.mp hsome
  obtain ⟨numbers, hs, -⟩ := occursAt_of_decode? hm
  obtain ⟨others, ht, -⟩ := occursAt_of_decode? (heq.symm.trans hm)
  obtain rfl := numbers_eq_of_reads (occursAt_encodeFields_iff.mp hs)
    (occursAt_encodeFields_iff.mp ht) htexts
  exact hne (byte?_eq_of_occursAt hs ht hlow hhigh)

/-- **Decoding inverts the layout of a memory device record.** A structure is decoded exactly if it
is of type 17, declares at least 0x54 bytes, and the buffer holds so many. Of a structure that was
written with the fields of a record behind its header, anything behind them and any texts, the
record is read back, and each text is the one that its number refers to. The other way round, the
bytes from 0x04 up to 0x54 of every structure that is decoded are the fields of its record, one
behind the other and nothing in between. So two structures that differ in one of these bytes, but in
no text number, are read as different records. -/
theorem decode?_inverts_layout :
    (∀ s : Structure, (decode? s).isSome = true ↔
      s.type = 17 ∧ 0x54 ≤ s.length.toNat ∧ s.offset + 0x54 ≤ s.buffer.size) ∧
    (∀ (buf : Bytes) (offset : Nat) (c : StructureContent) (m : MemoryDevice)
        (numbers : TextNumbers) (extra : List UInt8),
      c.type = 17 → c.body = m.encodeFields numbers ++ extra →
      buf.occursAt c.encode offset = true →
      ∃ s, structureAt? buf offset = some s ∧
        decode? s = some (m.readBack numbers c.header (selected c.texts))) ∧
    (∀ (s : Structure) (m : MemoryDevice), decode? s = some m →
      ∃ numbers, (s.formatted.extract 4 0x54).toList = m.encodeFields numbers ∧
        m = m.readBack numbers s.header s.string) ∧
    ∀ s t : Structure, (decode? s).isSome = true →
      (∀ field ∈ textFields, s.byte? field = t.byte? field) →
      (∃ i, 4 ≤ i ∧ i < 0x54 ∧ s.byte? i ≠ t.byte? i) → decode? s ≠ decode? t := by
  refine ⟨fun s => isSome_decode?_iff_offset, ?_, ?_, ?_⟩
  · intro buf offset c m numbers extra htype hbody h
    exact decode?_of_encode htype hbody h
  · intro s m h
    obtain ⟨numbers, hfields, hread⟩ := occursAt_of_decode? h
    have hbytes := extract_of_occursAt hfields
    rw [length_encodeFields] at hbytes
    exact ⟨numbers, hbytes, hread⟩
  · intro s t hsome htexts hdiffer
    exact decode?_ne_of_byte?_ne hsome htexts hdiffer

/-- A memory device with a size and a speed. -/
def sampleDevice : MemoryDevice where
  structureType := 17
  length := 0x55
  handle := 0x1100
  physicalMemoryArrayHandle := 0x1000
  memoryErrorInformationHandle := 0xFFFE
  totalWidth := 72
  dataWidth := 64
  size := 16384
  formFactor := 9
  deviceSet := 0
  deviceLocator := ""
  bankLocator := ""
  memoryType := 0x22
  typeDetail := 0x80
  speed := 4800
  manufacturer := ""
  serialNumber := ""
  assetTag := ""
  partNumber := ""
  attributes := 2
  extendedSize := 0
  configuredMemorySpeed := 4800
  minimumVoltage := 1100
  maximumVoltage := 1100
  configuredVoltage := 1100
  memoryTechnology := 3
  memoryOperatingModeCapability := 8
  firmwareVersion := ""
  moduleManufacturerId := 0xCE80
  moduleProductId := 0
  memorySubsystemControllerManufacturerId := 0
  memorySubsystemControllerProductId := 0
  nonVolatileSize := 0
  volatileSize := 17179869184
  cacheSize := 0
  logicalSize := 17179869184

/-- Numbers that refer to the first and the second text, to none, and to one that does not exist. -/
def sampleNumbers : TextNumbers where
  deviceLocator := 1
  bankLocator := 2
  manufacturer := 0
  serialNumber := 0
  assetTag := 0
  partNumber := 3
  firmwareVersion := 0

/-- A structure with the fields of the sample device at the given speed, one byte behind them, and
two texts. -/
def sampleContent (speed : UInt16) : StructureContent where
  type := 17
  handle := 0x1100
  body := MemoryDevice.encodeFields { sampleDevice with speed } sampleNumbers ++ [0xEE]
  texts := [[0x41], [0x42, 0xFF]]
  length_body := by rw [List.length_append, length_encodeFields]; decide
  nil_notMem := by decide
  zero_notMem := by decide

/-- The sample structure behind a byte of something else. -/
def sampleBuffer (speed : UInt16) : Bytes :=
  (0 :: (sampleContent speed).encode).toArray

/-- The sample structure stands at offset 1. -/
theorem occursAt_sampleBuffer (speed : UInt16) :
    (sampleBuffer speed).occursAt (sampleContent speed).encode 1 = true := by
  have hplaced := @occursAt_toArray_append (sampleContent speed).encode [0] []
  rw [List.append_nil] at hplaced
  exact hplaced

/-- The view of the sample structure. -/
def sampleStructure (speed : UInt16) : Structure where
  buffer := sampleBuffer speed
  offset := 1
  header := (sampleContent speed).header
  header_eq := StructureContent.headerAt?_of_occursAt
    (occursAt_append.mp (occursAt_sampleBuffer speed)).1

/-- The sample device is read back with its two texts, laid out as its bytes, and at another speed
it is read as another record. -/
theorem decode?_inverts_layout_sample :
    (∃ s, structureAt? (sampleBuffer 4800) 1 = some s ∧ ∃ m, decode? s = some m ∧
      m.speed = 4800 ∧ m.deviceLocator = "A" ∧ m.bankLocator = "B\uFFFD" ∧
      m.partNumber = "" ∧
      ∃ numbers, (s.formatted.extract 4 0x54).toList = m.encodeFields numbers) ∧
    decode? (sampleStructure 4800) ≠ decode? (sampleStructure 5600) := by
  obtain ⟨hsome, hread, hwritten, hdiffer⟩ := decode?_inverts_layout
  constructor
  · obtain ⟨s, hs, hdevice⟩ := hread (sampleBuffer 4800) 1 (sampleContent 4800)
      { sampleDevice with speed := 4800 } sampleNumbers [0xEE] rfl rfl (occursAt_sampleBuffer 4800)
    obtain ⟨numbers, hbytes, -⟩ := hwritten s _ hdevice
    refine ⟨s, hs, _, hdevice, rfl, ?_, ?_, ?_, numbers, hbytes⟩
    · decide +kernel
    · decide +kernel
    · decide +kernel
  · refine hdiffer _ _ ((hsome _).mpr ⟨rfl, ?_, ?_⟩) ?_ ⟨0x15, ?_, ?_, ?_⟩
    all_goals decide +kernel

end MemoryDevice

end ManagedRegion.Smbios
