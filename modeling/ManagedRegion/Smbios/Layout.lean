import ManagedRegion.Smbios.MemoryDevice

/-!
# Layout: structures as bytes

A structure is written as its header, the rest of its formatted area, and its string set. Neither
the texts nor the table carry their length, so a text may be neither empty nor hold a zero byte.
`StructureContent.encode` writes one structure, `encodeTable` a table of them, and
`MemoryDevice.encodeFields` the formatted area of a memory device.
-/

namespace ManagedRegion.Smbios

/-! ## Structures -/

/-- A string set as bytes: each text with a zero byte behind it, and one more at the end; two zero
bytes if there is no text. -/
def StringSet.encode (texts : List (List UInt8)) : List UInt8 :=
  if texts.isEmpty then [0, 0] else texts.flatMap (· ++ [0]) ++ [0]

/-- What a structure says. -/
structure StructureContent where
  /-- The kind of structure. -/
  type : UInt8
  /-- The number by which other structures refer to this one. -/
  handle : UInt16
  /-- The formatted area behind the header. -/
  body : List UInt8
  /-- The bytes of its texts. -/
  texts : List (List UInt8)
  /-- The formatted area has room for the header in a length of one byte. -/
  length_body : body.length ≤ 251
  /-- No text is empty. -/
  nil_notMem : [] ∉ texts
  /-- No text holds a zero byte. -/
  zero_notMem : ∀ text ∈ texts, (0 : UInt8) ∉ text

namespace StructureContent

/-- The header of a structure. -/
def header (c : StructureContent) : Header :=
  ⟨c.type, UInt8.ofNat (Header.size + c.body.length), c.handle⟩

/-- The formatted area of a structure, header included. -/
def encodeFormatted (c : StructureContent) : List UInt8 :=
  c.type :: UInt8.ofNat (Header.size + c.body.length) ::
    (Bytes.toLittleEndian 2 c.handle.toNat ++ c.body)

/-- A structure as bytes. -/
def encode (c : StructureContent) : List UInt8 :=
  c.encodeFormatted ++ StringSet.encode c.texts

end StructureContent

/-- A table as bytes: its structures one after the other, then padding. -/
def encodeTable (contents : List StructureContent) (padding : Nat) : Bytes :=
  (contents.flatMap StructureContent.encode ++ List.replicate padding 0).toArray

/-! ## Memory devices -/

/-- The numbers of the texts that a memory device refers to. -/
structure MemoryDevice.TextNumbers where
  /-- The number of the label of the socket. -/
  deviceLocator : UInt8
  /-- The number of the label of the bank. -/
  bankLocator : UInt8
  /-- The number of the manufacturer's name. -/
  manufacturer : UInt8
  /-- The number of the serial number. -/
  serialNumber : UInt8
  /-- The number of the asset tag. -/
  assetTag : UInt8
  /-- The number of the part number. -/
  partNumber : UInt8
  /-- The number of the version of the device's firmware. -/
  firmwareVersion : UInt8

/-- The bytes from 0x04 up to 0x54 of the formatted area of a memory device: its numbers in the
order of the record, and in the place of each text the number of the text. -/
def MemoryDevice.encodeFields (m : MemoryDevice) (texts : MemoryDevice.TextNumbers) :
    List UInt8 :=
  let word (n : UInt16) := Bytes.toLittleEndian 2 n.toNat
  let qword (n : UInt64) := Bytes.toLittleEndian 8 n.toNat
  word m.physicalMemoryArrayHandle ++ word m.memoryErrorInformationHandle ++ word m.totalWidth ++
    word m.dataWidth ++ word m.size ++
    [m.formFactor, m.deviceSet, texts.deviceLocator, texts.bankLocator, m.memoryType] ++
    word m.typeDetail ++ word m.speed ++
    [texts.manufacturer, texts.serialNumber, texts.assetTag, texts.partNumber, m.attributes] ++
    Bytes.toLittleEndian 4 m.extendedSize.toNat ++ word m.configuredMemorySpeed ++
    word m.minimumVoltage ++ word m.maximumVoltage ++ word m.configuredVoltage ++
    [m.memoryTechnology] ++ word m.memoryOperatingModeCapability ++ [texts.firmwareVersion] ++
    word m.moduleManufacturerId ++ word m.moduleProductId ++
    word m.memorySubsystemControllerManufacturerId ++ word m.memorySubsystemControllerProductId ++
    qword m.nonVolatileSize ++ qword m.volatileSize ++ qword m.cacheSize ++ qword m.logicalSize

/-- The fields fill eighty bytes. -/
theorem MemoryDevice.length_encodeFields (m : MemoryDevice) (texts : MemoryDevice.TextNumbers) :
    (m.encodeFields texts).length = 80 := by
  unfold encodeFields
  simp only [List.length_append, List.length_cons, List.length_nil, Bytes.length_toLittleEndian]

end ManagedRegion.Smbios
