import ManagedRegion.Smbios.Header
import ManagedRegion.Smbios.StringSet

/-!
# Structures: a view of one structure in a buffer

A `Structure` is an offset of a buffer at which a structure begins; its header comes with the proof
that it stands there. Field reads are bounded by the formatted area: a field that does not lie
wholly inside it, or inside the buffer, reads as `none`.
-/

namespace ManagedRegion.Smbios

/-- A structure that begins at an offset of a buffer. -/
structure Structure where
  /-- The buffer that holds the structure. -/
  buffer : Bytes
  /-- Where the structure begins. -/
  offset : Nat
  /-- Its first four bytes. -/
  header : Header
  /-- The header is the one that stands in the buffer. -/
  header_eq : headerAt? buffer offset = some header

/-- The structure that begins at `offset`, if one does. -/
def structureAt? (buf : Bytes) (offset : Nat) : Option Structure :=
  match h : headerAt? buf offset with
  | none => none
  | some header => some ⟨buf, offset, header, h⟩

namespace Structure

/-- The kind of structure. -/
def type (s : Structure) : UInt8 := s.header.type

/-- The declared length of the formatted area. -/
def length (s : Structure) : UInt8 := s.header.length

/-- The number by which other structures refer to this one. -/
def handle (s : Structure) : UInt16 := s.header.handle

/-- The offset of the string set. -/
def stringArea (s : Structure) : Nat := s.offset + s.length.toNat

/-- The formatted area, header included, as far as the buffer holds it. -/
def formatted (s : Structure) : Bytes :=
  s.buffer.extract s.offset s.stringArea

/-! ## Fields -/

/-- The byte at `field` in the formatted area. -/
def byte? (s : Structure) (field : Nat) : Option UInt8 :=
  s.formatted[field]?

/-- The number of two bytes at `field` in the formatted area. -/
def word? (s : Structure) (field : Nat) : Option UInt16 :=
  (s.formatted.number? field 2).map UInt16.ofNat

/-- The number of four bytes at `field` in the formatted area. -/
def dword? (s : Structure) (field : Nat) : Option UInt32 :=
  (s.formatted.number? field 4).map UInt32.ofNat

/-- The number of eight bytes at `field` in the formatted area. -/
def qword? (s : Structure) (field : Nat) : Option UInt64 :=
  (s.formatted.number? field 8).map UInt64.ofNat

/-! ## Texts -/

/-- The text with the given number, empty if there is none. -/
def string (s : Structure) (number : UInt8) : String :=
  StringSet.resolve s.buffer s.stringArea number.toNat

/-- The text whose number stands at `field`, empty if the formatted area does not reach there. -/
def stringAt (s : Structure) (field : Nat) : String :=
  match s.byte? field with
  | some number => s.string number
  | none => ""

/-- Every text of the structure, in order. -/
def strings (s : Structure) : List String :=
  StringSet.all s.buffer s.stringArea

/-! ## The structure that follows -/

/-- The structure that begins where this one ends. -/
def next? (s : Structure) : Option Structure := do
  let after ← Smbios.next? s.buffer s.offset
  structureAt? s.buffer after

end Structure

/-- A structure begins exactly where a header that begins one stands. -/
theorem isSome_structureAt? (buf : Bytes) (offset : Nat) :
    (structureAt? buf offset).isSome = (headerAt? buf offset).isSome := by
  unfold structureAt?
  split
  next h => simp [h]
  next h => simp [h]

/-- The structure that begins where another one was found is that one. -/
theorem structureAt?_self (s : Structure) : structureAt? s.buffer s.offset = some s := by
  unfold structureAt?
  split
  next h => simp [s.header_eq] at h
  next header h =>
    obtain ⟨buffer, offset, own, hown⟩ := s
    obtain rfl := Option.some.inj (hown.symm.trans h)
    rfl

/-- A view begins where it was asked to. -/
theorem offset_of_structureAt? {buf : Bytes} {offset : Nat} {s : Structure}
    (h : structureAt? buf offset = some s) : s.offset = offset := by
  unfold structureAt? at h
  split at h
  · simp at h
  · obtain rfl := Option.some.inj h
    rfl

end ManagedRegion.Smbios
