import ManagedRegion.Smbios.Structure

/-!
# Machine: the stepper and the field readers in words of 64 bits

`next?` and the readers of a structure count in natural numbers, which have no limit. Offsets in
memory are words. In this file the stepper and the readers count in words: some of their sums are
checked before anything is read, and there is nothing to read where such a sum does not fit; the
others are made without a check, and from one of those that does not fit no result comes about.

A buffer in memory has less than 2⁶³ bytes.
-/

namespace ManagedRegion.Smbios.Machine

/-- Every buffer in memory is smaller than this. -/
def bufferLimit : Nat := 1 <<< 63

/-- The sum of two words, if a word can hold it. -/
def add? (a b : UInt64) : Option UInt64 :=
  if a.toNat + b.toNat < UInt64.size then some (a + b) else none

/-- A sum that fits is the sum of the numbers. -/
theorem add?_eq_some_iff {a b c : UInt64} : add? a b = some c ↔ c.toNat = a.toNat + b.toNat := by
  unfold add?
  split
  next hfits =>
    rw [Option.some.injEq, ← UInt64.toNat_inj, UInt64.toNat_add, Nat.mod_eq_of_lt hfits]
    exact eq_comm
  next hfits =>
    have hc := c.toNat_lt_size
    simp only [reduceCtorEq, false_iff]
    omega

/-- A sum does not fit if the sum of the numbers is too great. -/
theorem add?_eq_none_iff {a b : UInt64} :
    add? a b = none ↔ UInt64.size ≤ a.toNat + b.toNat := by
  simp [add?]

/-- The bytes between two words, if they are in order and the buffer holds the bytes. -/
def slice? (buf : Bytes) (start stop : UInt64) : Option (List UInt8) :=
  if start ≤ stop ∧ stop.toNat ≤ buf.size then
    some (buf.extract start.toNat stop.toNat).toList
  else
    none

/-- The `width` bytes at a word. The sum is checked. -/
def bytesAt? (buf : Bytes) (start width : UInt64) : Option (List UInt8) :=
  (add? start width).bind (slice? buf start)

/-- **Bytes at a word are there exactly if the buffer holds them all**, whether or not a word can
hold the offset behind them. -/
theorem bytesAt?_eq (buf : Bytes) (start width : UInt64) (hsize : buf.size < bufferLimit) :
    bytesAt? buf start width =
      if start.toNat + width.toNat ≤ buf.size then
        some (buf.extract start.toNat (start.toNat + width.toNat)).toList
      else none := by
  have hlimit : bufferLimit < UInt64.size := by decide
  unfold bytesAt?
  cases hstop : add? start width with
  | none =>
    have hover := add?_eq_none_iff.mp hstop
    rw [if_neg (by omega), Option.bind_none]
  | some stop =>
    have hsum := add?_eq_some_iff.mp hstop
    have hle : start ≤ stop := UInt64.le_iff_toNat_le.mpr (by omega)
    rw [Option.bind_some, slice?, hsum]
    simp only [hle, true_and]

/-! ## The stepper -/

/-- What comes of a round of the scan for two zero bytes. -/
inductive Round where
  /-- A sum that was not checked does not fit. -/
  | overflow
  /-- The scan is over. -/
  | stop (answer : Option UInt64)
  /-- The scan goes on. -/
  | again (cursor : UInt64)

/-- A round of the scan: looks at two bytes, and moves on by one if they are not both zero. -/
def round (buf : Bytes) (cursor : UInt64) : Round :=
  match bytesAt? buf cursor 2 with
  | none => .stop none
  | some pair =>
    if pair = [0, 0] then
      match add? cursor 2 with
      | none => .overflow
      | some after => .stop (some after)
    else
      match add? cursor 1 with
      | none => .overflow
      | some next => .again next

/-- The scan from a cursor comes to an answer in a number of rounds. It does not where it never
stops, nor where a sum does not fit. -/
inductive Scans (buf : Bytes) :
    (cursor : UInt64) → (rounds : Nat) → (answer : Option UInt64) → Prop where
  /-- The round is the last one. -/
  | stop {cursor : UInt64} {answer : Option UInt64} (h : round buf cursor = .stop answer) :
    Scans buf cursor 1 answer
  /-- The round moves on. -/
  | again {cursor next : UInt64} {rounds : Nat} {answer : Option UInt64}
    (h : round buf cursor = .again next) (rest : Scans buf next rounds answer) :
    Scans buf cursor (rounds + 1) answer

/-- The byte behind the one at an offset. The sum is checked. -/
def lengthAt? (buf : Bytes) (offset : UInt64) : Option UInt8 :=
  (add? offset 1).bind fun i => buf[i.toNat]?

/-- The stepper at an offset comes to an answer, with a number of rounds of the scan. The sum of the
offset and the declared length is not checked. -/
inductive Steps (buf : Bytes) (offset : UInt64) :
    (rounds : Nat) → (answer : Option UInt64) → Prop where
  /-- There is no byte that declares a length. -/
  | outside (h : lengthAt? buf offset = none) : Steps buf offset 0 none
  /-- The scan begins behind the formatted area. -/
  | scan {length : UInt8} {start : UInt64} {rounds : Nat} {answer : Option UInt64}
    (hlength : lengthAt? buf offset = some length)
    (hstart : add? offset length.toUInt64 = some start) (rest : Scans buf start rounds answer) :
    Steps buf offset rounds answer

/-! ## The readers of fields -/

/-- How many bytes a field has. -/
inductive Width where
  /-- One. -/
  | byte
  /-- Two. -/
  | word
  /-- Four. -/
  | dword
  /-- Eight. -/
  | qword

/-- The number of bytes of a field. -/
def Width.bytes : Width → Nat
  | byte => 1
  | word => 2
  | dword => 4
  | qword => 8

/-- The formatted area. The sum of the offset and the declared length is not checked; there is no
area if it does not fit, nor if it ends in front of its beginning. -/
def formatted? (s : Structure) : Option Bytes := do
  let offset := UInt64.ofNat s.offset
  let declared ← add? offset s.length.toUInt64
  let stop := if declared.toNat ≤ s.buffer.size then declared else UInt64.ofNat s.buffer.size
  if offset ≤ stop then some (s.buffer.extract offset.toNat stop.toNat) else none

/-- The number in the field of an area. A single byte is looked up, and the sum of the offset and
the width of any other field is checked. -/
def field? (area : Bytes) (width : Width) (field : UInt64) : Option Nat :=
  match width with
  | .byte => area[field.toNat]?.map UInt8.toNat
  | width => (bytesAt? area field (UInt64.ofNat width.bytes)).map Bytes.ofLittleEndian

/-- The number in a field of a structure, if the area can be taken at all. -/
def read? (s : Structure) (width : Width) (field : UInt64) : Option (Option Nat) :=
  (formatted? s).map fun area => field? area width field

end ManagedRegion.Smbios.Machine
