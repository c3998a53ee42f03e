import ManagedRegion.Bytes

/-!
# Headers: where structures begin and end

A structure table has no index. A structure is a header of four bytes (type, length, handle), the
rest of its formatted area, and a set of strings that two zero bytes close. `headerAt?` says whether
a structure begins at an offset, and `next?` where the one there ends. The end lies strictly behind
the beginning and inside the buffer (`next?_bounds`), so every walk comes to its end.
-/

namespace ManagedRegion.Smbios

/-- The four bytes at the beginning of every structure. -/
structure Header where
  /-- The kind of structure. -/
  type : UInt8
  /-- The length of the formatted area, these four bytes included. -/
  length : UInt8
  /-- The number by which other structures refer to this one. -/
  handle : UInt16
  deriving DecidableEq

/-- The number of bytes of a header. -/
def Header.size : Nat := 4

/-- The header in the four bytes at `offset`, whatever they say. -/
def Header.parse? (buf : Bytes) (offset : Nat) : Option Header := do
  let type ← buf[offset]?
  let length ← buf[offset + 1]?
  let handle ← buf.number? (offset + 2) 2
  return ⟨type, length, UInt16.ofNat handle⟩

/-- Zero type and zero length: the padding behind the last structure. -/
def Header.isEndMarker (header : Header) : Bool :=
  header.type == 0 && header.length == 0

/-- Whether a structure can begin with this header: it marks no end, and the formatted area that it
declares has room for the header itself. -/
def Header.beginsStructure (header : Header) : Bool :=
  !header.isEndMarker && Header.size ≤ header.length.toNat

/-- Whether the structure is of type `type` and declares at least `minLength` bytes. -/
def Header.isOfType (type minLength : UInt8) (header : Header) : Bool :=
  header.type == type && minLength ≤ header.length

/-- The header of the structure that begins at `offset`; `none` at the end of the table. -/
def headerAt? (buf : Bytes) (offset : Nat) : Option Header :=
  (Header.parse? buf offset).filter Header.beginsStructure

/-! ## The end of a structure -/

/-- The least offset from `start` on at which two zero bytes stand in the buffer. -/
def doubleNull? (buf : Bytes) (start : Nat) : Option Nat :=
  if start + 1 < buf.size then
    if buf[start]? = some 0 ∧ buf[start + 1]? = some 0 then some start
    else doubleNull? buf (start + 1)
  else
    none
termination_by buf.size - start

/-- The offset behind the structure at `offset`: behind the first two zero bytes that follow its
formatted area. -/
def next? (buf : Bytes) (offset : Nat) : Option Nat := do
  let length ← buf[offset + 1]?
  let closing ← doubleNull? buf (offset + length.toNat)
  return closing + 2

/-- Two zero bytes are found at or behind the start, and inside the buffer. -/
theorem doubleNull?_bounds {buf : Bytes} {start p : Nat} (h : doubleNull? buf start = some p) :
    start ≤ p ∧ p + 1 < buf.size := by
  fun_induction doubleNull? buf start with
  | case1 start hin _ =>
    obtain rfl := Option.some.inj h
    exact ⟨Nat.le_refl _, hin⟩
  | case2 start _ _ ih =>
    have := ih h
    omega
  | case3 => simp at h

/-- The next structure begins behind this one's two first bytes and not behind the buffer. -/
theorem next?_bounds {buf : Bytes} {offset after : Nat} (h : next? buf offset = some after) :
    offset + 2 ≤ after ∧ after ≤ buf.size := by
  simp only [next?, Option.bind_eq_bind, Option.bind_eq_some_iff] at h
  obtain ⟨length, -, closing, hclosing, hafter⟩ := h
  have := doubleNull?_bounds hclosing
  simp only [pure, Option.some.injEq] at hafter
  omega

/-- A step forward shortens what is left of the buffer. -/
theorem sub_lt_of_next? {buf : Bytes} {offset after : Nat} (h : next? buf offset = some after) :
    buf.size - after < buf.size - offset := by
  have := next?_bounds h
  omega

end ManagedRegion.Smbios
