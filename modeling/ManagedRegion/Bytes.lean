import ManagedRegion.Text.Digits

/-!
# Bytes: buffers, numbers in byte order, hexadecimal text

A buffer is an array of bytes that is only ever read through checked accesses. Numbers are read and
written in little-endian order through `ofLittleEndian` and `toLittleEndian`; `number?` reads one
out of a buffer and fails exactly when it would leave the buffer (`number?_eq_some_iff`).
-/

namespace ManagedRegion

/-- A buffer of bytes. -/
abbrev Bytes := Array UInt8

namespace Bytes

/-! ## Numbers in byte order -/

/-- The number whose base-256 digits, least significant first, are the given bytes. -/
def ofLittleEndian : List UInt8 → Nat
  | [] => 0
  | b :: rest => b.toNat + 256 * ofLittleEndian rest

/-- The `width` least significant base-256 digits of a number, least significant first. -/
def toLittleEndian : (width n : Nat) → List UInt8
  | 0, _ => []
  | width + 1, n => UInt8.ofNat (n % 256) :: toLittleEndian width (n / 256)

/-- The `width` least significant base-256 digits of a number, most significant first. -/
def toBigEndian (width n : Nat) : List UInt8 :=
  (toLittleEndian width n).reverse

/-- Writing a number takes as many bytes as asked for. -/
@[simp] theorem length_toLittleEndian (width n : Nat) :
    (toLittleEndian width n).length = width := by
  induction width generalizing n with
  | zero => rfl
  | succ width ih => simp [toLittleEndian, ih]

/-- What is read back is the number modulo the range of the width. -/
theorem ofLittleEndian_toLittleEndian (width n : Nat) :
    ofLittleEndian (toLittleEndian width n) = n % Nat.pow 256 width := by
  induction width generalizing n with
  | zero => exact (Nat.mod_one n).symm
  | succ width ih =>
    have hdigit : (UInt8.ofNat (n % 256)).toNat = n % 256 := by
      simp [UInt8.toNat_ofNat']
    have hmod := Nat.mod_mul (x := n) (a := 256) (b := Nat.pow 256 width)
    rw [toLittleEndian, ofLittleEndian, ih, hdigit, ← hmod, Nat.mul_comm]
    rfl

/-- Writing the number of some bytes gives the bytes back. -/
theorem toLittleEndian_ofLittleEndian (bytes : List UInt8) :
    toLittleEndian bytes.length (ofLittleEndian bytes) = bytes := by
  induction bytes with
  | nil => rfl
  | cons b rest ih =>
    have hb : b.toNat < 256 := b.toNat_lt
    have hlow : (b.toNat + 256 * ofLittleEndian rest) % 256 = b.toNat := by omega
    have hhigh : (b.toNat + 256 * ofLittleEndian rest) / 256 = ofLittleEndian rest := by omega
    rw [List.length_cons, ofLittleEndian, toLittleEndian, hlow, hhigh, ih, UInt8.ofNat_toNat]

/-- The little-endian number in the `width` bytes at `offset`, if the buffer holds them all. -/
def number? (buf : Bytes) (offset width : Nat) : Option Nat :=
  if offset + width ≤ buf.size then
    some (ofLittleEndian (buf.extract offset (offset + width)).toList)
  else
    none

/-- A number is read exactly when its bytes lie inside the buffer. -/
theorem number?_eq_some_iff {buf : Bytes} {offset width n : Nat} :
    number? buf offset width = some n ↔
      offset + width ≤ buf.size ∧
        ofLittleEndian (buf.extract offset (offset + width)).toList = n := by
  unfold number?
  split
  · simp_all
  · simp only [reduceCtorEq, false_iff, not_and]
    omega

/-! ## Runs of bytes -/

/-- Whether the bytes of `pattern` stand in the buffer from `offset` on. -/
def occursAt (buf : Bytes) : (pattern : List UInt8) → (offset : Nat) → Bool
  | [], _ => true
  | b :: rest, offset => buf[offset]? == some b && occursAt buf rest (offset + 1)

/-- The least offset from `start` on at which `pattern` stands in the buffer. -/
def findFrom? (buf : Bytes) (pattern : List UInt8) (start : Nat) : Option Nat :=
  if start < buf.size then
    if buf.occursAt pattern start then some start else findFrom? buf pattern (start + 1)
  else
    none
termination_by buf.size - start

/-- The number of bytes up to and including the last non-zero one among the first `n`. -/
def usedWithin (buf : Bytes) : (n : Nat) → Nat
  | 0 => 0
  | n + 1 => if buf[n]?.getD 0 = 0 then usedWithin buf n else n + 1

/-- The number of bytes up to and including the last non-zero one. -/
def usedLength (buf : Bytes) : Nat :=
  buf.usedWithin buf.size

/-! ## Hexadecimal text -/

/-- The two lower-case hexadecimal digits of a byte. -/
def hexPair (b : UInt8) : List Char :=
  [Digits.lowerHex (b.toNat / 16), Digits.lowerHex (b.toNat % 16)]

/-- The buffer as lower-case hexadecimal text, two digits a byte. -/
def hex (buf : Bytes) : String :=
  String.ofList (buf.toList.flatMap hexPair)

end Bytes

end ManagedRegion
