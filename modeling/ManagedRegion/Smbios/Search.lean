import ManagedRegion.Smbios.Structure

/-!
# Search: looking structures up and listing them

Each search walks the buffer from an offset, structure by structure, and stops as soon as its answer
is known. A listing has at most `maxCount` structures, and a count goes no further either.
-/

namespace ManagedRegion.Smbios

/-- The most structures that any listing, count or position reaches. -/
def maxCount : Nat := 255

/-! ## The first of a kind -/

/-- The first structure from `start` on whose header is wanted. -/
def first? (buf : Bytes) (wanted : Header → Bool) (start : Nat) : Option Structure :=
  match structureAt? buf start with
  | none => none
  | some s =>
    if wanted s.header then some s else
    match _h : next? buf start with
    | none => none
    | some after => first? buf wanted after
termination_by buf.size - start
decreasing_by exact sub_lt_of_next? (by assumption)

/-- The first structure from `start` on that has the type and at least the length. -/
def firstOfType? (buf : Bytes) (start : Nat) (type minLength : UInt8) : Option Structure :=
  first? buf (Header.isOfType type minLength) start

/-- The structure of the type that has `n` others of the type before it, from `start` on. -/
def nthFrom? (buf : Bytes) (type : UInt8) : (n start : Nat) → Option Structure
  | 0, start => firstOfType? buf start type 0
  | n + 1, start => do
    let s ← firstOfType? buf start type 0
    let after ← next? buf s.offset
    nthFrom? buf type n after

/-- The structure at position `n`, counted from 0, among those of the type. -/
def nthOfType? (buf : Bytes) (type : UInt8) (n : Nat) : Option Structure :=
  if n < maxCount then nthFrom? buf type n 0 else none

/-! ## Listings -/

/-- The structures from `start` on in table order, at most `limit` of them. -/
def structuresFrom (buf : Bytes) : (limit start : Nat) → List Structure
  | 0, _ => []
  | limit + 1, start =>
    match structureAt? buf start with
    | none => []
    | some s =>
      s :: match next? buf start with
        | none => []
        | some after => structuresFrom buf limit after

/-- The structures of the buffer in table order. -/
def structures (buf : Bytes) : List Structure :=
  structuresFrom buf maxCount 0

/-- The structures of one type among those of the listing. -/
def structuresOfType (buf : Bytes) (type : UInt8) : List Structure :=
  (structures buf).filter (·.type == type)

/-- The first structure of the listing that carries the handle. -/
def byHandle? (buf : Bytes) (handle : UInt16) : Option Structure :=
  (structures buf).find? (·.handle == handle)

/-- The structures from `start` on that have the type and at least the length, at most `limit`. -/
def recordsFrom (buf : Bytes) (type minLength : UInt8) : (limit start : Nat) → List Structure
  | 0, _ => []
  | limit + 1, start =>
    match firstOfType? buf start type minLength with
    | none => []
    | some s =>
      s :: match next? buf s.offset with
        | none => []
        | some after => recordsFrom buf type minLength limit after

/-- The structures that have the type and at least the length, in table order. -/
def recordsOfType (buf : Bytes) (type minLength : UInt8) : List Structure :=
  recordsFrom buf type minLength maxCount 0

/-! ## Counts -/

/-- How many structures from `start` on have the type and at least the length, up to `limit`. -/
def countFrom (buf : Bytes) (type minLength : UInt8) : (limit start : Nat) → Nat
  | 0, _ => 0
  | limit + 1, start =>
    match firstOfType? buf start type minLength with
    | none => 0
    | some s =>
      match next? buf s.offset with
      | none => 1
      | some after => countFrom buf type minLength limit after + 1

/-- How many structures have the type and at least the length. -/
def countOfType (buf : Bytes) (type minLength : UInt8) : Nat :=
  countFrom buf type minLength maxCount 0

end ManagedRegion.Smbios
