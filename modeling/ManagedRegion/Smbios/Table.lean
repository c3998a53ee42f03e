import ManagedRegion.Smbios.Search

/-!
# Tables: the storage region of one structure table

A table is a region of exactly `Table.capacity` bytes. It is only replaced as a whole: cleared, then
filled from the front. The zero bytes behind the content mark the end of the table for every walk.
-/

namespace ManagedRegion.Smbios

/-- The number of bytes of every table. -/
def Table.capacity : Nat := 65536

/-- A region of `Table.capacity` bytes that holds a structure table. -/
structure Table where
  /-- The content, padding included. -/
  bytes : Bytes
  /-- A table has exactly its capacity. -/
  size_eq : bytes.size = Table.capacity

namespace Table

/-- The table of zero bytes. -/
def empty : Table :=
  ⟨Array.replicate capacity 0, by simp⟩

/-- Zeroes the whole table. -/
def clear (t : Table) : Table :=
  ⟨Array.replicate t.bytes.size 0, by simp [t.size_eq]⟩

/-- Every table that has been cleared is the table of zero bytes. -/
theorem clear_eq_empty (t : Table) : t.clear = empty := by
  simp [clear, empty, t.size_eq]

/-- Writes as much of `data` as fits over the front of the table. -/
def overwrite (t : Table) (data : Bytes) : Table :=
  ⟨data.extract 0 capacity ++ t.bytes.extract (min data.size capacity) capacity, by
    simp [t.size_eq]
    omega⟩

/-- Zeroes the table and writes as much of `data` as fits to its front. Returns the number of bytes
written as well. -/
def fill (t : Table) (data : Bytes) : Nat × Table :=
  (min data.size capacity, t.clear.overwrite data)

/-- The table that holds as much of `data` as fits, padded with zero bytes. -/
def ofBytes (data : Bytes) : Table :=
  (empty.fill data).2

/-- The number of bytes up to and including the last non-zero one. -/
def used (t : Table) : Nat :=
  t.bytes.usedLength

/-- One line that says how far the table is used. -/
def summary (t : Table) : String :=
  s!"ByteTable \x7b capacity: {t.bytes.size}, used: {t.used} \x7d"

end Table

end ManagedRegion.Smbios
