import ManagedRegion.Image.Header
import ManagedRegion.Image.Store
import ManagedRegion.Smbios.EntryPoint
import ManagedRegion.Smbios.Table

/-!
# Load: from the store into the table

A load clears the table before anything is read, fills it with the content that the image declares,
and then asks the version gate. So after a load that fails the table is either all zero or holds the
image that was refused.
-/

namespace ManagedRegion.Image

open Smbios

/-- Why a load fails. -/
inductive LoadFailure where
  /-- The store cannot be read. -/
  | unreadable (failure : ReadFailure)
  /-- The image is shorter than a header. -/
  | headerTruncated (length : Nat)
  /-- The declared size exceeds the capacity of a table. -/
  | dataTooLarge (declared : UInt32)
  /-- The content has no acceptable entry point. -/
  | entryPoint (failure : EntryPoint.Failure)
  deriving DecidableEq

/-- The text of a failure to load. -/
def LoadFailure.message : LoadFailure → String
  | unreadable failure => "Backing store I/O error: " ++ failure.message
  | headerTruncated length =>
    s!"Backing store holds {length} bytes, smaller than the {Header.size}-byte header"
  | dataTooLarge declared =>
    s!"Declared data size {declared} exceeds table capacity {Table.capacity}"
  | entryPoint failure => failure.message

/-- What a load that succeeds reports. -/
structure LoadReport where
  /-- The header of the image. -/
  header : Header
  /-- The number of bytes written to the table: fewer than declared if the image is short. -/
  copied : Nat
  /-- The entry point of the table. -/
  entryPoint : EntryPoint
  deriving DecidableEq

/-- The content of an image: the bytes behind the header, as many as declared and present. -/
def content (header : Header) (image : Bytes) : Bytes :=
  image.extract Header.size (Header.size + header.dataSize.toNat)

/-- Loads the table with an image that could be read. -/
def loadBytes (image : Bytes) (table : Table) : Except LoadFailure LoadReport × Table :=
  match Header.parse? image with
  | none => (.error (.headerTruncated image.size), table.clear)
  | some header =>
    if Table.capacity < header.dataSize.toNat then
      (.error (.dataTooLarge header.dataSize), table.clear)
    else
      let (copied, filled) := table.clear.fill (content header image)
      match EntryPoint.checkVersion filled.bytes with
      | .error failure => (.error (.entryPoint failure), filled)
      | .ok entryPoint => (.ok ⟨header, copied, entryPoint⟩, filled)

/-- Loads the table with the image of the store. Returns what came of it, and the table
afterwards. -/
def load (store : Store) (table : Table) : Except LoadFailure LoadReport × Table :=
  match store.read with
  | .error failure => (.error (.unreadable failure), table.clear)
  | .ok image => loadBytes image table

end ManagedRegion.Image
