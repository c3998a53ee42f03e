import ManagedRegion.Bytes

/-!
# Image headers: the ten bytes in front of a table image

The host agent leaves its latest table as an image: a header of ten bytes, then the content. The
header holds the directory version, the kind of data, a timestamp and the declared size of the
content; both numbers are little-endian.
-/

namespace ManagedRegion.Image

/-- The header of an image. -/
structure Header where
  /-- The version of the directory that the image belongs to. -/
  dirVersion : UInt8
  /-- The kind of data. -/
  mdrType : UInt8
  /-- When the image was made. -/
  timestamp : UInt32
  /-- The declared size of the content. -/
  dataSize : UInt32
  deriving DecidableEq

namespace Header

/-- The number of bytes of a header. -/
def size : Nat := 10

/-- The header at the front of an image. -/
def parse? (image : Bytes) : Option Header := do
  let dirVersion ← image[0]?
  let mdrType ← image[1]?
  let timestamp ← image.number? 2 4
  let dataSize ← image.number? 6 4
  return ⟨dirVersion, mdrType, UInt32.ofNat timestamp, UInt32.ofNat dataSize⟩

/-- The ten bytes of a header. -/
def toBytes (header : Header) : List UInt8 :=
  header.dirVersion :: header.mdrType ::
    (Bytes.toLittleEndian 4 header.timestamp.toNat ++ Bytes.toLittleEndian 4 header.dataSize.toNat)

/-- A header is written with its number of bytes. -/
theorem length_toBytes (header : Header) : header.toBytes.length = size := by
  simp [toBytes, size]

end Header

/-- The kind of data of a structure table. -/
def tableType : UInt8 := 2

/-- The image of a structure table: a header that declares the size of the content, then the
content. -/
def encode (dirVersion : UInt8) (timestamp : UInt32) (data : Bytes) : Bytes :=
  (Header.toBytes ⟨dirVersion, tableType, timestamp, UInt32.ofNat data.size⟩).toArray ++ data

end ManagedRegion.Image
