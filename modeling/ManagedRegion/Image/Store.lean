import ManagedRegion.Bytes

/-!
# Stores: where the latest image is kept

A store holds the image in memory, where it can be replaced while the service runs, or in a file.
Being readable says only that the store can be opened: a directory in the place of the file opens
and still cannot be read.
-/

namespace ManagedRegion.Image

/-- What stands at the path of a file. -/
inductive FileContent where
  /-- Nothing. -/
  | missing
  /-- A directory. -/
  | directory
  /-- A file with these bytes. -/
  | bytes (content : Bytes)

/-- Where the latest image is kept. -/
inductive Store where
  /-- In memory, if an image is installed. -/
  | memory (image : Option Bytes)
  /-- In a file. -/
  | file (content : FileContent)

/-- Why a store cannot be read. -/
inductive ReadFailure where
  /-- No image is installed in memory. -/
  | noImage
  /-- There is no file. -/
  | noFile
  /-- A directory stands in the place of the file. -/
  | isDirectory
  deriving DecidableEq

/-- The text of a failure to read. -/
def ReadFailure.message : ReadFailure → String
  | noImage => "no table image installed"
  | noFile => "no such file"
  | isDirectory => "is a directory"

/-- The whole content of a file. -/
def FileContent.read : FileContent → Except ReadFailure Bytes
  | missing => .error .noFile
  | directory => .error .isDirectory
  | bytes content => .ok content

namespace Store

/-- The whole image: header and content. -/
def read : Store → Except ReadFailure Bytes
  | memory none => .error .noImage
  | memory (some image) => .ok image
  | file content => content.read

/-- Whether the store can be opened. -/
def isReadable : Store → Bool
  | memory image => image.isSome
  | file .missing => false
  | file _ => true

end Store

end ManagedRegion.Image
