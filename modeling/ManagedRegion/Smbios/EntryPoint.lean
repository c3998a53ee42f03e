import ManagedRegion.Bytes

/-!
# Entry points: the anchor and the version of a table image

An image carries an entry point somewhere in its bytes, in one of two formats. Each format has an
anchor (`_SM_` or `_SM3_`), a size, and a place for the two bytes of the version; nothing else of it
is read. The older format is looked for first, in the whole buffer. `locate` commits to the first
occurrence of an anchor, and `checkVersion` lets only the supported versions pass.
-/

namespace ManagedRegion.Smbios

/-- A version of the specification. -/
structure Version where
  /-- The number before the point. -/
  major : UInt8
  /-- The number behind the point. -/
  minor : UInt8
  deriving DecidableEq

namespace Version

/-- The versions that the gate lets pass. -/
def supported : List Version :=
  [⟨3, 0⟩, ⟨3, 2⟩, ⟨3, 3⟩, ⟨3, 4⟩, ⟨3, 5⟩, ⟨3, 6⟩, ⟨3, 7⟩, ⟨3, 8⟩]

/-- Whether the gate lets the version pass. -/
def isSupported (v : Version) : Bool :=
  supported.contains v

/-- The version as text, such as `3.2`. -/
def text (v : Version) : String :=
  s!"{v.major}.{v.minor}"

end Version

/-- The format of an entry point. -/
inductive EntryPointKind where
  /-- The 32-bit entry point of version 2.1. -/
  | smbios21
  /-- The 64-bit entry point of version 3.0. -/
  | smbios30
  deriving DecidableEq

namespace EntryPointKind

/-- The bytes by which an entry point is found: `_SM_` or `_SM3_`. -/
def anchor : EntryPointKind → List UInt8
  | smbios21 => [0x5F, 0x53, 0x4D, 0x5F]
  | smbios30 => [0x5F, 0x53, 0x4D, 0x33, 0x5F]

/-- The number of bytes of an entry point. -/
def size : EntryPointKind → Nat
  | smbios21 => 31
  | smbios30 => 24

/-- Where the major version stands in an entry point; the minor version follows it. -/
def versionOffset : EntryPointKind → Nat
  | smbios21 => 6
  | smbios30 => 7

/-- The name of the format. -/
def name : EntryPointKind → String
  | smbios21 => "Smbios21"
  | smbios30 => "Smbios30"

end EntryPointKind

/-- An entry point that was found in a buffer. -/
structure EntryPoint where
  /-- Its format. -/
  kind : EntryPointKind
  /-- Where its anchor begins. -/
  offset : Nat
  /-- The version that it carries. -/
  version : Version
  deriving DecidableEq

namespace EntryPoint

/-- Why a buffer has no acceptable entry point. -/
inductive Failure where
  /-- Neither anchor occurs. -/
  | anchorNotFound
  /-- Fewer bytes than an entry point of the format needs follow from its anchor on. -/
  | truncated (offset needed available : Nat)
  /-- The gate does not let the version pass. -/
  | unsupportedVersion (version : Version)
  deriving DecidableEq

/-- The text of a failure. -/
def Failure.message : Failure → String
  | anchorNotFound => "Neither SMBIOS 2.1 nor 3.0 anchor string found"
  | truncated offset needed available =>
    s!"Entry point at offset {offset} needs {needed} bytes, {available} available"
  | unsupportedVersion version => s!"Unsupported SMBIOS version: {version.text}"

/-- The first offset at which the anchor of a format occurs. -/
def findAnchor? (buf : Bytes) (kind : EntryPointKind) : Option Nat :=
  buf.findFrom? kind.anchor 0

/-- Reads the entry point of the given format at `offset`. -/
def readAt (buf : Bytes) (kind : EntryPointKind) (offset : Nat) : Except Failure EntryPoint :=
  let truncated : Failure := .truncated offset kind.size (buf.size - offset)
  if buf.size - offset < kind.size then
    .error truncated
  else
    match buf[offset + kind.versionOffset]?, buf[offset + kind.versionOffset + 1]? with
    | some major, some minor => .ok ⟨kind, offset, ⟨major, minor⟩⟩
    | _, _ => .error truncated

/-- Finds the entry point: at the first 2.1 anchor, or at the first 3.0 anchor if there is no 2.1
anchor at all. -/
def locate (buf : Bytes) : Except Failure EntryPoint :=
  match findAnchor? buf .smbios21 with
  | some offset => readAt buf .smbios21 offset
  | none =>
    match findAnchor? buf .smbios30 with
    | some offset => readAt buf .smbios30 offset
    | none => .error .anchorNotFound

/-- Finds the entry point and lets only the supported versions pass. -/
def checkVersion (buf : Bytes) : Except Failure EntryPoint :=
  match locate buf with
  | .error failure => .error failure
  | .ok entryPoint =>
    if entryPoint.version.isSupported then .ok entryPoint
    else .error (.unsupportedVersion entryPoint.version)

/-- A minimal entry point: the anchor, its own size in the byte before the version, the version, and
zero bytes everywhere else. -/
def encode (kind : EntryPointKind) (version : Version) : List UInt8 :=
  let front := kind.anchor ++ List.replicate (kind.versionOffset - 1 - kind.anchor.length) 0
  let middle := [UInt8.ofNat kind.size, version.major, version.minor]
  front ++ middle ++ List.replicate (kind.size - (kind.versionOffset + 2)) 0

/-- An entry point is written with the number of bytes of its format. -/
theorem length_encode (kind : EntryPointKind) (version : Version) :
    (encode kind version).length = kind.size := by
  cases kind <;> rfl

end EntryPoint

end ManagedRegion.Smbios
