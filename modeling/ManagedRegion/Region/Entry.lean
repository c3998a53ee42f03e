import ManagedRegion.Bytes

/-!
# Entries: the metadata of one data region

An entry names a region by an identity of 16 bytes and follows what becomes of its content: its
sizes, version and timestamp, the stage of its life and the lock that the protocol puts on it.
-/

namespace ManagedRegion.Region

/-- The number of bytes of an identity. -/
def DataId.size : Nat := 16

/-- The identity of a region. -/
abbrev DataId := Vector UInt8 DataId.size

/-- The identity of the region that holds the structure table. -/
def DataId.smbiosTable : DataId :=
  ⟨#[40, 41, 42, 43, 44, 45, 46, 47, 48, 49, 50, 51, 52, 53, 54, 0x42], rfl⟩

/-- The identity of zero bytes, carried by regions that no agent has named. -/
def DataId.zero : DataId :=
  Vector.replicate DataId.size 0

/-- The identity given by exactly 16 bytes. -/
def DataId.ofBytes? (bytes : Bytes) : Option DataId :=
  if h : bytes.size = DataId.size then some ⟨bytes, h⟩ else none

/-- The stage in the life of a region's content. -/
inductive Stage where
  /-- Nothing has been loaded. -/
  | init
  /-- Content has been loaded. -/
  | loaded
  /-- The metadata has changed since the content was loaded. -/
  | updated
  /-- New content is on its way. -/
  | updating
  deriving DecidableEq

/-- The byte that stands for a stage. -/
def Stage.toByte : Stage → UInt8
  | init => 0
  | loaded => 1
  | updated => 2
  | updating => 3

/-- The name of a stage. -/
def Stage.name : Stage → String
  | init => "Init"
  | loaded => "Loaded"
  | updated => "Updated"
  | updating => "Updating"

/-- Whether a region in this stage has content to offer. -/
def Stage.hasContent : Stage → Bool
  | loaded | updated => true
  | init | updating => false

/-- The lock between the agent that pushes and the local readers. -/
inductive Lock where
  /-- Free. -/
  | unlocked
  /-- Taken. -/
  | locked
  deriving DecidableEq

/-- The byte that stands for a lock. -/
def Lock.toByte : Lock → UInt8
  | unlocked => 0
  | locked => 1

/-- The name of a lock. -/
def Lock.name : Lock → String
  | unlocked => "Unlocked"
  | locked => "Locked"

/-- What the protocol says about the content of a region. -/
inductive Validity where
  /-- There is no content. -/
  | invalid
  /-- There is content. -/
  | valid
  /-- There is content, but it is locked. -/
  | locked
  deriving DecidableEq

/-- The byte that stands for a validity. -/
def Validity.toByte : Validity → UInt8
  | invalid => 0
  | valid => 1
  | locked => 2

/-- The name of a validity. -/
def Validity.name : Validity → String
  | invalid => "Invalid"
  | valid => "Valid"
  | locked => "Locked"

/-- The metadata of one region. -/
structure Entry where
  /-- The identity of the region. -/
  id : DataId
  /-- The size of the content. -/
  size : UInt32
  /-- The size that the agent has announced. -/
  dataSetSize : UInt32
  /-- The version of the content. -/
  dataVersion : UInt32
  /-- When the content was made. -/
  timestamp : UInt32
  /-- The stage of the content. -/
  stage : Stage
  /-- The lock on the region. -/
  lock : Lock
  deriving DecidableEq

namespace Entry

/-- The entry of a region of which nothing is known but its identity. -/
def fresh (id : DataId) : Entry :=
  ⟨id, 0, 0, 0, 0, .init, .unlocked⟩

/-- Whether an agent may begin to push content. A region without content is offered whatever its
lock. -/
def isAvailable (entry : Entry) : Bool :=
  match entry.stage with
  | .updating => false
  | .init => true
  | .loaded | .updated => entry.lock = .unlocked

/-- What the protocol says about the content of the region. -/
def validity (entry : Entry) : Validity :=
  match entry.stage, entry.lock with
  | .loaded, .locked | .updated, .locked => .locked
  | .loaded, .unlocked | .updated, .unlocked => .valid
  | .updating, _ | .init, _ => .invalid

/-- The version of the protocol, which opens every reply. -/
def protocolVersion : UInt8 := 2

/-- The reply that describes the region: protocol version, identity, validity, size, the low byte of
the version, timestamp. Sizes and times are big-endian. -/
def information (entry : Entry) : List UInt8 :=
  [protocolVersion] ++ entry.id.toList ++ [entry.validity.toByte] ++
    Bytes.toBigEndian 4 entry.size.toNat ++ [entry.dataVersion.toUInt8] ++
    Bytes.toBigEndian 4 entry.timestamp.toNat

/-- Every description takes twenty-seven bytes. -/
theorem length_information (entry : Entry) : entry.information.length = 27 := by
  have hid : entry.id.toList.length = 16 := Vector.length_toList
  simp [information, Bytes.toBigEndian, hid]

/-- Notes that content of the given version, time and size has been loaded. -/
def markLoaded (entry : Entry) (dataVersion timestamp size : UInt32) : Entry :=
  { entry with dataVersion, timestamp, size, stage := .loaded, lock := .unlocked }

/-- Takes over the metadata that an agent announces. Content that is there and whose metadata change
counts as updated. -/
def announce (entry : Entry) (dataSetSize dataVersion timestamp : UInt32) : Bool × Entry :=
  let changed := entry.dataSetSize ≠ dataSetSize ∨ entry.dataVersion ≠ dataVersion ∨
    entry.timestamp ≠ timestamp
  let stage := if changed ∧ entry.stage.hasContent then .updated else entry.stage
  (changed, { entry with dataSetSize, dataVersion, timestamp, stage })

end Entry

end ManagedRegion.Region
