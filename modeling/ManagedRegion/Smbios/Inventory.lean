import ManagedRegion.Smbios.MemoryDevice

/-!
# Inventory: the summary of a table

An inventory counts the structures that a management controller reports on, and reads the texts of
the firmware and of the system out of the first structure of their type.
-/

namespace ManagedRegion.Smbios

/-- A firmware component. -/
structure FirmwareComponent where
  /-- Its name. -/
  name : String
  /-- Its version. -/
  version : String
  deriving DecidableEq

/-- The summary of a table. -/
structure Inventory where
  /-- Who made the system firmware. -/
  biosVendor : String
  /-- The version of the system firmware. -/
  biosVersion : String
  /-- Who made the system. -/
  systemManufacturer : String
  /-- The name of the system. -/
  systemProduct : String
  /-- The number of baseboards. -/
  baseboards : Nat
  /-- The number of processors. -/
  processors : Nat
  /-- The number of memory devices, decodable or not. -/
  memoryDevices : Nat
  /-- The number of PCI Express slots. -/
  pcieSlots : Nat
  /-- The number of trusted platform modules. -/
  tpmDevices : Nat
  /-- The firmware components, in table order. -/
  firmware : List FirmwareComponent
  deriving DecidableEq

namespace Inventory

/-- The type of structures on the system firmware. -/
def biosType : UInt8 := 0

/-- The type of structures on the system. -/
def systemType : UInt8 := 1

/-- The type of baseboard structures. -/
def baseboardType : UInt8 := 2

/-- The type of processor structures. -/
def processorType : UInt8 := 4

/-- The type of system slot structures. -/
def slotType : UInt8 := 9

/-- The type of trusted platform module structures. -/
def tpmType : UInt8 := 43

/-- The type of firmware component structures. -/
def firmwareType : UInt8 := 45

/-- Whether the code of a slot denotes a PCI Express slot. -/
def isPcieSlot (code : UInt8) : Bool :=
  (0x1F ≤ code && code ≤ 0x28) || (0xA5 ≤ code && code ≤ 0xB6) || (0xB8 ≤ code && code ≤ 0xC6)

/-- Whether the structure of a slot carries the code of a PCI Express slot. -/
def hasPcieSlot (slot : Structure) : Bool :=
  (slot.byte? 5).any isPcieSlot

/-- The text that the structure, if there is one, refers to at `field`. -/
def textOf (s : Option Structure) (field : Nat) : String :=
  match s with
  | some s => s.stringAt field
  | none => ""

/-- The summary of a table. -/
def collect (t : Table) : Inventory :=
  let bios := firstOfType? t.bytes 0 biosType 0
  let system := firstOfType? t.bytes 0 systemType 0
  { biosVendor := textOf bios 4
    biosVersion := textOf bios 5
    systemManufacturer := textOf system 4
    systemProduct := textOf system 5
    baseboards := countOfType t.bytes baseboardType 0
    processors := countOfType t.bytes processorType 0
    memoryDevices := countOfType t.bytes MemoryDevice.type 0
    pcieSlots := (structuresOfType t.bytes slotType).countP hasPcieSlot
    tpmDevices := countOfType t.bytes tpmType 0
    firmware := (structuresOfType t.bytes firmwareType).map fun s =>
      ⟨s.stringAt 4, s.stringAt 5⟩ }

end Inventory

end ManagedRegion.Smbios
