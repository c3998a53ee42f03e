import ManagedRegion.Json
import ManagedRegion.Service.Request

/-!
# Reports: what a command prints

The reports are JSON values. The fields of a memory device stand in the order of the record; all
other objects have their fields in alphabetical order.
-/

namespace ManagedRegion.CommandLine

open Region Smbios

namespace Report

/-! ## Status -/

/-- One entry of a directory. -/
def entry (e : Entry) : Json :=
  .object [
    ("data_set_size", .ofUInt32 e.dataSetSize),
    ("data_version", .ofUInt32 e.dataVersion),
    ("id", .array (e.id.toList.map .ofUInt8)),
    ("lock", .string e.lock.name),
    ("size", .ofUInt32 e.size),
    ("stage", .string e.stage.name),
    ("timestamp", .ofUInt32 e.timestamp)]

/-- A directory. -/
def directory (d : Directory) : Json :=
  .object [
    ("agent_version", .ofUInt8 d.agentVersion),
    ("dir_entries", .ofUInt8 d.dirEntries),
    ("dir_version", .ofUInt8 d.dirVersion),
    ("entries", .array (d.entries.toList.map entry)),
    ("remote_dir_version", .ofUInt8 d.remoteDirVersion),
    ("status", .ofUInt8 d.status)]

/-- An entry point. -/
def entryPoint (e : EntryPoint) : Json :=
  .object [
    ("kind", .string e.kind.name),
    ("offset", .number e.offset),
    ("version", .object [
      ("major", .ofUInt8 e.version.major),
      ("minor", .ofUInt8 e.version.minor)])]

/-- The state of a service: its directory, what it says about each region, and the entry point of
its table. -/
def status (storePath : String) (s : Service) : Json :=
  .object [
    ("data_information", .array (s.directory.entries.toList.map fun e =>
      .string (Bytes.hex e.information.toArray))),
    ("directory", directory s.directory),
    ("directory_entries", .ofUInt8 s.publishEntries.1),
    ("entry_point", .ofOption entryPoint s.entryPoint?),
    ("store", .string storePath)]

/-! ## Structures -/

/-- A handle with four hexadecimal digits. -/
def handle (h : UInt16) : String :=
  "0x" ++ Bytes.hex (Bytes.toBigEndian 2 h.toNat).toArray

/-- One structure. -/
def brief (s : Structure) : Json :=
  .object [
    ("handle", .string (handle s.handle)),
    ("length", .ofUInt8 s.length),
    ("offset", .number s.offset),
    ("strings", .array (s.strings.map .string))]

/-- The structures of one type. -/
def list (t : Table) (type : UInt8) : Json :=
  .array ((structuresOfType t.bytes type).map brief)

/-! ## Inventory -/

/-- A firmware component. -/
def firmware (f : FirmwareComponent) : Json :=
  .object [("name", .string f.name), ("version", .string f.version)]

/-- The summary of a table, below the root that it is reported under. -/
def inventory (root : String) (i : Inventory) : Json :=
  .object [
    ("inventory", .object [
      ("baseboards", .number i.baseboards),
      ("bios_vendor", .string i.biosVendor),
      ("bios_version", .string i.biosVersion),
      ("firmware", .array (i.firmware.map firmware)),
      ("memory_devices", .number i.memoryDevices),
      ("pcie_slots", .number i.pcieSlots),
      ("processors", .number i.processors),
      ("system_manufacturer", .string i.systemManufacturer),
      ("system_product", .string i.systemProduct),
      ("tpm_devices", .number i.tpmDevices)]),
    ("inventory_path", .string root)]

/-! ## Memory -/

/-- A memory device. -/
def memoryDevice (m : MemoryDevice) : Json :=
  .object [
    ("structure_type", .ofUInt8 m.structureType),
    ("length", .ofUInt8 m.length),
    ("handle", .ofUInt16 m.handle),
    ("physical_memory_array_handle", .ofUInt16 m.physicalMemoryArrayHandle),
    ("memory_error_information_handle", .ofUInt16 m.memoryErrorInformationHandle),
    ("total_width", .ofUInt16 m.totalWidth),
    ("data_width", .ofUInt16 m.dataWidth),
    ("size", .ofUInt16 m.size),
    ("form_factor", .ofUInt8 m.formFactor),
    ("device_set", .ofUInt8 m.deviceSet),
    ("device_locator", .string m.deviceLocator),
    ("bank_locator", .string m.bankLocator),
    ("memory_type", .ofUInt8 m.memoryType),
    ("type_detail", .ofUInt16 m.typeDetail),
    ("speed", .ofUInt16 m.speed),
    ("manufacturer", .string m.manufacturer),
    ("serial_number", .string m.serialNumber),
    ("asset_tag", .string m.assetTag),
    ("part_number", .string m.partNumber),
    ("attributes", .ofUInt8 m.attributes),
    ("extended_size", .ofUInt32 m.extendedSize),
    ("configured_memory_speed", .ofUInt16 m.configuredMemorySpeed),
    ("minimum_voltage", .ofUInt16 m.minimumVoltage),
    ("maximum_voltage", .ofUInt16 m.maximumVoltage),
    ("configured_voltage", .ofUInt16 m.configuredVoltage),
    ("memory_technology", .ofUInt8 m.memoryTechnology),
    ("memory_operating_mode_capability", .ofUInt16 m.memoryOperatingModeCapability),
    ("firmware_version", .string m.firmwareVersion),
    ("module_manufacturer_id", .ofUInt16 m.moduleManufacturerId),
    ("module_product_id", .ofUInt16 m.moduleProductId),
    ("memory_subsystem_controller_manufacturer_id",
      .ofUInt16 m.memorySubsystemControllerManufacturerId),
    ("memory_subsystem_controller_product_id", .ofUInt16 m.memorySubsystemControllerProductId),
    ("non_volatile_size", .ofUInt64 m.nonVolatileSize),
    ("volatile_size", .ofUInt64 m.volatileSize),
    ("cache_size", .ofUInt64 m.cacheSize),
    ("logical_size", .ofUInt64 m.logicalSize)]

/-- The memory devices of a table. -/
def memory (t : Table) : Json :=
  .array ((MemoryDevice.collect t).map memoryDevice)

end Report

end ManagedRegion.CommandLine
