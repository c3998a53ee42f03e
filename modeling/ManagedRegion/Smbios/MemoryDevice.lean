import ManagedRegion.Smbios.Table

/-!
# Memory devices: records of type 17

A memory device record has one field for each group of bytes from 0x04 up to 0x54 of the formatted
area: numbers, and texts that are referred to by their number. `MemoryDevice.decode?` needs the
whole of that range.
-/

namespace ManagedRegion.Smbios

/-- A memory device. -/
structure MemoryDevice where
  /-- The kind of structure, 17. -/
  structureType : UInt8
  /-- The declared length of the formatted area. -/
  length : UInt8
  /-- The number by which other structures refer to this one. -/
  handle : UInt16
  /-- The handle of the array that the device belongs to. -/
  physicalMemoryArrayHandle : UInt16
  /-- The handle of the error information. -/
  memoryErrorInformationHandle : UInt16
  /-- The width in bits, check bits included. -/
  totalWidth : UInt16
  /-- The width in bits, check bits not included. -/
  dataWidth : UInt16
  /-- The size as the 2.1 format states it. -/
  size : UInt16
  /-- The code of the form factor. -/
  formFactor : UInt8
  /-- The set of devices that this one belongs to. -/
  deviceSet : UInt8
  /-- The label of the socket. -/
  deviceLocator : String
  /-- The label of the bank. -/
  bankLocator : String
  /-- The code of the memory type. -/
  memoryType : UInt8
  /-- The details of the memory type. -/
  typeDetail : UInt16
  /-- The greatest speed. -/
  speed : UInt16
  /-- The manufacturer's name. -/
  manufacturer : String
  /-- The serial number. -/
  serialNumber : String
  /-- The asset tag. -/
  assetTag : String
  /-- The part number. -/
  partNumber : String
  /-- The rank and reserved bits. -/
  attributes : UInt8
  /-- The size if it does not fit the older field. -/
  extendedSize : UInt32
  /-- The speed that is set. -/
  configuredMemorySpeed : UInt16
  /-- The least voltage. -/
  minimumVoltage : UInt16
  /-- The greatest voltage. -/
  maximumVoltage : UInt16
  /-- The voltage that is set. -/
  configuredVoltage : UInt16
  /-- The code of the technology. -/
  memoryTechnology : UInt8
  /-- The operating modes that the device is capable of. -/
  memoryOperatingModeCapability : UInt16
  /-- The version of the device's firmware. -/
  firmwareVersion : String
  /-- The module manufacturer's code. -/
  moduleManufacturerId : UInt16
  /-- The module's product code. -/
  moduleProductId : UInt16
  /-- The controller manufacturer's code. -/
  memorySubsystemControllerManufacturerId : UInt16
  /-- The controller's product code. -/
  memorySubsystemControllerProductId : UInt16
  /-- The size of the part that keeps its content. -/
  nonVolatileSize : UInt64
  /-- The size of the part that loses its content. -/
  volatileSize : UInt64
  /-- The size of the part used as a cache. -/
  cacheSize : UInt64
  /-- The size as it appears to the system. -/
  logicalSize : UInt64

namespace MemoryDevice

/-- The type of memory device structures. -/
def type : UInt8 := 17

/-- The least declared length of a record that can be decoded. -/
def minLength : UInt8 := 0x54

/-- The record of a memory device structure; `none` for a structure of another type, one that
declares fewer than `minLength` bytes, or one that the buffer cuts short. -/
def decode? (s : Structure) : Option MemoryDevice :=
  if s.header.isOfType type minLength then do
    let physicalMemoryArrayHandle ← s.word? 0x04
    let memoryErrorInformationHandle ← s.word? 0x06
    let totalWidth ← s.word? 0x08
    let dataWidth ← s.word? 0x0A
    let size ← s.word? 0x0C
    let formFactor ← s.byte? 0x0E
    let deviceSet ← s.byte? 0x0F
    let memoryType ← s.byte? 0x12
    let typeDetail ← s.word? 0x13
    let speed ← s.word? 0x15
    let attributes ← s.byte? 0x1B
    let extendedSize ← s.dword? 0x1C
    let configuredMemorySpeed ← s.word? 0x20
    let minimumVoltage ← s.word? 0x22
    let maximumVoltage ← s.word? 0x24
    let configuredVoltage ← s.word? 0x26
    let memoryTechnology ← s.byte? 0x28
    let memoryOperatingModeCapability ← s.word? 0x29
    let moduleManufacturerId ← s.word? 0x2C
    let moduleProductId ← s.word? 0x2E
    let memorySubsystemControllerManufacturerId ← s.word? 0x30
    let memorySubsystemControllerProductId ← s.word? 0x32
    let nonVolatileSize ← s.qword? 0x34
    let volatileSize ← s.qword? 0x3C
    let cacheSize ← s.qword? 0x44
    let logicalSize ← s.qword? 0x4C
    return {
      structureType := s.type
      length := s.length
      handle := s.handle
      deviceLocator := s.stringAt 0x10
      bankLocator := s.stringAt 0x11
      manufacturer := s.stringAt 0x17
      serialNumber := s.stringAt 0x18
      assetTag := s.stringAt 0x19
      partNumber := s.stringAt 0x1A
      firmwareVersion := s.stringAt 0x2B
      physicalMemoryArrayHandle, memoryErrorInformationHandle, totalWidth, dataWidth, size
      formFactor, deviceSet, memoryType, typeDetail, speed, attributes, extendedSize
      configuredMemorySpeed, minimumVoltage, maximumVoltage, configuredVoltage, memoryTechnology
      memoryOperatingModeCapability, moduleManufacturerId, moduleProductId
      memorySubsystemControllerManufacturerId, memorySubsystemControllerProductId
      nonVolatileSize, volatileSize, cacheSize, logicalSize }
  else
    none

/-- The memory devices of a table, in table order. -/
def collect (t : Table) : List MemoryDevice :=
  (recordsOfType t.bytes type minLength).filterMap decode?

end MemoryDevice

end ManagedRegion.Smbios
