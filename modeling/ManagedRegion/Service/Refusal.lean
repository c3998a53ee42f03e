import ManagedRegion.Region.Directory

/-!
# Refusals: why a request is turned down

A request is either carried out or refused before anything has changed. There are three kinds of
refusal, and a wrong parameter says what is wrong with it.
-/

namespace ManagedRegion

open Region

/-- What is wrong with a parameter. -/
inductive ParameterFault where
  /-- The store cannot be opened. -/
  | storeUnreadable
  /-- A listing was asked for from behind the populated slots. -/
  | slotBeyondEntries (slot entries : UInt8)
  /-- A page covers no slot, or begins behind the last one. -/
  | pageOutOfRange
  /-- A page does not hold the bytes of as many identities as it announces. -/
  | pageSize (count given : Nat)
  /-- A page reaches behind the last slot. -/
  | pageOverflow (first stop : Nat)
  /-- There is no such region. -/
  | noRegion (index : Nat)
  /-- There is no such region to record a size for. -/
  | noRegionToResize (index : Nat)
  /-- Records of this type cannot be asked for. -/
  | recordType (type : UInt8)
  deriving DecidableEq

/-- The text of a fault. -/
def ParameterFault.message : ParameterFault → String
  | storeUnreadable => "backing store unreadable"
  | slotBeyondEntries slot entries => s!"directory index {slot} beyond {entries} entries"
  | pageOutOfRange => "directory index or entry count out of range"
  | pageSize count given => s!"{count} entries need {count * DataId.size} bytes, got {given}"
  | pageOverflow first stop => s!"entries {first}..{stop} exceed directory size {Directory.slots}"
  | noRegion index => s!"id index {index} out of range"
  | noRegionToResize index => s!"id index {index} out of range (max {Directory.slots})"
  | recordType type => s!"record type {type} not supported"

/-- Why a request is turned down. -/
inductive Refusal where
  /-- A parameter is wrong. -/
  | invalidParameter (fault : ParameterFault)
  /-- No region has the identity, or it is none. -/
  | invalidId
  /-- The region cannot be pushed to at the moment. -/
  | updateInProgress
  deriving DecidableEq

/-- The text of a refusal. -/
def Refusal.message : Refusal → String
  | invalidParameter fault => "Invalid parameter: " ++ fault.message
  | invalidId => "Invalid data id"
  | updateInProgress => "Update in progress"

end ManagedRegion
