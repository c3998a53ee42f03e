import ManagedRegion.Service.Refusal
import ManagedRegion.Service.State

/-!
# Requests: what a service answers

Each request has its own function on the service. Those that only read give back a reply; those that
may change something give back the service as well. `Service.handle` joins them all, and a run of
the service is a list of steps: requests, replacements of the stored image and moves of the clock.
-/

namespace ManagedRegion

open Image Region Smbios

/-- The metadata of a region as they were before a new size was recorded. -/
structure CommonData where
  /-- The size that the agent had announced. -/
  dataSetSize : UInt32
  /-- The version of the content. -/
  dataVersion : UInt32
  /-- When the content was made. -/
  timestamp : UInt32
  deriving DecidableEq

/-- The metadata as a list. -/
def CommonData.toList (c : CommonData) : List UInt32 :=
  [c.dataSetSize, c.dataVersion, c.timestamp]

/-- The metadata of an entry. -/
def CommonData.ofEntry (entry : Entry) : CommonData :=
  ⟨entry.dataSetSize, entry.dataVersion, entry.timestamp⟩

namespace Service

/-! ## Requests that read -/

/-- The list of regions from a slot on. -/
def directoryInformation (s : Service) (slot : UInt8) : Except Refusal (List UInt8) :=
  if ¬ s.store.isReadable then
    .error (.invalidParameter .storeUnreadable)
  else if s.directory.dirEntries < slot then
    .error (.invalidParameter (.slotBeyondEntries slot s.directory.dirEntries))
  else
    .ok (s.directory.listing slot)

/-- The metadata of one region. -/
def dataInformation (s : Service) (index : UInt8) : Except Refusal (List UInt8) :=
  match s.directory.entry? index.toNat with
  | some entry => .ok entry.information
  | none => .error (.invalidParameter (.noRegion index.toNat))

/-- The identity of the structure table's region, if an agent may push to it now. -/
def dataOffer (s : Service) : Except Refusal (List UInt8) :=
  if s.directory.tableEntry.isAvailable then .ok s.directory.tableEntry.id.toList
  else .error .updateInProgress

/-- The populated slot of the region with the identity. -/
def findIndex (s : Service) (id : Bytes) : Except Refusal Nat :=
  match (DataId.ofBytes? id).bind s.directory.find? with
  | some slot => .ok slot
  | none => .error .invalidId

/-- The records of one type in the current table. Only memory devices can be asked for. -/
def records (s : Service) (type : UInt8) : Except Refusal (List MemoryDevice) :=
  if type = MemoryDevice.type then .ok (MemoryDevice.collect s.table)
  else .error (.invalidParameter (.recordType type))

/-- The entry point of the current table, if it has one. -/
def entryPoint? (s : Service) : Option EntryPoint :=
  (EntryPoint.locate s.table.bytes).toOption

/-! ## Requests that may change something -/

/-- Takes over a page of the agent's directory. Returns whether the exchange is complete. A page of
the version that the directory already has completes it at once; any other page has to fit the
directory. -/
def receivePage (s : Service) (page : Directory.Page) : Except Refusal Bool × Service :=
  let first := page.slot.toNat
  let count := page.count.toNat
  if Directory.slots ≤ first ∨ count = 0 then
    (.error (.invalidParameter .pageOutOfRange), s)
  else if count * DataId.size ≠ page.ids.size then
    (.error (.invalidParameter (.pageSize count page.ids.size)), s)
  else if page.dirVersion = s.directory.dirVersion then
    (.ok true, s)
  else if Directory.slots < first + count then
    (.error (.invalidParameter (.pageOverflow first (first + count))), s)
  else
    (.ok (page.remaining = 0), { s with directory := s.directory.apply page })

/-- What can become of a page: it is refused because it is not well formed or does not fit; or it is
well formed and the directory has its version already; or it is applied. -/
theorem receivePage_cases (s : Service) (page : Directory.Page) :
    ((¬ page.IsWellFormed ∨ page.dirVersion ≠ s.directory.dirVersion ∧ ¬ page.Fits) ∧
      ∃ fault, s.receivePage page = (.error (.invalidParameter fault), s)) ∨
    (page.IsWellFormed ∧ page.dirVersion = s.directory.dirVersion ∧
      s.receivePage page = (.ok true, s)) ∨
    (page.Applies s.directory.dirVersion ∧
      s.receivePage page =
        (.ok (page.remaining = 0), { s with directory := s.directory.apply page })) := by
  unfold receivePage
  dsimp only
  split
  · next hrange =>
    have hform : ¬ page.IsWellFormed := fun h =>
      hrange.elim (Nat.not_le.mpr h.1) h.2.1
    exact .inl ⟨.inl hform, _, rfl⟩
  next hrange =>
  split
  · next hsize =>
    have hform : ¬ page.IsWellFormed := fun h => hsize h.2.2
    exact .inl ⟨.inl hform, _, rfl⟩
  next hsize =>
  have hform : page.IsWellFormed := by
    obtain ⟨hslot, hcount⟩ := not_or.mp hrange
    exact ⟨Nat.lt_of_not_le hslot, hcount, Decidable.not_not.mp hsize⟩
  split
  · next hversion => exact .inr (.inl ⟨hform, hversion, rfl⟩)
  next hversion =>
  split
  · next hover => exact .inl ⟨.inr ⟨hversion, Nat.not_le.mpr hover⟩, _, rfl⟩
  next hfits => exact .inr (.inr ⟨⟨hform, hversion, Nat.le_of_not_lt hfits⟩, rfl⟩)

/-- Takes over the metadata that the agent announces for a region. Returns whether they are new. -/
def receiveInformation (s : Service) (index : UInt8) (dataSetSize dataVersion timestamp : UInt32) :
    Except Refusal Bool × Service :=
  if h : index.toNat < Directory.slots then
    let slot : Fin Directory.slots := ⟨index.toNat, h⟩
    let (changed, entry) := (s.directory.entry slot).announce dataSetSize dataVersion timestamp
    (.ok changed, { s with directory := s.directory.setEntry slot entry })
  else
    (.error (.invalidParameter (.noRegion index.toNat)), s)

/-- Metadata are announced for a region that there is. -/
theorem receiveInformation_of_eq (s : Service) {index : UInt8} {slot : Fin Directory.slots}
    (h : slot.val = index.toNat) (dataSetSize dataVersion timestamp : UInt32) :
    s.receiveInformation index dataSetSize dataVersion timestamp =
      (.ok ((s.directory.entry slot).announce dataSetSize dataVersion timestamp).1,
        { s with
          directory := s.directory.setEntry slot
            ((s.directory.entry slot).announce dataSetSize dataVersion timestamp).2 }) := by
  obtain ⟨position, hposition⟩ := slot
  subst h
  rw [receiveInformation, dif_pos hposition]

/-- Metadata for a region that there is not are refused. -/
theorem receiveInformation_of_le (s : Service) {index : UInt8}
    (h : Directory.slots ≤ index.toNat) (dataSetSize dataVersion timestamp : UInt32) :
    s.receiveInformation index dataSetSize dataVersion timestamp =
      (.error (.invalidParameter (.noRegion index.toNat)), s) := by
  rw [receiveInformation, dif_neg (Nat.not_lt.mpr h)]

/-- Publishes the number of entries, 0 as long as the store cannot be opened. -/
def publishEntries (s : Service) : UInt8 × Service :=
  let count := if s.store.isReadable then s.directory.dirEntries else 0
  (count, { s with published := count })

/-- Records a new size for a region and arms a pull. Returns the region's metadata as they were
before. -/
def synchronizeCommonData (s : Service) (index : Nat) (size : UInt32) :
    Except Refusal CommonData × Service :=
  if h : index < Directory.slots then
    let slot : Fin Directory.slots := ⟨index, h⟩
    (.ok (.ofEntry (s.directory.entry slot)), s.resize slot size)
  else
    (.error (.invalidParameter (.noRegionToResize index)), s)

/-- A size is recorded for a region that there is. -/
theorem synchronizeCommonData_of_lt (s : Service) {index : Nat} (h : index < Directory.slots)
    (size : UInt32) :
    s.synchronizeCommonData index size =
      (.ok (.ofEntry (s.directory.entry ⟨index, h⟩)), s.resize ⟨index, h⟩ size) := by
  rw [synchronizeCommonData, dif_pos h]

/-- A size for a region that there is not is refused. -/
theorem synchronizeCommonData_of_le (s : Service) {index : Nat} (h : Directory.slots ≤ index)
    (size : UInt32) :
    s.synchronizeCommonData index size =
      (.error (.invalidParameter (.noRegionToResize index)), s) := by
  rw [synchronizeCommonData, dif_neg (Nat.not_lt.mpr h)]

end Service

/-! ## All requests -/

/-- What a service can be asked. -/
inductive Request where
  /-- List the regions from a slot on. -/
  | directoryInformation (slot : UInt8)
  /-- Describe one region. -/
  | dataInformation (index : UInt8)
  /-- Offer the structure table's region for a push. -/
  | dataOffer
  /-- Take over a page of the agent's directory. -/
  | sendDirectory (page : Directory.Page)
  /-- Take over the metadata of a region; the flag says nothing. -/
  | sendInformation (index flag : UInt8) (dataSetSize dataVersion timestamp : UInt32)
  /-- Find a region by its identity. -/
  | findIndex (id : Bytes)
  /-- Publish the number of entries; the proposed number says nothing. -/
  | publishEntries (proposed : UInt8)
  /-- Load the table, and say whether that succeeded. -/
  | synchronize
  /-- Load the table, and say what came of it. -/
  | pull
  /-- Record a new size for a region, to be followed by a pull. -/
  | synchronizeCommonData (index : Nat) (size : UInt32)
  /-- List the records of one type. -/
  | records (type : UInt8)

/-- What a service answers. -/
inductive Response where
  /-- A reply of the protocol. -/
  | bytes (reply : List UInt8)
  /-- Yes or no. -/
  | flag (value : Bool)
  /-- A slot. -/
  | index (slot : Nat)
  /-- A number of entries. -/
  | count (entries : UInt8)
  /-- The report of a load. -/
  | report (report : LoadReport)
  /-- The metadata of a region. -/
  | commonData (data : CommonData)
  /-- Memory devices. -/
  | records (devices : List MemoryDevice)

/-- Why a request has no answer. -/
inductive RequestFailure where
  /-- It is turned down. -/
  | refused (refusal : Refusal)
  /-- The table could not be loaded. -/
  | notLoaded (failure : LoadFailure)

/-- Answers a request. -/
def Service.handle (s : Service) : Request → Except RequestFailure Response × Service
  | .directoryInformation slot => (reply (.bytes) (s.directoryInformation slot), s)
  | .dataInformation index => (reply (.bytes) (s.dataInformation index), s)
  | .dataOffer => (reply (.bytes) s.dataOffer, s)
  | .sendDirectory page =>
    let (answer, s) := s.receivePage page
    (reply .flag answer, s)
  | .sendInformation index _ dataSetSize dataVersion timestamp =>
    let (answer, s) := s.receiveInformation index dataSetSize dataVersion timestamp
    (reply .flag answer, s)
  | .findIndex id => (reply .index (s.findIndex id), s)
  | .publishEntries _ =>
    let (count, s) := s.publishEntries
    (.ok (.count count), s)
  | .synchronize =>
    let (outcome, s) := s.pull
    (.ok (.flag outcome.isOk), s)
  | .pull =>
    let (outcome, s) := s.pull
    ((outcome.map .report).mapError .notLoaded, s)
  | .synchronizeCommonData index size =>
    let (answer, s) := s.synchronizeCommonData index size
    (reply .commonData answer, s)
  | .records type => (reply .records (s.records type), s)
where
  /-- The answer to a request that is carried out or refused. -/
  reply {α : Type} (wrap : α → Response) (answer : Except Refusal α) :
      Except RequestFailure Response :=
    (answer.map wrap).mapError .refused

/-! ## Runs -/

/-- What can happen to a service. -/
inductive Step where
  /-- It is asked something. -/
  | request (request : Request)
  /-- Another image is stored, or none. -/
  | store (store : Store)
  /-- Time passes. -/
  | advance (time : Nat)

/-- The service after a step. -/
def Service.step (s : Service) : Step → Service
  | .request request => (s.handle request).2
  | .store store => { s with store }
  | .advance time => s.advance time

/-- The service after a run. -/
def Service.run (s : Service) (steps : List Step) : Service :=
  steps.foldl Service.step s

/-- A run can be cut anywhere. -/
theorem Service.run_append (s : Service) (before after : List Step) :
    s.run (before ++ after) = (s.run before).run after :=
  List.foldl_append

end ManagedRegion
