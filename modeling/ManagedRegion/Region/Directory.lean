import ManagedRegion.Region.Entry

/-!
# Directories: the regions that a service manages

A directory has four slots for regions, of which the first ones are populated. An agent sends its
own directory in pages of identities; a page that belongs to another version than the local one is
written over the slots that it covers.
-/

namespace ManagedRegion.Region

/-- The number of slots of a directory. -/
abbrev Directory.slots : Nat := 4

/-- The regions that a service manages. -/
structure Directory where
  /-- The version of the local agent. -/
  agentVersion : UInt8
  /-- The version of the directory. -/
  dirVersion : UInt8
  /-- The number of populated slots. -/
  dirEntries : UInt8
  /-- The status of the directory. -/
  status : UInt8
  /-- The version of the remote directory. -/
  remoteDirVersion : UInt8
  /-- The slots. -/
  entries : Vector Entry Directory.slots
  deriving DecidableEq

namespace Directory

/-- The version of the local agent. -/
def localAgentVersion : UInt8 := 1

/-- The slot of the structure table. -/
def tableSlot : Fin slots := 0

/-- The directory of a service that has just begun: one region, for the structure table, with no
content. -/
def initial : Directory where
  agentVersion := localAgentVersion
  dirVersion := 1
  dirEntries := 1
  status := 1
  remoteDirVersion := 0
  entries := (Vector.replicate slots (Entry.fresh .zero)).set 0 (Entry.fresh .smbiosTable)

/-- The entry in a slot. -/
def entry (d : Directory) (slot : Fin slots) : Entry :=
  d.entries[slot]

/-- The entry of the structure table. -/
def tableEntry (d : Directory) : Entry :=
  d.entry tableSlot

/-- The entry in a slot, if there is such a slot. -/
def entry? (d : Directory) (slot : Nat) : Option Entry :=
  d.entries[slot]?

/-- Each slot that there is has an entry. -/
theorem entry?_eq (d : Directory) (slot : Fin slots) : d.entry? slot = some (d.entry slot) := by
  exact Vector.getElem?_eq_getElem slot.isLt

/-- Replaces the entry in a slot. -/
def setEntry (d : Directory) (slot : Fin slots) (entry : Entry) : Directory :=
  { d with entries := d.entries.set slot entry }

/-- The entry that was put into a slot stands there. -/
@[simp] theorem entry_setEntry_self (d : Directory) (slot : Fin slots) (entry : Entry) :
    (d.setEntry slot entry).entry slot = entry := by
  simp [setEntry, Directory.entry]

/-- The other slots keep their entries. -/
theorem entry_setEntry_of_ne (d : Directory) {slot other : Fin slots} (entry : Entry)
    (h : other ≠ slot) : (d.setEntry slot entry).entry other = d.entry other := by
  have hval : slot.val ≠ other.val := fun heq => h (Fin.ext heq.symm)
  simp [setEntry, Directory.entry, Vector.getElem_set_ne _ _ hval]

/-- Of two entries put into one slot the second one stays. -/
@[simp] theorem setEntry_setEntry (d : Directory) (slot : Fin slots) (first second : Entry) :
    (d.setEntry slot first).setEntry slot second = d.setEntry slot second := by
  simp [setEntry]

/-- Putting back the entry of a slot changes nothing. -/
@[simp] theorem setEntry_entry (d : Directory) (slot : Fin slots) :
    d.setEntry slot (d.entry slot) = d := by
  simp [setEntry, Directory.entry]

/-- Entries that are put into different slots stand there in either order. -/
theorem setEntry_comm (d : Directory) {slot other : Fin slots} (first second : Entry)
    (h : other ≠ slot) :
    (d.setEntry slot first).setEntry other second =
      (d.setEntry other second).setEntry slot first := by
  have hval : slot.val ≠ other.val := fun heq => h (Fin.ext heq.symm)
  simp [setEntry, Vector.set_comm _ _ hval]

/-- The entries of the populated slots. -/
def populated (d : Directory) : List Entry :=
  d.entries.toList.take d.dirEntries.toNat

/-- The first populated slot whose region has the identity. -/
def find? (d : Directory) (id : DataId) : Option Nat :=
  d.populated.findIdx? (·.id == id)

/-- The reply that lists the regions from a slot on: protocol version, directory version, how many
are returned, how many remain, then their identities. -/
def listing (d : Directory) (slot : UInt8) : List UInt8 :=
  [Entry.protocolVersion, d.dirVersion, d.dirEntries - slot, 0] ++
    (d.populated.drop slot.toNat).flatMap (·.id.toList)

/-! ## Pages -/

/-- A page of an agent's directory. -/
structure Page where
  /-- The version of the agent's directory. -/
  dirVersion : UInt8
  /-- The first slot that the page covers. -/
  slot : UInt8
  /-- The number of slots that it covers. -/
  count : UInt8
  /-- The number of entries on later pages. -/
  remaining : UInt8
  /-- The identities, one after the other. -/
  ids : Bytes

/-- A page that begins at a slot, covers at least one, and holds an identity for each one. -/
def Page.IsWellFormed (page : Page) : Prop :=
  page.slot.toNat < slots ∧ page.count.toNat ≠ 0 ∧
    page.count.toNat * DataId.size = page.ids.size

/-- A page that ends with the last slot or before. -/
def Page.Fits (page : Page) : Prop :=
  page.slot.toNat + page.count.toNat ≤ slots

/-- A page that is applied to a directory of the version: it is well formed, brings another version
and fits. -/
def Page.Applies (page : Page) (version : UInt8) : Prop :=
  page.IsWellFormed ∧ page.dirVersion ≠ version ∧ page.Fits

instance (page : Page) : Decidable page.IsWellFormed :=
  inferInstanceAs (Decidable (_ ∧ _ ∧ _))

instance (page : Page) : Decidable page.Fits :=
  inferInstanceAs (Decidable (_ ≤ _))

instance (page : Page) (version : UInt8) : Decidable (page.Applies version) :=
  inferInstanceAs (Decidable (_ ∧ _ ∧ _))

/-- The identity that a page gives to a slot, if the page covers it. -/
def Page.idFor? (page : Page) (slot : Nat) : Option DataId :=
  if page.slot.toNat ≤ slot ∧ slot < page.slot.toNat + page.count.toNat then
    let start := (slot - page.slot.toNat) * DataId.size
    DataId.ofBytes? (page.ids.extract start (start + DataId.size))
  else
    none

/-- Gives an entry the identity, if there is one. -/
def rename (entry : Entry) : Option DataId → Entry
  | some id => { entry with id }
  | none => entry

/-- Writes a page over the slots that it covers. The last page of an exchange brings the version
along. -/
def apply (d : Directory) (page : Page) : Directory :=
  { d with
    entries := Vector.ofFn fun slot : Fin slots => rename (d.entry slot) (page.idFor? slot)
    dirEntries := page.count
    dirVersion := if page.remaining = 0 then page.dirVersion else d.dirVersion }

/-- The entries after a page has been written over the slots that it covers. -/
theorem entry_apply (d : Directory) (page : Page) (slot : Fin slots) :
    (d.apply page).entry slot = rename (d.entry slot) (page.idFor? slot) := by
  simp [apply, Directory.entry]

/-- An entry that is put into a slot before a page is written gets the name that the page has for
the slot. -/
theorem apply_setEntry (d : Directory) (page : Page) (slot : Fin slots) (entry : Entry) :
    (d.setEntry slot entry).apply page =
      (d.apply page).setEntry slot (rename entry (page.idFor? slot)) := by
  have hentries : ((d.setEntry slot entry).apply page).entries =
      ((d.apply page).setEntry slot (rename entry (page.idFor? slot))).entries := by
    apply Vector.ext
    intro i hi
    let other : Fin slots := ⟨i, hi⟩
    show ((d.setEntry slot entry).apply page).entry other =
      ((d.apply page).setEntry slot (rename entry (page.idFor? slot))).entry other
    by_cases hother : other = slot
    · rw [hother, entry_apply, entry_setEntry_self, entry_setEntry_self]
    · rw [entry_apply, entry_setEntry_of_ne _ _ hother, entry_setEntry_of_ne _ _ hother,
        entry_apply]
  exact congrArg (fun entries => { d.apply page with entries }) hentries

end Directory

end ManagedRegion.Region
