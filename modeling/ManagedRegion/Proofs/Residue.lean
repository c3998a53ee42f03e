import ManagedRegion.Proofs.Load

/-!
# Residue: what a load leaves behind, and what it does not look at

What comes of a load, and what stands in the table afterwards, is a matter of the image alone. The
rules of `LoadsTo` say what: they speak of the bytes of the image and of the table, and of the gate,
but neither of the table before the load nor of any step on the way. A load follows these rules and
no others (`load_eq_iff`), so nothing of the table before it is left, also if the load fails.

Of an image with a header a load looks at the header and at as many bytes behind it as the header
declares. Images that agree so far are loaded alike, whatever follows (`load_of_agree`).
-/

namespace ManagedRegion.Image

open Bytes Smbios

variable {store : Store} {table : Table} {image : Bytes} {header : Header}
  {outcome : Except LoadFailure LoadReport} {after : Table}

/-! ## Content in a table -/

/-- The number of bytes of content that an image has to offer: as many as declared, or all behind
the header if there are fewer. -/
def copied (header : Header) (image : Bytes) : Nat :=
  min header.dataSize.toNat (image.size - 10)

/-- A table that holds the content of an image, and zero bytes behind it. -/
def Holds (table : Table) (header : Header) (image : Bytes) : Prop :=
  ∀ i : Nat, table.bytes[i]? =
    if i < copied header image then image[10 + i]? else if i < 65536 then some 0 else none

/-- The bytes of the content are those behind the header, as many as declared. -/
theorem getElem?_content (header : Header) (image : Bytes) (i : Nat) :
    (content header image)[i]? = if i < header.dataSize.toNat then image[10 + i]? else none := by
  have hfront : Header.size = 10 := rfl
  rw [content, getElem?_extract, hfront]
  simp only [Nat.add_lt_add_iff_left]

/-- A table that is filled with the content holds it. -/
theorem holds_ofBytes (hfits : header.dataSize.toNat ≤ Table.capacity) (image : Bytes) :
    Holds (.ofBytes (content header image)) header image := by
  intro i
  rw [Table.getElem?_ofBytes, getElem?_content]
  by_cases hcopied : i < copied header image
  · obtain ⟨hdeclared, hin⟩ := Nat.lt_min.mp hcopied
    rw [if_pos (Nat.lt_of_lt_of_le hdeclared hfits), if_pos hdeclared, if_pos hcopied,
      Array.getElem?_eq_getElem (by omega)]
    rfl
  · have hnone : (if i < header.dataSize.toNat then image[10 + i]? else none) = none := by
      split
      · next hdeclared =>
        apply Array.getElem?_eq_none
        have hout := mt (fun hin => Nat.lt_min.mpr ⟨hdeclared, hin⟩) hcopied
        omega
      · rfl
    rw [hnone, if_neg hcopied]
    rfl

/-- Only one table holds the content of an image. -/
theorem Holds.eq (h : Holds table header image) (hafter : Holds after header image) :
    table = after := by
  have hbytes : table.bytes = after.bytes := by
    apply Array.ext_getElem?
    intro i
    rw [h i, hafter i]
  cases table
  cases after
  cases hbytes
  rfl

/-! ## The rules -/

/-- What a load from a store comes to, and the table that it leaves. -/
inductive LoadsTo (store : Store) : Except LoadFailure LoadReport → Table → Prop where
  /-- A store that cannot be read leaves a table of zero bytes. -/
  | unreadable {failure : ReadFailure} (hread : store.read = .error failure) :
    LoadsTo store (.error (.unreadable failure)) .empty
  /-- So does an image of less than ten bytes. -/
  | headerTruncated {image : Bytes} (hread : store.read = .ok image) (hshort : image.size < 10) :
    LoadsTo store (.error (.headerTruncated image.size)) .empty
  /-- So does a header that declares too much. -/
  | dataTooLarge {image : Bytes} {header : Header} (hread : store.read = .ok image)
    (hheader : image.occursAt header.toBytes 0 = true)
    (hlarge : 65536 < header.dataSize.toNat) :
    LoadsTo store (.error (.dataTooLarge header.dataSize)) .empty
  /-- Other content fills the table, and stays there also if the gate turns the table down. -/
  | refused {image : Bytes} {header : Header} {table : Table} {failure : EntryPoint.Failure}
    (hread : store.read = .ok image) (hheader : image.occursAt header.toBytes 0 = true)
    (hfits : header.dataSize.toNat ≤ 65536) (hholds : Holds table header image)
    (hgate : EntryPoint.checkVersion table.bytes = .error failure) :
    LoadsTo store (.error (.entryPoint failure)) table
  /-- If the gate lets the table pass, the load reports the header, the number of bytes copied and
  the entry point that was found. -/
  | accepted {image : Bytes} {header : Header} {table : Table} {entryPoint : EntryPoint}
    (hread : store.read = .ok image) (hheader : image.occursAt header.toBytes 0 = true)
    (hfits : header.dataSize.toNat ≤ 65536) (hholds : Holds table header image)
    (hgate : EntryPoint.checkVersion table.bytes = .ok entryPoint) :
    LoadsTo store (.ok ⟨header, copied header image, entryPoint⟩) table

/-- A load follows the rules. -/
theorem loadsTo_load (store : Store) (table : Table) :
    LoadsTo store (load store table).1 (load store table).2 := by
  cases hread : store.read with
  | error failure =>
    rw [load_of_unreadable hread]
    exact .unreadable hread
  | ok image =>
    rw [load_of_read hread]
    cases hparsed : Header.parse? image with
    | none =>
      have hshort := Header.parse?_eq_none_iff.mp hparsed
      rw [loadBytes_of_short hshort]
      exact .headerTruncated hread hshort
    | some header =>
      have hheader := Header.parse?_eq_some_iff.mp hparsed
      by_cases hlarge : Table.capacity < header.dataSize.toNat
      · rw [loadBytes_of_large hparsed hlarge]
        exact .dataTooLarge hread hheader hlarge
      · have hfits := Nat.le_of_not_lt hlarge
        have hholds := holds_ofBytes hfits image
        rw [loadBytes_of_fits hparsed hfits]
        -- what the gate says about the table decides which of the last two rules applies
        cases hgate : EntryPoint.checkVersion (Table.ofBytes (content header image)).bytes with
        | error failure => exact .refused hread hheader hfits hholds hgate
        | ok entryPoint => exact .accepted hread hheader hfits hholds hgate

/-- What the rules say is what a load comes to. -/
theorem LoadsTo.load_eq (h : LoadsTo store outcome after) (table : Table) :
    load store table = (outcome, after) := by
  cases h with
  | unreadable hread => exact load_of_unreadable hread table
  | headerTruncated hread hshort =>
    rw [load_of_read hread]
    exact loadBytes_of_short hshort table
  | dataTooLarge hread hheader hlarge =>
    rw [load_of_read hread]
    exact loadBytes_of_large (Header.parse?_eq_some_iff.mpr hheader) hlarge table
  | refused hread hheader hfits hholds hgate =>
    obtain rfl := hholds.eq (holds_ofBytes hfits _)
    rw [load_of_read hread, loadBytes_of_fits (Header.parse?_eq_some_iff.mpr hheader) hfits, hgate]
    rfl
  | accepted hread hheader hfits hholds hgate =>
    obtain rfl := hholds.eq (holds_ofBytes hfits _)
    rw [load_of_read hread, loadBytes_of_fits (Header.parse?_eq_some_iff.mpr hheader) hfits, hgate]
    rfl

/-! ## What is not looked at -/

/-- Images that agree on a header and on the bytes that it declares have that header. -/
theorem occursAt_of_agree {longer : Bytes} (hheader : image.occursAt header.toBytes 0 = true)
    (hagree : AgreeBelow image longer (10 + header.dataSize.toNat)) :
    longer.occursAt header.toBytes 0 = true := by
  have hlength : header.toBytes.length = 10 := header.length_toBytes
  rw [hagree.occursAt_eq (by omega)]
  exact hheader

/-- Images that agree on the bytes that a header declares have the same content. -/
theorem content_of_agree {longer : Bytes}
    (hagree : AgreeBelow image longer (10 + header.dataSize.toNat)) :
    content header longer = content header image :=
  hagree.extract_eq Header.size

/-- **What stands behind the declared content is not looked at.** -/
theorem load_of_agree {other : Store} {longer : Bytes} (hread : store.read = .ok image)
    (hother : other.read = .ok longer) (hheader : image.occursAt header.toBytes 0 = true)
    (hagree : AgreeBelow image longer (10 + header.dataSize.toNat)) (table : Table) :
    load other table = load store table := by
  have hparsed := Header.parse?_eq_some_iff.mpr hheader
  have hlonger := Header.parse?_eq_some_iff.mpr (occursAt_of_agree hheader hagree)
  rw [load_of_read hread, load_of_read hother]
  by_cases hlarge : Table.capacity < header.dataSize.toNat
  · rw [loadBytes_of_large hparsed hlarge, loadBytes_of_large hlonger hlarge]
  · have hfits := Nat.le_of_not_lt hlarge
    rw [loadBytes_of_fits hparsed hfits, loadBytes_of_fits hlonger hfits, ← size_content,
      ← size_content, content_of_agree hagree]

/-- **What comes of a load is a matter of the image alone**: of its header, and of the content that
the header declares. The table before the load has no part in it, and nor have bytes behind the
content. -/
theorem load_eq_iff (store : Store) (table : Table) :
    (∀ outcome after, load store table = (outcome, after) ↔ LoadsTo store outcome after) ∧
    (∀ prior, load store prior = load store table) ∧
    ∀ (other : Store) (image longer : Bytes) (header : Header), store.read = .ok image →
      other.read = .ok longer → image.occursAt header.toBytes 0 = true →
      (∀ i < 10 + header.dataSize.toNat, longer[i]? = image[i]?) →
      load other table = load store table := by
  refine ⟨fun outcome after => ⟨?_, fun h => h.load_eq table⟩, ?_, ?_⟩
  · intro hload
    have hrules := loadsTo_load store table
    rw [hload] at hrules
    exact hrules
  · exact fun prior => (loadsTo_load store table).load_eq prior
  · exact fun _ _ _ _ hread hother hheader hagree =>
      load_of_agree hread hother hheader hagree table

/-- A table that was full before holds the minimal content alone, though more bytes follow it in the
image. -/
theorem load_eq_iff_trailing :
    let image := encode 1 0 minimalContent
    let longer := image ++ #[0x5F, 0x53, 0x4D, 0x5F]
    let header := tableHeader 1 0 minimalContent
    let full : Table := .ofBytes (Array.replicate Table.capacity 0xFF)
    image.occursAt header.toBytes 0 = true ∧
      (∀ i < 10 + header.dataSize.toNat, longer[i]? = image[i]?) ∧
      load (.memory (some longer)) full = (.ok minimalReport, Table.ofBytes minimalContent) := by
  intro image longer header full
  have hheader : image.occursAt header.toBytes 0 = true :=
    Header.occursAt_of_parse? (parse?_encode 1 0 minimalContent)
  have hagree : ∀ i < 10 + header.dataSize.toNat, longer[i]? = image[i]? := by
    intro i hi
    exact Array.getElem?_append_left hi
  obtain ⟨-, -, hunread⟩ := load_eq_iff (.memory (some image)) full
  refine ⟨hheader, hagree, ?_⟩
  rw [hunread (.memory (some longer)) image longer header rfl rfl hheader hagree]
  exact load_minimalContent full

end ManagedRegion.Image
