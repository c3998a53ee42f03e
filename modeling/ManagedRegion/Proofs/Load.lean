import ManagedRegion.Image.Load
import ManagedRegion.Proofs.EntryPoint
import ManagedRegion.Proofs.Table

/-!
# Load: what a load leaves in the table

A header is read exactly if its bytes stand at the front of the image (`Header.parse?_eq_some_iff`),
and for each way that a load can go an equation says what comes of it: `load_of_unreadable`,
`loadBytes_of_short`, `loadBytes_of_large`, `loadBytes_of_fits`.

A load succeeds exactly if the gate lets the table pass that it leaves (`checkVersion_load`), so a
table that was loaded can be told from one that was refused by looking at it. An image that was
written is loaded with its content, and the gate decides on that content alone
(`loadBytes_encode`).
-/

namespace ManagedRegion.Image

open Bytes Smbios

variable {store : Store} {table : Table} {image data : Bytes}

/-! ## Headers -/

/-- The header at the front of an image is read. -/
theorem Header.parse?_of_occursAt {header : Header} (h : image.occursAt header.toBytes 0 = true) :
    Header.parse? image = some header := by
  obtain ⟨hversion, h⟩ := occursAt_cons.mp h
  obtain ⟨htype, h⟩ := occursAt_cons.mp h
  obtain ⟨htime, hsize⟩ := occursAt_append.mp h
  have htime := number?_of_occursAt htime (length_toLittleEndian 4 _) (by simp [toLittleEndian])
  have hsize := number?_of_occursAt hsize (length_toLittleEndian 4 _) (by simp [toLittleEndian])
  have hrange (n : UInt32) : n.toNat % Nat.pow 256 4 = n.toNat := Nat.mod_eq_of_lt n.toNat_lt
  rw [ofLittleEndian_toLittleEndian, hrange] at htime hsize
  rw [length_toLittleEndian] at hsize
  simp [Header.parse?, hversion, htype, htime, hsize]

/-- A header is read in front of anything. -/
theorem Header.parse?_toBytes_append (header : Header) (rest : List UInt8) :
    Header.parse? (header.toBytes ++ rest).toArray = some header :=
  parse?_of_occursAt (occursAt_toArray_append [] rest)

/-- The bytes of a header that is read stand at the front of the image. -/
theorem Header.occursAt_of_parse? {header : Header} (h : Header.parse? image = some header) :
    image.occursAt header.toBytes 0 = true := by
  unfold parse? at h
  obtain ⟨dirVersion, hversion, h⟩ := Option.bind_eq_some_iff.mp h
  obtain ⟨mdrType, htype, h⟩ := Option.bind_eq_some_iff.mp h
  obtain ⟨timestamp, htime, h⟩ := Option.bind_eq_some_iff.mp h
  obtain ⟨dataSize, hsize, h⟩ := Option.bind_eq_some_iff.mp h
  obtain rfl := Option.some.inj h
  have hword {offset n : Nat} (hn : image.number? offset 4 = some n) :
      (UInt32.ofNat n).toNat = n := UInt32.toNat_ofNat_of_lt' (lt_of_number? hn)
  unfold toBytes
  rw [occursAt_cons, occursAt_cons, occursAt_append, length_toLittleEndian, hword htime,
    hword hsize]
  exact ⟨hversion, htype, occursAt_of_number? htime, occursAt_of_number? hsize⟩

/-- **A header is read exactly if its bytes stand at the front of the image.** -/
theorem Header.parse?_eq_some_iff {header : Header} :
    Header.parse? image = some header ↔ image.occursAt header.toBytes 0 = true :=
  ⟨occursAt_of_parse?, parse?_of_occursAt⟩

/-- An image has no header exactly if it is shorter than one. -/
theorem Header.parse?_eq_none_iff : Header.parse? image = none ↔ image.size < Header.size := by
  constructor
  · intro hnone
    apply Nat.lt_of_not_le
    intro hlong
    have hbyte (i : Nat) (hi : i < 10) : ∃ b, image[i]? = some b :=
      ⟨_, Array.getElem?_eq_getElem (Nat.lt_of_lt_of_le hi hlong)⟩
    have hword (offset : Nat) (hoffset : offset + 4 ≤ 10) : ∃ n, image.number? offset 4 = some n :=
      ⟨_, if_pos (Nat.le_trans hoffset hlong)⟩
    obtain ⟨dirVersion, hversion⟩ := hbyte 0 (by decide)
    obtain ⟨mdrType, htype⟩ := hbyte 1 (by decide)
    obtain ⟨timestamp, htime⟩ := hword 2 (by decide)
    obtain ⟨dataSize, hsize⟩ := hword 6 (by decide)
    unfold parse? at hnone
    rw [hversion, htype, htime, hsize] at hnone
    cases hnone
  · intro hshort
    cases hparsed : Header.parse? image with
    | none => rfl
    | some header =>
      have hlength := header.length_toBytes
      have hne : header.toBytes ≠ [] := List.cons_ne_nil _ _
      have hsize := size_of_occursAt (occursAt_of_parse? hparsed) hne
      omega

/-- The bytes of a header that is read are the first ones of the image. -/
theorem Header.toBytes_of_parse? {header : Header} (h : Header.parse? image = some header) :
    header.toBytes = (image.extract 0 Header.size).toList := by
  have hextract := extract_of_occursAt (occursAt_of_parse? h)
  rw [length_toBytes, Nat.zero_add] at hextract
  exact hextract.symm

/-! ## What comes of an image -/

/-- A store that cannot be read leaves an empty table. -/
theorem load_of_unreadable {failure : ReadFailure} (hread : store.read = .error failure)
    (table : Table) : load store table = (.error (.unreadable failure), .empty) := by
  rw [load, hread]
  show (_, table.clear) = _
  rw [Table.clear_eq_empty]

/-- An image that can be read is loaded. -/
theorem load_of_read (hread : store.read = .ok image) (table : Table) :
    load store table = loadBytes image table := by
  rw [load, hread]

/-- An image without a header leaves an empty table. -/
theorem loadBytes_of_short (hshort : image.size < Header.size) (table : Table) :
    loadBytes image table = (.error (.headerTruncated image.size), .empty) := by
  rw [loadBytes, Header.parse?_eq_none_iff.mpr hshort]
  show (_, table.clear) = _
  rw [Table.clear_eq_empty]

variable {header : Header}

/-- An image that declares too much leaves an empty table. -/
theorem loadBytes_of_large (hheader : Header.parse? image = some header)
    (hlarge : Table.capacity < header.dataSize.toNat) (table : Table) :
    loadBytes image table = (.error (.dataTooLarge header.dataSize), .empty) := by
  rw [loadBytes, hheader]
  simp only [if_pos hlarge, Table.clear_eq_empty]

/-- The content of an image is as long as declared, or as what is there. -/
theorem size_content (header : Header) (image : Bytes) :
    (content header image).size = min header.dataSize.toNat (image.size - Header.size) := by
  rw [content, Array.size_extract]
  omega

/-- An image that declares no more than a table holds leaves its content, and the gate decides. -/
theorem loadBytes_of_fits (hheader : Header.parse? image = some header)
    (hfits : header.dataSize.toNat ≤ Table.capacity) (table : Table) :
    loadBytes image table =
      (((EntryPoint.checkVersion (Table.ofBytes (content header image)).bytes).map fun entryPoint =>
          ⟨header, min header.dataSize.toNat (image.size - Header.size), entryPoint⟩).mapError
            .entryPoint,
        Table.ofBytes (content header image)) := by
  have hsize := size_content header image
  have hcopied : min (content header image).size Table.capacity =
      min header.dataSize.toNat (image.size - Header.size) := by
    omega
  rw [loadBytes, hheader]
  simp only [if_neg (Nat.not_lt.mpr hfits), Table.clear_eq_empty, Table.fill_eq, hcopied]
  cases EntryPoint.checkVersion (Table.ofBytes (content header image)).bytes with
  | error failure => rfl
  | ok entryPoint => rfl

/-! ## The table after a load -/

/-- The gate turns down a table of zero bytes. -/
theorem checkVersion_empty :
    EntryPoint.checkVersion Table.empty.bytes = .error .anchorNotFound := by
  refine EntryPoint.checkVersion_of_no_underscore fun i hi => ?_
  rw [Table.empty, Array.getElem?_replicate] at hi
  by_cases hin : i < Table.capacity
  · rw [if_pos hin] at hi
    exact absurd hi (by decide)
  · rw [if_neg hin] at hi
    exact absurd hi (by simp)

/-- Loading an image succeeds exactly if the gate lets the table pass that it leaves. -/
theorem checkVersion_loadBytes (image : Bytes) (table : Table) :
    (EntryPoint.checkVersion (loadBytes image table).2.bytes).toOption =
      (loadBytes image table).1.toOption.map LoadReport.entryPoint := by
  cases hparsed : Header.parse? image with
  | none =>
    rw [loadBytes_of_short (Header.parse?_eq_none_iff.mp hparsed), checkVersion_empty]
    rfl
  | some header =>
    by_cases hlarge : Table.capacity < header.dataSize.toNat
    · rw [loadBytes_of_large hparsed hlarge, checkVersion_empty]
      rfl
    · rw [loadBytes_of_fits hparsed (Nat.le_of_not_lt hlarge)]
      cases EntryPoint.checkVersion (Table.ofBytes (content header image)).bytes with
      | error failure => rfl
      | ok entryPoint => rfl

/-- **A load succeeds exactly if the gate lets the table pass that it leaves**, and it reports the
entry point that the gate has found. -/
theorem checkVersion_load (store : Store) (table : Table) :
    (EntryPoint.checkVersion (load store table).2.bytes).toOption =
      (load store table).1.toOption.map LoadReport.entryPoint := by
  cases hread : store.read with
  | error failure =>
    rw [load_of_unreadable hread, checkVersion_empty]
    rfl
  | ok image =>
    rw [load_of_read hread]
    exact checkVersion_loadBytes image table

/-- Having a result is the same as having succeeded. -/
theorem isSome_toOption {ε α : Type} (outcome : Except ε α) :
    outcome.toOption.isSome = outcome.isOk := by
  cases outcome <;> rfl

/-! ## Written images -/

/-- The header that a written image begins with. -/
def tableHeader (dirVersion : UInt8) (timestamp : UInt32) (data : Bytes) : Header :=
  ⟨dirVersion, tableType, timestamp, UInt32.ofNat data.size⟩

/-- The header of a written image declares the size of the content, if it can. -/
theorem toNat_dataSize_tableHeader (dirVersion : UInt8) (timestamp : UInt32)
    (hsize : data.size < UInt32.size) :
    (tableHeader dirVersion timestamp data).dataSize.toNat = data.size := by
  rw [tableHeader, UInt32.toNat_ofNat_of_lt' hsize]

/-- The header of a written image is read. -/
theorem parse?_encode (dirVersion : UInt8) (timestamp : UInt32) (data : Bytes) :
    Header.parse? (encode dirVersion timestamp data) =
      some (tableHeader dirVersion timestamp data) := by
  have himage : encode dirVersion timestamp data =
      ((tableHeader dirVersion timestamp data).toBytes ++ data.toList).toArray := by
    apply Array.toList_inj.mp
    simp [encode, tableHeader]
  rw [himage]
  exact Header.parse?_toBytes_append _ _

/-- The content of a written image is what was written, if its size can be declared. -/
theorem content_encode (dirVersion : UInt8) (timestamp : UInt32) (hsize : data.size < UInt32.size) :
    content (tableHeader dirVersion timestamp data) (encode dirVersion timestamp data) = data := by
  have hdeclared := toNat_dataSize_tableHeader dirVersion timestamp hsize
  have hlength := Header.length_toBytes (tableHeader dirVersion timestamp data)
  have hfront : (tableHeader dirVersion timestamp data).toBytes.toArray.size = Header.size := by
    rw [List.size_toArray, hlength]
  rw [content, hdeclared, encode, ← tableHeader, Array.extract_append, hfront]
  simp [hlength]

/-- **A written image is loaded with its content, and the gate decides on that alone.** -/
theorem loadBytes_encode (dirVersion : UInt8) (timestamp : UInt32) (table : Table)
    (hfit : data.size ≤ Table.capacity) :
    loadBytes (encode dirVersion timestamp data) table =
      (((EntryPoint.checkVersion (Table.ofBytes data).bytes).map fun entryPoint =>
          ⟨tableHeader dirVersion timestamp data, data.size, entryPoint⟩).mapError .entryPoint,
        Table.ofBytes data) := by
  have hdeclarable : data.size < UInt32.size := Nat.lt_of_le_of_lt hfit (by decide)
  have hdeclared := toNat_dataSize_tableHeader dirVersion timestamp hdeclarable
  have hcontent := content_encode dirVersion timestamp hdeclarable
  have hcopied := size_content (tableHeader dirVersion timestamp data)
    (encode dirVersion timestamp data)
  rw [hcontent] at hcopied
  rw [loadBytes_of_fits (parse?_encode dirVersion timestamp data) (hdeclared ▸ hfit), hcontent,
    ← hcopied]

/-- A written image is accepted if its content begins with an entry point of a supported version. -/
theorem load_of_occursAt {version : Version} (dirVersion : UInt8) (timestamp : UInt32)
    (table : Table) (hfit : data.size ≤ Table.capacity)
    (hentry : data.occursAt (EntryPoint.encode .smbios21 version) 0 = true)
    (hversion : version.isSupported = true) :
    load (.memory (some (encode dirVersion timestamp data))) table =
      (.ok ⟨tableHeader dirVersion timestamp data, data.size, ⟨.smbios21, 0, version⟩⟩,
        Table.ofBytes data) := by
  have hlength : 0 + (EntryPoint.encode .smbios21 version).length ≤ Table.capacity := by
    rw [EntryPoint.length_encode]
    decide
  have hgate := EntryPoint.checkVersion_of_occursAt (Table.occursAt_ofBytes hentry hlength) hversion
  show loadBytes (encode dirVersion timestamp data) table = _
  rw [loadBytes_encode dirVersion timestamp table hfit, hgate]
  rfl

/-- A written image is refused if its content has no underscore, and so no anchor. -/
theorem load_of_no_underscore (dirVersion : UInt8) (timestamp : UInt32) (table : Table)
    (hfit : data.size ≤ Table.capacity) (hnone : ∀ i : Nat, data[i]? ≠ some 0x5F) :
    load (.memory (some (encode dirVersion timestamp data))) table =
      (.error (.entryPoint .anchorNotFound), Table.ofBytes data) := by
  have hgate : EntryPoint.checkVersion (Table.ofBytes data).bytes = .error .anchorNotFound := by
    refine EntryPoint.checkVersion_of_no_underscore fun i hi => ?_
    rw [Table.getElem?_ofBytes] at hi
    by_cases hcap : i < Table.capacity
    · rw [if_pos hcap] at hi
      cases hbyte : data[i]? with
      | none => exact absurd (hbyte ▸ hi) (by decide)
      | some b => exact hnone i (by rw [hbyte] at hi ⊢; exact hi)
    · rw [if_neg hcap] at hi
      exact absurd hi (by simp)
  show loadBytes (encode dirVersion timestamp data) table = _
  rw [loadBytes_encode dirVersion timestamp table hfit, hgate]
  rfl

/-- Content that is nothing but an entry point of version 3.0. -/
def minimalContent : Bytes :=
  (EntryPoint.encode .smbios21 ⟨3, 0⟩).toArray

/-- What a load of the minimal content reports. -/
def minimalReport : LoadReport :=
  ⟨tableHeader 1 0 minimalContent, minimalContent.size, ⟨.smbios21, 0, ⟨3, 0⟩⟩⟩

/-- The image of the minimal content is accepted. -/
theorem load_minimalContent (table : Table) :
    load (.memory (some (encode 1 0 minimalContent))) table =
      (.ok minimalReport, Table.ofBytes minimalContent) :=
  load_of_occursAt 1 0 table (by decide) (by decide) (by decide)

end ManagedRegion.Image
