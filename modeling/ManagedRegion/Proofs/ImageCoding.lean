import ManagedRegion.Proofs.Load

/-!
# Image coding: written images are loaded with what was written

A header is read in front of anything, and the header that is read in front of an image is written
with the bytes that stand there. So an image that was written is loaded with its content, whatever
the table held before: content that is too large for a table is refused (`load_encode_of_large`), and
any other content stands in the table with zero bytes behind it (`load_encode_of_fits`). The gate
decides on that padded content. The padding adds no anchor, since an anchor has no zero byte, and so
an entry point that was written into the content is the one that the gate judges
(`checkVersion_padded`).

**`encode_roundTrip`** says all of this of every image that was written.
-/

namespace ManagedRegion.Image

open Bytes Smbios

variable {data : Bytes} {store : Store} {dirVersion : UInt8} {timestamp : UInt32}

/-! ## Padded content -/

/-- The content of a table: the data, then zero bytes up to the capacity of a table. -/
def padded (data : Bytes) : Bytes :=
  data ++ Array.replicate (Table.capacity - data.size) 0

/-- An anchor has no zero byte. -/
theorem zero_not_mem_anchor (kind : EntryPointKind) : (0 : UInt8) ∉ kind.anchor := by
  cases kind <;> decide

/-- The padding adds no anchor. -/
theorem anchored_of_anchored_padded {kind : EntryPointKind} {p : Nat}
    (hfit : data.size ≤ Table.capacity) (h : EntryPoint.Anchored (padded data) kind p) :
    EntryPoint.Anchored data kind p := by
  rw [← EntryPoint.occursAt_anchor_iff, padded, ← Table.bytes_ofBytes hfit] at h
  rw [← EntryPoint.occursAt_anchor_iff]
  exact Table.occursAt_of_occursAt_ofBytes (zero_not_mem_anchor kind) h

/-- What was written into the content stands in the padded content. -/
theorem occursAt_padded {bytes front back : List UInt8}
    (hdata : data = (front ++ bytes ++ back).toArray) (hfit : data.size ≤ Table.capacity) :
    (padded data).occursAt bytes front.length = true := by
  have hsize : front.length + bytes.length ≤ data.size := by
    rw [hdata, List.size_toArray, List.length_append, List.length_append]
    omega
  have hocc : data.occursAt bytes front.length = true := by
    rw [hdata]
    exact occursAt_toArray_append front back
  rw [padded, ← Table.bytes_ofBytes hfit]
  exact Table.occursAt_ofBytes hocc (Nat.le_trans hsize hfit)

/-- **The gate judges the entry point that was written into the content**, if no anchor of its format
begins in front of it and, in the newer format, the older one has no anchor. -/
theorem checkVersion_padded {front back : List UInt8} {kind : EntryPointKind} {version : Version}
    (hdata : data = (front ++ EntryPoint.encode kind version ++ back).toArray)
    (hfit : data.size ≤ Table.capacity)
    (hfirst : ∀ q < front.length, ¬EntryPoint.Anchored data kind q)
    (holder : kind = .smbios30 → ∀ q, ¬EntryPoint.Anchored data .smbios21 q) :
    (∃ entryPoint, EntryPoint.checkVersion (padded data) = .ok entryPoint) ↔
      version ∈ Version.supported := by
  -- an anchor of the padded content is one of the data, so none comes first there either
  have hlocate : EntryPoint.locate (padded data) = .ok ⟨kind, front.length, version⟩ :=
    EntryPoint.locate_of_commits (occursAt_padded hdata hfit)
      (fun q hq => mt (anchored_of_anchored_padded hfit) (hfirst q hq))
      (fun hkind q => mt (anchored_of_anchored_padded hfit) (holder hkind q))
  constructor
  · rintro ⟨entryPoint, hpass⟩
    obtain ⟨hfound, hversion⟩ := EntryPoint.checkVersion_eq_ok_iff.mp hpass
    rw [hlocate] at hfound
    cases hfound
    exact hversion
  · intro hversion
    exact ⟨_, EntryPoint.checkVersion_of_supported hlocate hversion⟩

/-! ## Written images -/

/-- A written image with more content than a table holds is refused. -/
theorem load_encode_of_large (hread : store.read = .ok (encode dirVersion timestamp data))
    (hdeclarable : data.size < UInt32.size) (hlarge : Table.capacity < data.size) (table : Table) :
    load store table =
      (.error (.dataTooLarge (tableHeader dirVersion timestamp data).dataSize), .empty) := by
  have hdeclared := toNat_dataSize_tableHeader dirVersion timestamp hdeclarable
  rw [load_of_read hread,
    loadBytes_of_large (parse?_encode dirVersion timestamp data) (hdeclared ▸ hlarge)]

/-- A written image with content that a table holds leaves the padded content, and the gate
decides. -/
theorem load_encode_of_fits (hread : store.read = .ok (encode dirVersion timestamp data))
    (hfit : data.size ≤ Table.capacity) (table : Table) :
    (load store table).2.bytes = padded data ∧
      (load store table).1 =
        ((EntryPoint.checkVersion (padded data)).map fun entryPoint =>
          ⟨tableHeader dirVersion timestamp data, data.size, entryPoint⟩).mapError .entryPoint := by
  rw [load_of_read hread, loadBytes_encode dirVersion timestamp table hfit,
    Table.bytes_ofBytes hfit]
  exact ⟨rfl, rfl⟩

/-- A result with its value and its failure translated is a success exactly if it was one. -/
theorem map_mapError_eq_ok_iff {ε δ α β : Type} {outcome : Except ε α} {value : α → β}
    {failure : ε → δ} {b : β} :
    (outcome.map value).mapError failure = .ok b ↔ ∃ a, outcome = .ok a ∧ b = value a := by
  constructor
  · intro h
    cases outcome with
    | error reason => cases h
    | ok a =>
      cases h
      exact ⟨a, rfl, rfl⟩
  · rintro ⟨a, rfl, rfl⟩
    rfl

/-- It is a failure exactly if it was one. -/
theorem map_mapError_eq_error_iff {ε δ α β : Type} {outcome : Except ε α} {value : α → β}
    {failure : ε → δ} {d : δ} :
    (outcome.map value).mapError failure = .error d ↔
      ∃ reason, outcome = .error reason ∧ d = failure reason := by
  constructor
  · intro h
    cases outcome with
    | error reason =>
      cases h
      exact ⟨reason, rfl, rfl⟩
    | ok a => cases h
  · rintro ⟨reason, rfl, rfl⟩
    rfl

/-- What a load makes of an image that was written from `data`. -/
structure Delivers (dirVersion : UInt8) (timestamp : UInt32) (data : Bytes)
    (result : Except LoadFailure LoadReport × Table) : Prop where
  /-- The header of the image declares the size of the content. -/
  declares : (tableHeader dirVersion timestamp data).dataSize.toNat = data.size
  /-- Content that is too large is refused, and the table is left empty. -/
  tooLarge : Table.capacity < data.size →
    result = (.error (.dataTooLarge (tableHeader dirVersion timestamp data).dataSize), .empty)
  /-- Any other content stands in the table, with zero bytes behind it. -/
  content : data.size ≤ Table.capacity → result.2.bytes = padded data
  /-- The load succeeds exactly if the gate lets that content pass, and reports what was written and
  what the gate has found. -/
  accepted : data.size ≤ Table.capacity → ∀ report, result.1 = .ok report ↔
    ∃ entryPoint, EntryPoint.checkVersion (padded data) = .ok entryPoint ∧
      report = ⟨tableHeader dirVersion timestamp data, data.size, entryPoint⟩
  /-- The load fails exactly if the gate turns that content down, and for the same reason. -/
  refused : data.size ≤ Table.capacity → ∀ failure, result.1 = .error failure ↔
    ∃ reason, EntryPoint.checkVersion (padded data) = .error reason ∧
      failure = .entryPoint reason
  /-- Content with an entry point of the newer format, and no anchor that comes first, is loaded
  exactly if the version of that entry point is supported. -/
  judged : data.size ≤ Table.capacity → ∀ front version back,
    data = (front ++ EntryPoint.encode .smbios30 version ++ back).toArray →
    (∀ q, ¬EntryPoint.Anchored data .smbios21 q) →
    (∀ q < front.length, ¬EntryPoint.Anchored data .smbios30 q) →
    ((∃ report, result.1 = .ok report) ↔ version ∈ Version.supported)

/-- An image that was written is loaded with what was written. -/
theorem delivers_load (hread : store.read = .ok (encode dirVersion timestamp data))
    (hdeclarable : data.size < UInt32.size) (table : Table) :
    Delivers dirVersion timestamp data (load store table) := by
  have haccepted (hfit : data.size ≤ Table.capacity) (report : LoadReport) :
      (load store table).1 = .ok report ↔
        ∃ entryPoint, EntryPoint.checkVersion (padded data) = .ok entryPoint ∧
          report = ⟨tableHeader dirVersion timestamp data, data.size, entryPoint⟩ := by
    rw [(load_encode_of_fits hread hfit table).2]
    exact map_mapError_eq_ok_iff
  have hrefused (hfit : data.size ≤ Table.capacity) (failure : LoadFailure) :
      (load store table).1 = .error failure ↔
        ∃ reason, EntryPoint.checkVersion (padded data) = .error reason ∧
          failure = .entryPoint reason := by
    rw [(load_encode_of_fits hread hfit table).2]
    exact map_mapError_eq_error_iff
  refine ⟨toNat_dataSize_tableHeader dirVersion timestamp hdeclarable,
    fun hlarge => load_encode_of_large hread hdeclarable hlarge table,
    fun hfit => (load_encode_of_fits hread hfit table).1, haccepted, hrefused, ?_⟩
  intro hfit front version back hdata holder hfirst
  rw [← checkVersion_padded hdata hfit hfirst (fun _ => holder)]
  constructor
  · rintro ⟨report, hok⟩
    obtain ⟨entryPoint, hpass, -⟩ := (haccepted hfit report).mp hok
    exact ⟨entryPoint, hpass⟩
  · rintro ⟨entryPoint, hpass⟩
    exact ⟨_, (haccepted hfit _).mpr ⟨entryPoint, hpass, rfl⟩⟩

/-- **What was written is what is loaded.** A header is read in front of anything, and every image
that is long enough has a header that is written with its first bytes. An image that was written from
any data whose size a header can declare is loaded, into any table, with that data. -/
theorem encode_roundTrip :
    (∀ (header : Header) (rest : List UInt8),
      Header.parse? (header.toBytes ++ rest).toArray = some header) ∧
    (∀ image : Bytes, Header.size ≤ image.size → ∃ header, Header.parse? image = some header ∧
      header.toBytes = (image.extract 0 Header.size).toList) ∧
    ∀ (dirVersion : UInt8) (timestamp : UInt32) (data : Bytes) (store : Store) (table : Table),
      data.size < UInt32.size → store.read = .ok (encode dirVersion timestamp data) →
        Delivers dirVersion timestamp data (load store table) := by
  refine ⟨Header.parse?_toBytes_append, ?_, ?_⟩
  · intro image hlong
    cases hparsed : Header.parse? image with
    | none => exact absurd (Header.parse?_eq_none_iff.mp hparsed) (Nat.not_lt.mpr hlong)
    | some header => exact ⟨header, rfl, Header.toBytes_of_parse? hparsed⟩
  · intro dirVersion timestamp data store table hdeclarable hread
    exact delivers_load hread hdeclarable table

/-- Content that has two bytes in front of an entry point of the newer format. -/
def offsetContent (version : Version) : Bytes :=
  ([1, 2] ++ EntryPoint.encode .smbios30 version).toArray

/-- An entry point behind other bytes is loaded with a supported version and refused with another
one; content with one byte more than a table holds is refused. -/
theorem encode_roundTrip_offset :
    (∃ report, (load (.memory (some (encode 1 7 (offsetContent ⟨3, 2⟩)))) .empty).1 = .ok report) ∧
    (¬∃ report, (load (.memory (some (encode 1 7 (offsetContent ⟨2, 8⟩)))) .empty).1 = .ok report) ∧
    load (.memory (some (encode 1 7 (Array.replicate 65537 0)))) .empty =
      (.error (.dataTooLarge 65537), .empty) := by
  obtain ⟨-, -, hdelivers⟩ := encode_roundTrip
  have hjudged (version : Version)
      (holder : ∀ q < 26, ¬EntryPoint.Anchored (offsetContent version) .smbios21 q)
      (hfirst : ∀ q < 2, ¬EntryPoint.Anchored (offsetContent version) .smbios30 q) :
      (∃ report, (load (.memory (some (encode 1 7 (offsetContent version)))) .empty).1 =
        .ok report) ↔ version ∈ Version.supported := by
    have hsize : (offsetContent version).size = 26 := rfl
    have hfit : (offsetContent version).size ≤ Table.capacity := by
      rw [hsize]
      decide
    refine (hdelivers 1 7 _ (.memory (some (encode 1 7 (offsetContent version)))) .empty
      (Nat.lt_of_le_of_lt hfit (by decide)) rfl).judged hfit [1, 2] version [] ?_
      (EntryPoint.not_anchored_of_lt_size (hsize ▸ holder)) hfirst
    rw [offsetContent, List.append_nil]
  have hsize : (Array.replicate 65537 (0 : UInt8)).size = 65537 := Array.size_replicate
  have hdeclarable : (Array.replicate 65537 (0 : UInt8)).size < UInt32.size := by
    rw [hsize]
    decide
  have hlarge : Table.capacity < (Array.replicate 65537 (0 : UInt8)).size := by
    rw [hsize]
    decide
  have htooLarge := (hdelivers 1 7 _ (.memory (some (encode 1 7 (Array.replicate 65537 0))))
    .empty hdeclarable rfl).tooLarge hlarge
  refine ⟨(hjudged ⟨3, 2⟩ (by decide) (by decide)).mpr (by decide), ?_, ?_⟩
  · exact fun hok => absurd ((hjudged ⟨2, 8⟩ (by decide) (by decide)).mp hok) (by decide)
  · rw [htooLarge, tableHeader, hsize]
    rfl

end ManagedRegion.Image
