import ManagedRegion.Proofs.DeviceLayout
import ManagedRegion.Proofs.Views
import ManagedRegion.Service.Request

/-!
# Records: what the dump of memory devices leaves out

The dump takes the first 255 structures of the walk that declare the length of a record and decodes
each of them; a structure that cannot be decoded is left out without a word. That can only happen
where the region ends: a structure with another one behind it has an end, and the end lies behind
its formatted area (`stringArea_add_two_le`), so the region holds the whole of it. So at most the
last structure is missing, and only if the region cuts it off (`collect_map_some`).

**`collect_shows_records`** is the statement on the whole dump.
-/

namespace ManagedRegion.Smbios

open Bytes

variable {buf : Bytes} {start after : Nat} {s later : Structure}

/-! ## Structures with another one behind them -/

/-- A structure of the walk with another one behind it has an end, and the other one does not begin
in front of that. -/
theorem next?_of_mem_walkFrom (hs : s ∈ walkFrom buf start)
    (hlater : later ∈ walkFrom buf start) (hlt : s.offset < later.offset) :
    ∃ after, next? buf s.offset = some after ∧ after ≤ later.offset := by
  induction start using walkFrom.induct buf with
  | case1 start hnone => simp [walkFrom_of_none hnone] at hs
  | case2 start first hfirst hnext =>
    rw [walkFrom_of_some hfirst, walkBehind_of_none hnext, List.mem_singleton] at hs hlater
    rw [hs, hlater] at hlt
    omega
  | case3 start first hfirst after hnext ih =>
    have hoffset := offset_of_structureAt? hfirst
    rw [walkFrom_of_some hfirst, walkBehind_of_some hnext, List.mem_cons] at hs hlater
    rcases hs with rfl | hs
    · rcases hlater with rfl | hlater
      · omega
      · exact ⟨after, hoffset ▸ hnext, le_offset_of_mem_walkFrom hlater⟩
    · rcases hlater with rfl | hlater
      · have hbehind := lt_offset_of_mem_walkBehind (walkBehind_of_some hnext ▸ hs)
        omega
      · exact ih hs hlater

/-- A structure ends at least two bytes behind its formatted area. -/
theorem stringArea_add_two_le (h : next? s.buffer s.offset = some after) :
    s.stringArea + 2 ≤ after := by
  obtain ⟨p, hle, rfl, -⟩ := exists_occursAt_of_next? h
  omega

/-- A structure whose formatted area reaches the end of the buffer is the last one of the walk. -/
theorem walkFrom_of_size_le (h : structureAt? buf start = some s)
    (hcut : buf.size ≤ s.stringArea) : walkFrom buf start = [s] := by
  have hnext : next? buf start = none := by
    rw [← Option.not_isSome_iff_eq_none, Option.isSome_iff_exists]
    rintro ⟨after, hafter⟩
    have hinside := (next?_bounds hafter).2
    rw [← buffer_of_structureAt? h, ← offset_of_structureAt? h] at hafter
    have hbehind := stringArea_add_two_le hafter
    omega
  rw [walkFrom_of_some h, walkBehind_of_none hnext]

namespace MemoryDevice

variable {t : Table} {m : MemoryDevice}

/-! ## Candidates -/

/-- The structures of the walk that are of type 17 and declare at least 0x54 bytes, in table order,
as far as the limit of 255. -/
def candidates (t : Table) : List Structure :=
  ((walk t.bytes).filter fun s => s.type = 17 ∧ 0x54 ≤ s.length.toNat).take 255

/-- The dump decodes the candidates. -/
theorem collect_eq_filterMap_candidates (t : Table) :
    collect t = (candidates t).filterMap decode? := by
  rw [collect, recordsOfType_eq, candidates]
  simp only [UInt8.le_iff_toNat_le]
  rfl

/-- Candidates are structures of the walk in their order. -/
theorem candidates_sublist (t : Table) : (candidates t).Sublist (walk t.bytes) :=
  (List.take_sublist 255 _).trans List.filter_sublist

/-- A candidate is of the type and the length of a record. -/
theorem isOfType_of_mem_candidates (h : s ∈ candidates t) :
    s.type = 17 ∧ 0x54 ≤ s.length.toNat := by
  have hmem := List.mem_of_mem_take h
  exact of_decide_eq_true (List.mem_filter.mp hmem).2

/-- A candidate is decoded exactly if the region does not cut it off. -/
theorem isSome_decode?_of_mem_candidates (h : s ∈ candidates t) :
    (decode? s).isSome = true ↔ s.offset + 0x54 ≤ 65536 := by
  obtain ⟨htype, hlength⟩ := isOfType_of_mem_candidates h
  have hbuffer : s.buffer = t.bytes :=
    buffer_of_mem_walkFrom ((candidates_sublist t).subset h)
  rw [isSome_decode?_iff_offset, hbuffer, t.size_eq]
  exact ⟨fun hfits => hfits.2.2, fun hfits => ⟨htype, hlength, hfits⟩⟩

/-- **The region does not cut off a candidate that has another one behind it.** -/
theorem add_le_of_followed (hs : s ∈ candidates t) (hlater : later ∈ candidates t)
    (hlt : s.offset < later.offset) : s.offset + 0x54 ≤ 65536 := by
  have hwalk := (candidates_sublist t).subset hs
  have hbuffer : s.buffer = t.bytes := buffer_of_mem_walkFrom hwalk
  obtain ⟨after, hnext, -⟩ :=
    next?_of_mem_walkFrom hwalk ((candidates_sublist t).subset hlater) hlt
  have hlength := (isOfType_of_mem_candidates hs).2
  have hbehind := stringArea_add_two_le (hbuffer ▸ hnext)
  have hinside := (next?_bounds hnext).2
  rw [t.size_eq, Table.capacity] at hinside
  rw [Structure.stringArea] at hbehind
  omega

/-! ## The candidates that are shown -/

/-- The candidates without the last one, if the region cuts that off. -/
def shown (t : Table) : List Structure :=
  if (candidates t).getLast?.any fun s => 65536 < s.offset + 0x54 then (candidates t).dropLast
  else candidates t

/-- If there are candidates, all but the last one are shown, and the last one too unless the region
cuts it off. -/
theorem shown_of_append {init : List Structure} (h : candidates t = init ++ [s]) :
    shown t = if 65536 < s.offset + 0x54 then init else init ++ [s] := by
  simp [shown, h]

/-- What is shown are candidates in their order. -/
theorem shown_sublist (t : Table) : (shown t).Sublist (candidates t) := by
  unfold shown
  split
  · exact List.dropLast_sublist _
  · exact List.Sublist.refl _

/-- All candidates in front of the last one are decoded. -/
theorem isSome_decode?_of_mem_init {init : List Structure} (h : candidates t = init ++ [later])
    (hs : s ∈ init) : (decode? s).isSome = true := by
  have hcandidate : s ∈ candidates t := h ▸ List.mem_append_left _ hs
  have hlast : later ∈ candidates t := h ▸ List.mem_append_right _ (List.mem_singleton_self _)
  have hordered : (candidates t).Pairwise fun a b => a.offset < b.offset :=
    pairwise_offset_walkFrom.sublist (candidates_sublist t)
  rw [h, List.pairwise_append] at hordered
  have hlt := hordered.2.2 s hs later (List.mem_singleton_self _)
  exact (isSome_decode?_of_mem_candidates hcandidate).mpr (add_le_of_followed hcandidate hlast hlt)

/-- **The dump decodes what is shown, and every structure that is shown is decoded.** -/
theorem collect_map_some (t : Table) : (collect t).map some = (shown t).map decode? := by
  have hall (l : List Structure) (h : ∀ s ∈ l, (decode? s).isSome = true) :
      (l.filterMap decode?).map some = l.map decode? := by
    rw [List.map_filterMap_some_eq_filter_map_isSome, List.filter_eq_self]
    intro device hdevice
    obtain ⟨s, hs, rfl⟩ := List.mem_map.mp hdevice
    exact h s hs
  rw [collect_eq_filterMap_candidates]
  rcases List.eq_nil_or_concat (candidates t) with hnone | ⟨init, last, hsplit⟩
  · simp [shown, hnone]
  · rw [List.concat_eq_append] at hsplit
    have hinit : ∀ s ∈ init, (decode? s).isSome = true :=
      fun s hs => isSome_decode?_of_mem_init hsplit hs
    have hmem : last ∈ candidates t :=
      hsplit ▸ List.mem_append_right _ (List.mem_singleton_self _)
    have hlast : (decode? last).isSome = true ↔ last.offset + 0x54 ≤ 65536 :=
      isSome_decode?_of_mem_candidates hmem
    rw [shown_of_append hsplit, hsplit]
    split
    next hcut =>
      have hnone : decode? last = none := by
        rw [← Option.not_isSome_iff_eq_none, hlast]
        omega
      rw [List.filterMap_append, List.filterMap_cons_none hnone, List.filterMap_nil,
        List.append_nil, hall init hinit]
    next hcut =>
      refine hall _ fun s hs => ?_
      rcases List.mem_append.mp hs with hs | hs
      · exact hinit s hs
      · rw [List.mem_singleton.mp hs, hlast]
        omega

/-- A record has the handle of the structure that it was read from. -/
theorem handle_of_decode? (h : decode? s = some m) : m.handle = s.handle := by
  obtain ⟨numbers, -, hread⟩ := occursAt_of_decode? h
  rw [hread]
  rfl

/-- The records have the handles of the structures that are shown, in their order. -/
theorem collect_map_handle (t : Table) :
    (collect t).map (·.handle) = (shown t).map (·.handle) := by
  have hread := collect_map_some t
  have hhandles : ∀ (devices : List MemoryDevice) (l : List Structure),
      devices.map some = l.map decode? → devices.map (·.handle) = l.map (·.handle) := by
    intro devices l
    induction l generalizing devices with
    | nil => simp
    | cons s rest ih =>
      intro h
      cases devices with
      | nil => simp at h
      | cons m devices =>
        rw [List.map_cons, List.map_cons, List.cons.injEq] at h
        rw [List.map_cons, List.map_cons, ih devices h.2, handle_of_decode? h.1.symm]
  exact hhandles _ _ hread

/-- There are no more records than memory devices in the inventory. -/
theorem length_collect_le (t : Table) :
    (collect t).length ≤ (Inventory.collect t).memoryDevices := by
  have hcandidates : (collect t).length ≤ (candidates t).length := by
    rw [collect_eq_filterMap_candidates]
    exact List.length_filterMap_le _ _
  have hcount : (Inventory.collect t).memoryDevices =
      min 255 ((walk t.bytes).countP fun s => s.type = 17) := countOfType_zero_eq_min 17
  have hmono : (walk t.bytes).countP (fun s => s.type = 17 ∧ 0x54 ≤ s.length.toNat) ≤
      (walk t.bytes).countP fun s => s.type = 17 := by
    refine List.countP_mono_left fun s _ h => ?_
    simp only [decide_eq_true_eq] at h ⊢
    exact h.1
  rw [candidates, List.length_take, ← List.countP_eq_length_filter] at hcandidates
  omega

/-- **The dump loses and invents nothing.** It decodes, in table order, the first 255 structures of
the walk that are of type 17 and declare at least 0x54 bytes. All of them are decoded but for the
last one, and that is left out exactly if the region cuts it off. So the records have the handles of
these structures in the order of the walk, and there are no more of them than memory devices in the
inventory. A service hands out the dump of its table for type 17 and refuses every other type. -/
theorem collect_shows_records (t : Table) :
    collect t = (candidates t).filterMap decode? ∧
    (collect t).map some = (shown t).map decode? ∧
    (collect t).map (·.handle) = (shown t).map (·.handle) ∧
    (shown t).Sublist (walk t.bytes) ∧
    (collect t).length ≤ (Inventory.collect t).memoryDevices ∧
    ∀ (service : Service) (type : UInt8), service.records type =
      if type = 17 then .ok (collect service.table)
      else .error (.invalidParameter (.recordType type)) :=
  ⟨collect_eq_filterMap_candidates t, collect_map_some t, collect_map_handle t,
    (shown_sublist t).trans (candidates_sublist t), length_collect_le t, fun _ _ => rfl⟩

/-- A structure that only takes up room. -/
def filler (room : Nat) : StructureContent where
  type := 11
  handle := 0x0B00
  body := []
  texts := [List.replicate (room + 1) 0x41]
  length_body := Nat.zero_le _
  nil_notMem := by simp [List.replicate_succ]
  zero_notMem := by simp

/-- A filler takes up seven bytes more than its room. -/
theorem length_encode_filler (room : Nat) : (filler room).encode.length = room + 7 := by
  simp [StructureContent.encode, StructureContent.encodeFormatted, StringSet.encode, filler]
  omega

/-- A second sample device, with a handle of its own. -/
def secondContent : StructureContent :=
  { sampleContent 5600 with handle := 0x1101 }

/-- Two devices with a filler in between, as far as a table holds them. -/
def twoDevices (room : Nat) : Table :=
  Table.ofBytes (encodeTable [sampleContent 4800, filler room, secondContent] 0)

/-- If the table ends behind the header of the second device, but not behind its formatted area, the
walk ends with the header. -/
theorem walk_twoDevices {room : Nat} (hheader : room + 102 ≤ Table.capacity)
    (hcut : Table.capacity ≤ room + 183) :
    ∃ first middle second, walk (twoDevices room).bytes = [first, middle, second] ∧
      first.Shows 0 (sampleContent 4800) ∧ middle.Shows 91 (filler room) ∧
      second.offset = room + 98 ∧ second.header = secondContent.header := by
  have hsize : (sampleContent 4800).encode.length = 91 := by decide
  have hwritten := occursAt_encodeTable [sampleContent 4800, filler room, secondContent] 0 3
  simp only [List.take_succ_cons, List.take_zero, List.flatMap_cons, List.flatMap_nil,
    List.append_nil, occursAt_append, hsize, length_encode_filler, Nat.zero_add] at hwritten
  obtain ⟨hfirst, hmiddle, hlast⟩ := hwritten
  have hfirst := Table.occursAt_ofBytes hfirst (by rw [hsize]; decide)
  have hmiddle := Table.occursAt_ofBytes hmiddle (by rw [length_encode_filler]; omega)
  -- Of the last structure only the header is sure to be in the table.
  have hbegin := StructureContent.occursAt_encodeHeader (occursAt_append.mp hlast).1
  have hheaderAt := StructureContent.headerAt?_of_encodeHeader
    (Table.occursAt_ofBytes hbegin (by simp [StructureContent.encodeHeader]; omega))
  obtain ⟨first, hfirstShows, hfirstWalk⟩ := walkFrom_of_occursAt hfirst
  obtain ⟨middle, hmiddleShows, hmiddleWalk⟩ := walkFrom_of_occursAt hmiddle
  let second : Structure := ⟨_, _, secondContent.header, hheaderAt⟩
  have hoffset : second.offset = room + 98 := by
    show 91 + (room + 7) = room + 98
    omega
  have hend : walkFrom (twoDevices room).bytes second.offset = [second] := by
    refine walkFrom_of_size_le (structureAt?_self second) ?_
    rw [(twoDevices room).size_eq]
    show Table.capacity ≤ second.offset + 0x55
    omega
  refine ⟨first, middle, second, ?_, hfirstShows, hmiddleShows, hoffset, rfl⟩
  rw [walk, twoDevices, hfirstWalk, hsize, Nat.zero_add, hmiddleWalk, length_encode_filler]
  exact congrArg (first :: middle :: ·) hend

/-- The second device is a candidate then, behind the first one. -/
theorem candidates_twoDevices {room : Nat} (hheader : room + 102 ≤ Table.capacity)
    (hcut : Table.capacity ≤ room + 183) :
    ∃ first second, candidates (twoDevices room) = [first, second] ∧
      first.offset = 0 ∧ first.handle = 0x1100 ∧
      second.offset = room + 98 ∧ second.handle = 0x1101 := by
  obtain ⟨first, middle, second, hwalk, hfirst, hmiddle, hoffset, hsecond⟩ :=
    walk_twoDevices hheader hcut
  have hshown : first.type = 17 ∧ 0x54 ≤ first.length.toNat := by
    rw [hfirst.type_eq, hfirst.toNat_length]
    decide
  have hfilling : ¬(middle.type = 17 ∧ 0x54 ≤ middle.length.toNat) := by
    rw [hmiddle.type_eq]
    simp [filler]
  have hcutOff : second.type = 17 ∧ 0x54 ≤ second.length.toNat := by
    rw [Structure.type, Structure.length, hsecond]
    decide
  have hhandle : second.handle = 0x1101 := by
    rw [Structure.handle, hsecond]
    rfl
  refine ⟨first, second, ?_, hfirst.offset_eq, hfirst.handle_eq, hoffset, hhandle⟩
  rw [candidates, hwalk, List.filter_cons_of_pos (by simpa using hshown),
    List.filter_cons_of_neg (by simpa using hfilling),
    List.filter_cons_of_pos (by simpa using hcutOff), List.filter_nil]
  rfl

/-- The region cuts off the last byte of the last field of the second device. Both devices are
candidates, and the dump leaves the second one out. -/
theorem collect_shows_records_cutOff :
    (candidates (twoDevices 65355)).map (fun s => (s.handle, s.offset)) =
      [(0x1100, 0), (0x1101, 65453)] ∧
    (shown (twoDevices 65355)).map (·.handle) = [0x1100] ∧
    (collect (twoDevices 65355)).map (·.handle) = [0x1100] := by
  obtain ⟨first, second, hcandidates, hfront, hfirst, hoffset, hsecond⟩ :=
    @candidates_twoDevices 65355 (by decide) (by decide)
  have hsplit : candidates (twoDevices 65355) = [first] ++ [second] := hcandidates
  have hshown : (shown (twoDevices 65355)).map (·.handle) = [0x1100] := by
    rw [shown_of_append hsplit, hoffset, if_pos (by decide), List.map_singleton, hfirst]
  refine ⟨?_, hshown, (collect_shows_records (twoDevices 65355)).2.2.1.trans hshown⟩
  rw [hcandidates, List.map_cons, List.map_singleton, hfront, hfirst, hoffset, hsecond]

end MemoryDevice

end ManagedRegion.Smbios
