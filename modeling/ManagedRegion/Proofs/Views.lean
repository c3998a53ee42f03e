import ManagedRegion.Proofs.Numbering
import ManagedRegion.Smbios.MemoryDevice

/-!
# Views: what can be read of a structure, and which bytes that takes

Nothing tells the readers of a structure where it ends. Fields are bounded by the formatted area, but
the readers of texts only look for terminators, and each goes on by itself. Still none of them looks
behind the two zero bytes at which the stepper finds the end (`runs_eq_of_agree`): a reader that
stands in front of them meets the first of them as a terminator, and the second one stops it.

`Structure.view` is all that can be read of a structure. Two buffers that agree up to the end of a
structure show the same view of it, wherever it stands (`view_eq_of_agree`).
-/

namespace ManagedRegion.Smbios

open Bytes

variable {buf other : Bytes} {start stop offset after p : Nat}

/-! ## Headers -/

/-- A header is read alike in buffers that agree on its four bytes. -/
theorem headerAt?_eq_of_agree (h : AgreeBelow buf other (offset + 4)) :
    headerAt? other offset = headerAt? buf offset := by
  have hhandle : other.number? (offset + 2) 2 = buf.number? (offset + 2) 2 :=
    h.number?_eq (Nat.le_refl _)
  rw [headerAt?, headerAt?, Header.parse?, Header.parse?, h offset (by omega),
    h (offset + 1) (by omega), hhandle]

/-- Where a structure begins stands the length that its header declares, and that has room for the
header. -/
theorem getElem?_length_of_headerAt? {header : Header} (h : headerAt? buf offset = some header) :
    buf[offset + 1]? = some header.length ∧ 4 ≤ header.length.toNat := by
  rw [headerAt?, Option.filter_eq_some_iff, Header.parse?] at h
  obtain ⟨hparse, hbegins⟩ := h
  simp only [Option.bind_eq_bind, Option.bind_eq_some_iff] at hparse
  obtain ⟨type, -, length, hlength, handle, -, hheader⟩ := hparse
  obtain rfl := Option.some.inj hheader
  rw [Header.beginsStructure, Bool.and_eq_true, decide_eq_true_iff] at hbegins
  exact ⟨hlength, hbegins.2⟩

/-! ## Ends -/

/-- The search for two zero bytes is one for a run of them. -/
theorem doubleNull?_eq_findFrom? (buf : Bytes) (start : Nat) :
    doubleNull? buf start = buf.findFrom? [0, 0] start := by
  fun_induction doubleNull? buf start with
  | case1 start hin hnull => rw [findFrom?, if_pos (by omega), if_pos (by simp [hnull])]
  | case2 start hin hnull ih =>
    rw [findFrom?, if_pos (by omega), if_neg (by simpa using hnull), ih]
  | case3 start hout =>
    symm
    rw [findFrom?_eq_none_iff]
    intro q hle hlt
    have hend : buf[q + 1]? = none := Array.getElem?_eq_none (by omega)
    simp [occursAt, hend]

/-- A structure ends behind the first two zero bytes that follow its formatted area. -/
theorem next?_eq_some_iff :
    next? buf offset = some after ↔
      ∃ length p, buf[offset + 1]? = some length ∧
        buf.findFrom? [0, 0] (offset + length.toNat) = some p ∧ after = p + 2 := by
  simp only [next?, Option.bind_eq_bind, Option.bind_eq_some_iff, doubleNull?_eq_findFrom?, pure,
    Option.some.injEq]
  constructor
  · rintro ⟨length, hlength, p, hp, hafter⟩
    exact ⟨length, p, hlength, hp, hafter.symm⟩
  · rintro ⟨length, p, hlength, hp, hafter⟩
    exact ⟨length, hlength, p, hp, hafter.symm⟩

/-- A structure ends behind its header. -/
theorem add_four_le_of_next? {header : Header} (hheader : headerAt? buf offset = some header)
    (hnext : next? buf offset = some after) : offset + 4 ≤ after := by
  obtain ⟨hdeclared, hroom⟩ := getElem?_length_of_headerAt? hheader
  obtain ⟨length, p, hlength, hp, rfl⟩ := next?_eq_some_iff.mp hnext
  obtain rfl := Option.some.inj (hlength.symm.trans hdeclared)
  have hle := (findFrom?_eq_some_iff.mp hp).1
  omega

/-- **A structure ends at the same place in a buffer that agrees up to its end.** -/
theorem next?_eq_of_agree (hnext : next? buf offset = some after)
    (h : AgreeBelow buf other after) : next? other offset = some after := by
  have hbounds := next?_bounds hnext
  obtain ⟨length, p, hlength, hp, rfl⟩ := next?_eq_some_iff.mp hnext
  rw [next?_eq_some_iff]
  refine ⟨length, p, ?_, ?_, rfl⟩
  · rw [h (offset + 1) (by omega)]
    exact hlength
  · exact h.findFrom?_eq hp (by decide)

end ManagedRegion.Smbios

namespace ManagedRegion.Smbios.StringSet

open Bytes

variable {buf other : Bytes} {area start stop p : Nat}

/-! ## Texts -/

/-- In front of a zero byte there is a terminator. -/
theorem exists_terminator?_le (hnull : buf[p]? = some 0) (hle : start ≤ p) :
    ∃ stop ≤ p, terminator? buf start = some stop := by
  have hp := (Array.getElem?_eq_some_iff.mp hnull).1
  cases hstop : terminator? buf start with
  | none =>
    rw [terminator?_eq_findFrom?, findFrom?_eq_none_iff] at hstop
    have hno := hstop p hle hp
    simp [occursAt, hnull] at hno
  | some stop =>
    refine ⟨stop, ?_, rfl⟩
    rw [terminator?_eq_findFrom?, findFrom?_eq_some_iff] at hstop
    apply Nat.le_of_not_lt
    intro hlt
    have hno := hstop.2.2.2 p hle hlt
    simp [occursAt, hnull] at hno

/-- **The lister does not look behind two zero bytes that it starts in front of.** -/
theorem runs_eq_of_agree (hnull : buf.occursAt [0, 0] p = true)
    (h : AgreeBelow buf other (p + 2)) (hle : start ≤ p + 1) :
    runs other start = runs buf start := by
  have hfirst := (occursAt_cons.mp hnull).1
  have hsecond := (occursAt_cons.mp (occursAt_cons.mp hnull).2).1
  have hsize := (Array.getElem?_eq_some_iff.mp hsecond).1
  have hinside (i : Nat) (b : UInt8) (hi : i ≤ p + 1) (hb : buf[i]? = some b) (hne : ¬b = 0) :
      i ≤ p := by
    have hlt : i ≠ p + 1 := by
      rintro rfl
      exact hne (Option.some.inj (hb.symm.trans hsecond))
    omega
  -- The induction goes along the texts; each begins at or in front of the second zero byte.
  induction start using runs.induct buf with
  | case1 start hnone =>
    rw [Array.getElem?_eq_none_iff] at hnone
    omega
  | case2 start hclosed =>
    rw [runs_of_null hclosed, runs_of_null (by rw [h start (by omega), hclosed])]
  | case3 start first hbyte hne hopen =>
    have hfront : start ≤ p := hinside start first hle hbyte hne
    obtain ⟨stop, -, hstop⟩ := exists_terminator?_le hfirst hfront
    rw [hopen] at hstop
    cases hstop
  | case4 start first hbyte hne stop hstop ih =>
    have hfront : start ≤ p := hinside start first hle hbyte hne
    obtain ⟨stop', hle', hstop'⟩ := exists_terminator?_le hfirst hfront
    obtain rfl := Option.some.inj (hstop.symm.trans hstop')
    have hopens : buf[start]? ≠ some 0 :=
      fun hclosed => hne (Option.some.inj (hbyte.symm.trans hclosed))
    have hopens' : other[start]? ≠ some 0 := by
      rw [h start (by omega)]
      exact hopens
    have hother : terminator? other start = some stop := by
      have hagree : AgreeBelow buf other (stop + 1) := h.mono (by omega)
      rw [terminator?_eq_findFrom?] at hstop ⊢
      exact hagree.findFrom?_eq hstop (by decide)
    have hrun : run other start stop = run buf start stop := by
      have hagree : AgreeBelow buf other stop := h.mono (by omega)
      rw [run, run, hagree.extract_eq]
    rw [runs_of_terminator hopens hstop, runs_of_terminator hopens' hother, hrun, ih (by omega)]

/-- Nor does the reader of one text. -/
theorem numbered_eq_of_agree (hnull : buf.occursAt [0, 0] p = true)
    (h : AgreeBelow buf other (p + 2)) (hle : area ≤ p) :
    numbered other area = numbered buf area := by
  rw [numbered, numbered, h area (by omega), runs_eq_of_agree hnull h (by omega),
    runs_eq_of_agree hnull h (by omega)]

/-- The text of a number is a matter of what the numbers refer to. -/
theorem resolve_congr (h : numbered other area = numbered buf area) (number : Nat) :
    resolve other area number = resolve buf area number := by
  cases number with
  | zero => rfl
  | succ n => rw [resolve_eq_getElem?_numbered, resolve_eq_getElem?_numbered, h]

end ManagedRegion.Smbios.StringSet

namespace ManagedRegion.Smbios

open Bytes

variable {buf other : Bytes} {start stop offset after p : Nat} {s t : Structure}

/-! ## Views -/

/-- All that can be read of a structure. -/
structure View where
  /-- Where it begins. -/
  offset : Nat
  /-- Its first four bytes. -/
  header : Header
  /-- Where it ends. -/
  after? : Option Nat
  /-- Its formatted area. -/
  formatted : Bytes
  /-- Its fields of one byte. -/
  byte? : Nat → Option UInt8
  /-- Its fields of two bytes. -/
  word? : Nat → Option UInt16
  /-- Its fields of four bytes. -/
  dword? : Nat → Option UInt32
  /-- Its fields of eight bytes. -/
  qword? : Nat → Option UInt64
  /-- Its texts by their numbers. -/
  string : UInt8 → String
  /-- Its texts by the fields that refer to them. -/
  stringAt : Nat → String
  /-- Its texts in order. -/
  strings : List String
  /-- The memory device that it describes. -/
  device? : Option MemoryDevice

/-- All that can be read of the structure. -/
def Structure.view (s : Structure) : View where
  offset := s.offset
  header := s.header
  after? := Smbios.next? s.buffer s.offset
  formatted := s.formatted
  byte? := s.byte?
  word? := s.word?
  dword? := s.dword?
  qword? := s.qword?
  string := s.string
  stringAt := s.stringAt
  strings := s.strings
  device? := MemoryDevice.decode? s

/-- The fields of a structure are read in its formatted area. -/
theorem fields_congr (h : t.formatted = s.formatted) :
    t.byte? = s.byte? ∧ t.word? = s.word? ∧ t.dword? = s.dword? ∧ t.qword? = s.qword? := by
  refine ⟨?_, ?_, ?_, ?_⟩ <;> funext field
  · rw [Structure.byte?, Structure.byte?, h]
  · rw [Structure.word?, Structure.word?, h]
  · rw [Structure.dword?, Structure.dword?, h]
  · rw [Structure.qword?, Structure.qword?, h]

/-- A text that a field refers to is one of the texts by number. -/
theorem stringAt_congr (hformatted : t.formatted = s.formatted) (hstring : t.string = s.string) :
    t.stringAt = s.stringAt := by
  funext field
  rw [Structure.stringAt, Structure.stringAt, (fields_congr hformatted).1, hstring]

/-- A memory device is decoded from the header, the formatted area and the texts by number. -/
theorem decode?_congr (hheader : t.header = s.header) (hformatted : t.formatted = s.formatted)
    (hstring : t.string = s.string) : MemoryDevice.decode? t = MemoryDevice.decode? s := by
  obtain ⟨hbyte, hword, hdword, hqword⟩ := fields_congr hformatted
  have htext := stringAt_congr hformatted hstring
  have htype : t.type = s.type := congrArg Header.type hheader
  have hlength : t.length = s.length := congrArg Header.length hheader
  have hhandle : t.handle = s.handle := congrArg Header.handle hheader
  rw [MemoryDevice.decode?, MemoryDevice.decode?, hheader, hbyte, hword, hdword, hqword, htext,
    htype, hlength, hhandle]

/-- Structures look the same if they begin and end at the same place with the same header, and their
formatted areas and texts are the same. -/
theorem view_congr (hoffset : t.offset = s.offset) (hheader : t.header = s.header)
    (hafter : Smbios.next? t.buffer t.offset = Smbios.next? s.buffer s.offset)
    (hformatted : t.formatted = s.formatted) (hstring : t.string = s.string)
    (hstrings : t.strings = s.strings) : t.view = s.view := by
  obtain ⟨hbyte, hword, hdword, hqword⟩ := fields_congr hformatted
  rw [Structure.view, Structure.view, hafter, hoffset, hheader, hformatted, hbyte, hword, hdword,
    hqword, hstring, stringAt_congr hformatted hstring, hstrings,
    decode?_congr hheader hformatted hstring]

/-- In a structure that ends, two zero bytes stand behind the formatted area, and nothing but its
texts in between. -/
theorem exists_occursAt_of_next? (h : next? s.buffer s.offset = some after) :
    ∃ p, s.stringArea ≤ p ∧ after = p + 2 ∧ s.buffer.occursAt [0, 0] p = true := by
  obtain ⟨length, p, hlength, hp, hafter⟩ := next?_eq_some_iff.mp h
  have hdeclared := (getElem?_length_of_headerAt? s.header_eq).1
  obtain rfl := Option.some.inj (hlength.symm.trans hdeclared)
  obtain ⟨hle, -, hnull, -⟩ := findFrom?_eq_some_iff.mp hp
  exact ⟨p, hle, hafter, hnull⟩

/-- **All that can be read of a structure is a matter of the bytes up to its end.** -/
theorem view_eq_of_agree (hnext : next? s.buffer s.offset = some after)
    (h : AgreeBelow s.buffer other after) :
    ∃ t, structureAt? other s.offset = some t ∧ t.view = s.view := by
  obtain ⟨p, harea, rfl, hnull⟩ := exists_occursAt_of_next? hnext
  have hinside := add_four_le_of_next? s.header_eq hnext
  have hheader : headerAt? other s.offset = some s.header := by
    rw [headerAt?_eq_of_agree (h.mono hinside)]
    exact s.header_eq
  let t : Structure := ⟨other, s.offset, s.header, hheader⟩
  have hnumbered := StringSet.numbered_eq_of_agree hnull h harea
  refine ⟨t, structureAt?_self t, view_congr rfl rfl ?_ ?_ ?_ ?_⟩
  · rw [hnext]
    exact next?_eq_of_agree hnext h
  · exact (h.mono (Nat.le_succ_of_le (Nat.le_succ_of_le harea))).extract_eq s.offset
  · funext number
    exact StringSet.resolve_congr hnumbered number.toNat
  · exact congrArg (List.map Utf8.lossy)
      (StringSet.runs_eq_of_agree hnull h (Nat.le_succ_of_le harea))

end ManagedRegion.Smbios
