import ManagedRegion.Bytes

/-!
# Occurrence: bytes that stand at an offset of a buffer

What an encoder has written is found again by its readers because it stands somewhere in the buffer.
`Bytes.occursAt` says so. A run of bytes stands at an offset exactly if its parts stand one behind
the other (`occursAt_append`), and then checked accesses, extracts and numbers read it back.

What a reader finds depends on the bytes that it looks at alone. `AgreeBelow` says of two buffers
that they hold the same bytes in front of an offset; extracts, numbers, runs and searches that lie
in front of it are then the same in both.
-/

namespace ManagedRegion.Bytes

variable {buf : Bytes} {bytes : List UInt8} {offset : Nat}

/-- Nothing stands everywhere. -/
@[simp] theorem occursAt_nil : buf.occursAt [] offset = true := rfl

/-- A run stands at an offset if its first byte does and the others follow. -/
@[simp] theorem occursAt_cons {b : UInt8} {rest : List UInt8} :
    buf.occursAt (b :: rest) offset = true ↔
      buf[offset]? = some b ∧ buf.occursAt rest (offset + 1) = true := by
  simp [occursAt]

/-- **Two runs stand one behind the other exactly if their concatenation stands there.** -/
theorem occursAt_append {front back : List UInt8} :
    buf.occursAt (front ++ back) offset = true ↔
      buf.occursAt front offset = true ∧ buf.occursAt back (offset + front.length) = true := by
  induction front generalizing offset with
  | nil => simp
  | cons b front ih =>
    rw [List.cons_append, occursAt_cons, occursAt_cons, ih, List.length_cons, and_assoc,
      Nat.add_right_comm, Nat.add_assoc]

/-- A run stands at an offset exactly if each of its bytes stands at its place. -/
theorem occursAt_iff_getElem? :
    buf.occursAt bytes offset = true ↔
      ∀ i (h : i < bytes.length), buf[offset + i]? = some bytes[i] := by
  induction bytes generalizing offset with
  | nil => simp
  | cons b rest ih =>
    rw [occursAt_cons, ih]
    constructor
    · rintro ⟨hfirst, hrest⟩ i hi
      cases i with
      | zero => exact hfirst
      | succ i =>
        have hbyte := hrest i (by simpa using hi)
        rw [Nat.add_right_comm, Nat.add_assoc] at hbyte
        exact hbyte
    · intro h
      refine ⟨h 0 (by simp), fun i hi => ?_⟩
      rw [Nat.add_right_comm, Nat.add_assoc]
      exact h (i + 1) (by simpa using hi)

/-- A run that stands in a buffer does not reach behind its end. -/
theorem size_of_occursAt (h : buf.occursAt bytes offset = true) (hne : bytes ≠ []) :
    offset + bytes.length ≤ buf.size := by
  have hpos : 0 < bytes.length := List.length_pos_iff.mpr hne
  have hlast := occursAt_iff_getElem?.mp h (bytes.length - 1) (by omega)
  have hlt := (Array.getElem?_eq_some_iff.mp hlast).1
  omega

/-- A run that stands at an offset is what the buffer holds there. -/
theorem extract_of_occursAt (h : buf.occursAt bytes offset = true) :
    (buf.extract offset (offset + bytes.length)).toList = bytes := by
  by_cases hne : bytes = []
  · subst hne
    simp
  · have hsize := size_of_occursAt h hne
    refine List.ext_getElem (by simp; omega) fun i hi hi' => ?_
    have hbyte := occursAt_iff_getElem?.mp h i hi'
    simpa using (Array.getElem?_eq_some_iff.mp hbyte).2

/-- The number whose bytes stand at an offset is read there. -/
theorem number?_of_occursAt {width : Nat} (h : buf.occursAt bytes offset = true)
    (hwidth : bytes.length = width) (hne : bytes ≠ []) :
    buf.number? offset width = some (ofLittleEndian bytes) := by
  subst hwidth
  rw [number?_eq_some_iff, extract_of_occursAt h]
  exact ⟨size_of_occursAt h hne, rfl⟩

/-- An extract holds the bytes from its start on, as far as it and the buffer reach. -/
theorem getElem?_extract (buf : Bytes) (start stop i : Nat) :
    (buf.extract start stop)[i]? = if start + i < stop then buf[start + i]? else none := by
  rw [Array.getElem?_extract]
  by_cases hin : start + i < stop
  · rw [if_pos hin]
    by_cases hsize : start + i < buf.size
    · rw [if_pos (by omega)]
    · rw [if_neg (by omega), Array.getElem?_eq_none (by omega)]
  · rw [if_neg hin, if_neg (by omega)]

/-- What a buffer holds between two offsets stands at the first one. -/
theorem occursAt_extract (buf : Bytes) (offset stop : Nat) :
    buf.occursAt (buf.extract offset stop).toList offset = true := by
  rw [occursAt_iff_getElem?]
  intro i hi
  rw [Array.getElem_toList, Array.getElem_extract]
  exact Array.getElem?_eq_getElem _

/-- A run stands at an offset exactly if it is what the buffer holds there. -/
theorem occursAt_iff_extract :
    buf.occursAt bytes offset = true ↔
      (buf.extract offset (offset + bytes.length)).toList = bytes := by
  constructor
  · exact extract_of_occursAt
  · intro h
    have hstands := occursAt_extract buf offset (offset + bytes.length)
    rw [h] at hstands
    exact hstands

/-- The bytes of a number are those from which it is read. -/
theorem toLittleEndian_of_number? {width n : Nat} (h : buf.number? offset width = some n) :
    toLittleEndian width n = (buf.extract offset (offset + width)).toList := by
  obtain ⟨hin, rfl⟩ := number?_eq_some_iff.mp h
  have hlength : (buf.extract offset (offset + width)).toList.length = width := by
    rw [Array.length_toList, Array.size_extract]
    omega
  have hback := toLittleEndian_ofLittleEndian (buf.extract offset (offset + width)).toList
  rw [hlength] at hback
  exact hback

/-- The bytes of a number stand where it is read. -/
theorem occursAt_of_number? {width n : Nat} (h : buf.number? offset width = some n) :
    buf.occursAt (toLittleEndian width n) offset = true := by
  rw [toLittleEndian_of_number? h]
  exact occursAt_extract buf offset (offset + width)

/-- A number that is read is one that its width can hold. -/
theorem lt_of_number? {width n : Nat} (h : buf.number? offset width = some n) :
    n < Nat.pow 256 width := by
  have hread := (number?_eq_some_iff.mp h).2
  have hmod := ofLittleEndian_toLittleEndian width n
  rw [toLittleEndian_of_number? h, hread] at hmod
  rw [hmod]
  exact Nat.mod_lt _ (Nat.pow_pos (by decide))

/-- **A field of a fixed width is read as a value exactly if the bytes of the value stand there.**
The values are those that the width can hold, however they are represented. -/
theorem map_number?_eq_some_iff {α : Type} {width : Nat} {ofNat : Nat → α} {toNat : α → Nat}
    {a : α} (hpos : 0 < width) (hrange : ∀ a, toNat a < Nat.pow 256 width)
    (hto : ∀ n < Nat.pow 256 width, toNat (ofNat n) = n) (hof : ∀ a, ofNat (toNat a) = a) :
    (buf.number? offset width).map ofNat = some a ↔
      buf.occursAt (toLittleEndian width (toNat a)) offset = true := by
  constructor
  · intro hread
    obtain ⟨n, hn, rfl⟩ := Option.map_eq_some_iff.mp hread
    rw [hto n (lt_of_number? hn)]
    exact occursAt_of_number? hn
  · intro hstands
    have hne : toLittleEndian width (toNat a) ≠ [] := by
      intro hnil
      have hlength := length_toLittleEndian width (toNat a)
      rw [hnil, List.length_nil] at hlength
      omega
    rw [number?_of_occursAt hstands (length_toLittleEndian _ _) hne,
      ofLittleEndian_toLittleEndian, Nat.mod_eq_of_lt (hrange a), Option.map_some, hof]

/-- A run stands where the bytes in front of it end. -/
theorem occursAt_toArray_append (front back : List UInt8) :
    occursAt (front ++ bytes ++ back).toArray bytes front.length = true := by
  rw [occursAt_iff_getElem?]
  intro i hi
  simp [List.getElem?_append, hi]

/-! ## The first occurrence -/

/-- **A run is found exactly at its first occurrence.** -/
theorem findFrom?_eq_some_iff {start p : Nat} :
    buf.findFrom? bytes start = some p ↔
      start ≤ p ∧ p < buf.size ∧ buf.occursAt bytes p = true ∧
        ∀ q, start ≤ q → q < p → buf.occursAt bytes q = false := by
  fun_induction findFrom? buf bytes start with
  | case1 start hin hfound =>
    constructor
    · intro h
      obtain rfl := Option.some.inj h
      exact ⟨Nat.le_refl _, hin, hfound, fun q hle hlt => absurd hle (by omega)⟩
    · rintro ⟨hle, -, -, hbefore⟩
      by_cases heq : start = p
      · rw [heq]
      · have hno := hbefore start (Nat.le_refl _) (by omega)
        simp [hfound] at hno
  | case2 start hin hfound ih =>
    rw [ih]
    constructor
    · rintro ⟨hle, hp, hocc, hbefore⟩
      refine ⟨by omega, hp, hocc, fun q hq hlt => ?_⟩
      by_cases heq : q = start
      · subst heq
        simpa using hfound
      · exact hbefore q (by omega) hlt
    · rintro ⟨hle, hp, hocc, hbefore⟩
      have hne : start ≠ p := by
        rintro rfl
        exact hfound hocc
      exact ⟨by omega, hp, hocc, fun q hq hlt => hbefore q (by omega) hlt⟩
  | case3 start hout =>
    simp only [reduceCtorEq, false_iff]
    rintro ⟨hle, hp, -⟩
    omega

/-- A run is not found exactly if it does not occur. -/
theorem findFrom?_eq_none_iff {start : Nat} :
    buf.findFrom? bytes start = none ↔
      ∀ q, start ≤ q → q < buf.size → buf.occursAt bytes q = false := by
  fun_induction findFrom? buf bytes start with
  | case1 start hin hfound =>
    simp only [reduceCtorEq, false_iff]
    intro h
    simpa [hfound] using h start (Nat.le_refl _) hin
  | case2 start hin hfound ih =>
    rw [ih]
    constructor
    · intro h q hq hlt
      by_cases heq : q = start
      · subst heq
        simpa using hfound
      · exact h q (by omega) hlt
    · exact fun h q hq hlt => h q (by omega) hlt
  | case3 start hout => simp; omega

/-! ## Buffers that agree -/

/-- The two buffers hold the same bytes in front of `stop`. -/
def AgreeBelow (buf other : Bytes) (stop : Nat) : Prop :=
  ∀ i < stop, other[i]? = buf[i]?

namespace AgreeBelow

variable {other : Bytes} {start stop : Nat}

/-- Buffers that agree agree less far. -/
theorem mono (h : AgreeBelow buf other stop) (hle : start ≤ stop) : AgreeBelow buf other start :=
  fun i hi => h i (Nat.lt_of_lt_of_le hi hle)

/-- As far as two buffers agree, one reaches as far as the other. -/
theorem le_size_iff (h : AgreeBelow buf other stop) (hle : offset ≤ stop) :
    offset ≤ other.size ↔ offset ≤ buf.size := by
  cases offset with
  | zero => simp
  | succ i =>
    have hends : other.size ≤ i ↔ buf.size ≤ i := by
      rw [← Array.getElem?_eq_none_iff, ← Array.getElem?_eq_none_iff, h i hle]
    omega

/-- An extract that ends where the agreement does is the same. -/
theorem extract_eq (h : AgreeBelow buf other stop) (start : Nat) :
    other.extract start stop = buf.extract start stop := by
  apply Array.ext_getElem?
  intro i
  rw [getElem?_extract, getElem?_extract]
  split
  next hin => exact h (start + i) hin
  next => rfl

/-- A number is read alike in front of the end of the agreement. -/
theorem number?_eq {width : Nat} (h : AgreeBelow buf other stop) (hle : offset + width ≤ stop) :
    other.number? offset width = buf.number? offset width := by
  have hsize := h.le_size_iff hle
  rw [number?, number?, (h.mono hle).extract_eq]
  simp only [hsize]

/-- A run stands alike in front of the end of the agreement. -/
theorem occursAt_eq (h : AgreeBelow buf other stop) (hle : offset + bytes.length ≤ stop) :
    other.occursAt bytes offset = buf.occursAt bytes offset := by
  induction bytes generalizing offset with
  | nil => rfl
  | cons b rest ih =>
    rw [List.length_cons] at hle
    rw [occursAt, occursAt, h offset (by omega), ih (by omega)]

/-- **A run is found at the same place in a buffer that agrees up to the end of it.** -/
theorem findFrom?_eq {p : Nat} (hfound : buf.findFrom? bytes start = some p) (hne : bytes ≠ [])
    (h : AgreeBelow buf other (p + bytes.length)) : other.findFrom? bytes start = some p := by
  obtain ⟨hle, hp, hocc, hbefore⟩ := findFrom?_eq_some_iff.mp hfound
  have hpos : 0 < bytes.length := List.length_pos_iff.mpr hne
  rw [findFrom?_eq_some_iff]
  refine ⟨hle, (h.le_size_iff (by omega)).mpr hp, ?_, ?_⟩
  · rw [h.occursAt_eq (Nat.le_refl _)]
    exact hocc
  · intro q hq hlt
    rw [h.occursAt_eq (by omega)]
    exact hbefore q hq hlt

end AgreeBelow

end ManagedRegion.Bytes
