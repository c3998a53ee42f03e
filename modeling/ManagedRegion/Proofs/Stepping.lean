import ManagedRegion.Proofs.Views
import ManagedRegion.Smbios.Machine

/-!
# Stepping: where a structure ends, and that the scan for its end comes to one

A structure ends behind the first two zero bytes at or behind the end of its formatted area. The
stepper finds exactly these (`next?_eq_some_iff_firstClosing`), whatever the bytes in front of them
are: zero bytes may overlap, and the declared length may be zero or reach behind the buffer.

The scan counts in words. `round_of_lt`, `round_of_null` and `round_of_not_null` say what a round
does, and none of them lets a sum overflow; a round that moves on leaves less of the buffer, and so
the scan comes to the answer of the stepper (`exists_scans`, `exists_steps`). **`stepper_exact`**
puts both halves together.
-/

namespace ManagedRegion.Smbios

open Bytes

variable {buf : Bytes} {start offset after p : Nat}

/-! ## The first two zero bytes -/

/-- Two zero bytes stand at `p`, at or behind `start`. -/
structure ClosesAt (buf : Bytes) (start p : Nat) : Prop where
  /-- They do not stand in front of the start. -/
  start_le : start ≤ p
  /-- The buffer holds both. -/
  inside : p + 1 < buf.size
  /-- The first one is zero. -/
  first_eq : buf[p]? = some 0
  /-- The second one is zero. -/
  second_eq : buf[p + 1]? = some 0

/-- The first place at or behind `start` where two zero bytes stand. -/
structure FirstClosing (buf : Bytes) (start p : Nat) : Prop where
  /-- They stand there. -/
  closes : ClosesAt buf start p
  /-- And nowhere before. -/
  least : ∀ q, ClosesAt buf start q → p ≤ q

/-- Two zero bytes close where they occur. -/
theorem closesAt_iff_occursAt :
    ClosesAt buf start p ↔ start ≤ p ∧ buf.occursAt [0, 0] p = true := by
  rw [occursAt_cons, occursAt_cons]
  constructor
  · intro h
    exact ⟨h.start_le, h.first_eq, h.second_eq, occursAt_nil⟩
  · rintro ⟨hle, hfirst, hsecond, -⟩
    exact ⟨hle, (Array.getElem?_eq_some_iff.mp hsecond).1, hfirst, hsecond⟩

/-- **The search finds the first two zero bytes.** -/
theorem doubleNull?_eq_some_iff : doubleNull? buf start = some p ↔ FirstClosing buf start p := by
  rw [doubleNull?_eq_findFrom?, findFrom?_eq_some_iff]
  constructor
  · rintro ⟨hle, -, hocc, hbefore⟩
    refine ⟨closesAt_iff_occursAt.mpr ⟨hle, hocc⟩, fun q hq => Nat.le_of_not_lt fun hlt => ?_⟩
    have hno := hbefore q hq.start_le hlt
    rw [(closesAt_iff_occursAt.mp hq).2] at hno
    cases hno
  · intro h
    have hin := h.closes.inside
    refine ⟨h.closes.start_le, by omega, (closesAt_iff_occursAt.mp h.closes).2, ?_⟩
    intro q hle hlt
    rw [← Bool.not_eq_true]
    intro hocc
    have hq := h.least q (closesAt_iff_occursAt.mpr ⟨hle, hocc⟩)
    exact Nat.not_le_of_lt hlt hq

/-- The search finds something exactly if two zero bytes stand somewhere. -/
theorem isSome_doubleNull?_iff :
    (doubleNull? buf start).isSome ↔ ∃ p, ClosesAt buf start p := by
  constructor
  · intro h
    obtain ⟨p, hp⟩ := Option.isSome_iff_exists.mp h
    exact ⟨p, (doubleNull?_eq_some_iff.mp hp).closes⟩
  · rintro ⟨p, hp⟩
    rw [Option.isSome_iff_ne_none, doubleNull?_eq_findFrom?]
    intro hnone
    have hin := hp.inside
    have hno := findFrom?_eq_none_iff.mp hnone p hp.start_le (by omega)
    rw [(closesAt_iff_occursAt.mp hp).2] at hno
    cases hno

/-- Nothing ends where no length is declared. -/
theorem next?_of_outside (h : buf[offset + 1]? = none) : next? buf offset = none := by
  rw [next?, h]
  rfl

/-- The end of a structure is searched for behind the area that it declares. -/
theorem next?_of_length {length : UInt8} (h : buf[offset + 1]? = some length) :
    next? buf offset = (doubleNull? buf (offset + length.toNat)).map (· + 2) := by
  rw [next?, h]
  cases hp : doubleNull? buf (offset + length.toNat) <;> simp [hp]

/-- A structure ends behind the first two zero bytes that follow its formatted area. -/
theorem next?_eq_some_iff_firstClosing :
    next? buf offset = some after ↔
      ∃ length p, buf[offset + 1]? = some length ∧
        FirstClosing buf (offset + length.toNat) p ∧ after = p + 2 := by
  rw [next?_eq_some_iff]
  simp only [← doubleNull?_eq_findFrom?, doubleNull?_eq_some_iff]

/-- A structure ends exactly if it declares a length and two zero bytes follow. -/
theorem isSome_next?_iff :
    (next? buf offset).isSome ↔
      ∃ length p, buf[offset + 1]? = some length ∧ ClosesAt buf (offset + length.toNat) p := by
  constructor
  · intro h
    obtain ⟨after, hafter⟩ := Option.isSome_iff_exists.mp h
    obtain ⟨length, p, hlength, hp, -⟩ := next?_eq_some_iff_firstClosing.mp hafter
    exact ⟨length, p, hlength, hp.closes⟩
  · rintro ⟨length, p, hlength, hp⟩
    rw [next?_of_length hlength, Option.isSome_map]
    exact isSome_doubleNull?_iff.mpr ⟨p, hp⟩

end ManagedRegion.Smbios

namespace ManagedRegion.Smbios.Machine

open Bytes

variable {buf : Bytes} {cursor offset : UInt64} {rounds : Nat} {answer : Option UInt64}

/-! ## The rounds of the scan -/

/-- A sum of an offset inside a buffer and a small number does not overflow. -/
theorem exists_add? (hsize : buf.size < bufferLimit) (hin : cursor.toNat < buf.size) (k : UInt64)
    (hk : k.toNat < 256) :
    ∃ next, add? cursor k = some next ∧ next.toNat = cursor.toNat + k.toNat := by
  have hlimit : bufferLimit + 256 < UInt64.size := by decide
  cases hnext : add? cursor k with
  | none =>
    have hover := add?_eq_none_iff.mp hnext
    omega
  | some next => exact ⟨next, rfl, add?_eq_some_iff.mp hnext⟩

/-- The scan stops where fewer than two bytes are left. -/
theorem round_of_lt (hsize : buf.size < bufferLimit) (hout : buf.size < cursor.toNat + 2) :
    round buf cursor = .stop none := by
  have hpair : bytesAt? buf cursor 2 = none := by
    rw [bytesAt?_eq buf cursor 2 hsize]
    exact if_neg (Nat.not_le_of_lt hout)
  rw [round, hpair]

/-- Where two bytes are left, the round looks at them. -/
theorem bytesAt?_two (hsize : buf.size < bufferLimit) (hin : cursor.toNat + 2 ≤ buf.size) :
    ∃ pair, bytesAt? buf cursor 2 = some pair ∧
      (pair = [0, 0] ↔ buf.occursAt [0, 0] cursor.toNat = true) := by
  have hoccurs : buf.occursAt [0, 0] cursor.toNat = true ↔
      (buf.extract cursor.toNat (cursor.toNat + 2)).toList = [0, 0] := occursAt_iff_extract
  exact ⟨_, (bytesAt?_eq buf cursor 2 hsize).trans (if_pos hin), hoccurs.symm⟩

/-- The scan stops at two zero bytes, and answers with the offset behind them. -/
theorem round_of_null (hsize : buf.size < bufferLimit)
    (hnull : buf.occursAt [0, 0] cursor.toNat = true) :
    ∃ next, round buf cursor = .stop (some next) ∧ next.toNat = cursor.toNat + 2 := by
  have hin : cursor.toNat + 2 ≤ buf.size := size_of_occursAt hnull (by decide)
  obtain ⟨pair, hpair, hzero⟩ := bytesAt?_two hsize hin
  obtain ⟨next, hnext, hsum⟩ := exists_add? hsize (Nat.lt_of_succ_lt hin) 2 (by decide)
  refine ⟨next, ?_, hsum⟩
  rw [round, hpair]
  simp only [if_pos (hzero.mpr hnull), hnext]

/-- The scan moves on by one byte from any other two. -/
theorem round_of_not_null (hsize : buf.size < bufferLimit) (hin : cursor.toNat + 2 ≤ buf.size)
    (hnull : ¬buf.occursAt [0, 0] cursor.toNat = true) :
    ∃ next, round buf cursor = .again next ∧ next.toNat = cursor.toNat + 1 := by
  obtain ⟨pair, hpair, hzero⟩ := bytesAt?_two hsize hin
  obtain ⟨next, hnext, hsum⟩ := exists_add? hsize (Nat.lt_of_succ_lt hin) 1 (by decide)
  refine ⟨next, ?_, hsum⟩
  rw [round, hpair]
  simp only [if_neg fun h => hnull (hzero.mp h), hnext]

/-! ## The scan -/

/-- **The scan comes to the end of the search**, in no more rounds than there are bytes left. -/
theorem exists_scans (hsize : buf.size < bufferLimit) (cursor : UInt64) :
    ∃ rounds answer, Scans buf cursor rounds answer ∧
      rounds ≤ max 1 (buf.size - cursor.toNat) ∧
      answer.map UInt64.toNat = (doubleNull? buf cursor.toNat).map (· + 2) := by
  -- Each round that moves on leaves one byte less in front of the end of the buffer.
  induction hleft : buf.size - cursor.toNat using Nat.strongRecOn generalizing cursor with
  | ind left ih =>
    by_cases hin : cursor.toNat + 2 ≤ buf.size
    · by_cases hnull : buf.occursAt [0, 0] cursor.toNat = true
      · obtain ⟨next, hround, hnext⟩ := round_of_null hsize hnull
        have hfound : doubleNull? buf cursor.toNat = some cursor.toNat := by
          rw [doubleNull?_eq_some_iff]
          exact ⟨closesAt_iff_occursAt.mpr ⟨Nat.le_refl _, hnull⟩, fun q hq => hq.start_le⟩
        refine ⟨1, some next, .stop hround, Nat.le_max_left _ _, ?_⟩
        rw [hfound, Option.map_some, Option.map_some, hnext]
      · obtain ⟨next, hround, hnext⟩ := round_of_not_null hsize hin hnull
        obtain ⟨rounds, answer, hscans, hrounds, hanswer⟩ :=
          ih (buf.size - next.toNat) (by omega) next rfl
        have hpassed : doubleNull? buf cursor.toNat = doubleNull? buf next.toNat := by
          rw [doubleNull?, if_pos (by omega), if_neg, hnext]
          simpa using hnull
        refine ⟨rounds + 1, answer, .again hround hscans, by omega, ?_⟩
        rw [hpassed, hanswer]
    · have hout : doubleNull? buf cursor.toNat = none := by
        rw [doubleNull?, if_neg (by omega)]
      refine ⟨1, none, .stop (round_of_lt hsize (by omega)), Nat.le_max_left _ _, ?_⟩
      rw [hout, Option.map_none, Option.map_none]

/-- A scan comes to one answer. -/
theorem Scans.unique {others : Nat} {other : Option UInt64} (h : Scans buf cursor rounds answer)
    (hother : Scans buf cursor others other) : answer = other := by
  induction h generalizing others with
  | stop hround =>
    cases hother with
    | stop hround' => exact Round.stop.inj (hround.symm.trans hround')
    | again hround' => cases hround.symm.trans hround'
  | again hround _ ih =>
    cases hother with
    | stop hround' => cases hround.symm.trans hround'
    | again hround' hrest =>
      obtain rfl := Round.again.inj (hround.symm.trans hround')
      exact ih hrest

/-! ## The stepper -/

/-- The length of a structure is read at the second byte, if the buffer holds it. -/
theorem lengthAt?_eq (hsize : buf.size < bufferLimit) (offset : UInt64) :
    lengthAt? buf offset = buf[offset.toNat + 1]? := by
  unfold lengthAt?
  cases hi : add? offset 1 with
  | none =>
    have hlimit : bufferLimit < UInt64.size := by decide
    have hover : UInt64.size ≤ offset.toNat + 1 := add?_eq_none_iff.mp hi
    rw [Option.bind_none, Array.getElem?_eq_none (by omega)]
  | some i =>
    have hsum : i.toNat = offset.toNat + 1 := add?_eq_some_iff.mp hi
    rw [Option.bind_some, hsum]

/-- **The stepper comes to its answer** from every offset, and its scan takes no more rounds than
there are bytes behind the offset. -/
theorem exists_steps (hsize : buf.size < bufferLimit) (offset : UInt64) :
    ∃ rounds answer, Steps buf offset rounds answer ∧ rounds ≤ buf.size - offset.toNat ∧
      answer.map UInt64.toNat = next? buf offset.toNat := by
  have hread := lengthAt?_eq hsize offset
  cases hlength : buf[offset.toNat + 1]? with
  | none =>
    refine ⟨0, none, .outside (hread.trans hlength), Nat.zero_le _, ?_⟩
    rw [next?_of_outside hlength, Option.map_none]
  | some length =>
    have hin := (Array.getElem?_eq_some_iff.mp hlength).1
    have hdeclared : length.toUInt64.toNat = length.toNat := UInt8.toNat_toUInt64 length
    have hbyte := length.toNat_lt
    obtain ⟨start, hstart, hsum⟩ := exists_add? hsize (Nat.lt_of_succ_lt hin)
      length.toUInt64 (by omega)
    obtain ⟨rounds, answer, hscans, hrounds, hanswer⟩ := exists_scans hsize start
    refine ⟨rounds, answer, .scan (hread.trans hlength) hstart hscans, by omega, ?_⟩
    rw [hanswer, hsum, hdeclared, next?_of_length hlength]

/-- The stepper comes to one answer. -/
theorem Steps.unique {others : Nat} {other : Option UInt64} (h : Steps buf offset rounds answer)
    (hother : Steps buf offset others other) : answer = other := by
  cases h with
  | outside hout =>
    cases hother with
    | outside => rfl
    | scan hlength => cases hout.symm.trans hlength
  | scan hlength hstart hscans =>
    cases hother with
    | outside hout => cases hout.symm.trans hlength
    | scan hlength' hstart' hscans' =>
      obtain rfl := Option.some.inj (hlength.symm.trans hlength')
      obtain rfl := Option.some.inj (hstart.symm.trans hstart')
      exact hscans.unique hscans'

end ManagedRegion.Smbios.Machine

namespace ManagedRegion.Smbios

open Machine

/-- **The stepper is exact and makes progress.** From an offset it leads somewhere exactly if there
is a byte that declares a length, and two zero bytes stand in the buffer at or behind the end of the
area so declared; then it leads behind the first such two bytes, at least two bytes on and not
behind the buffer. In a buffer in memory and with offsets in words it comes to that answer from
every offset: no sum overflows, and the scan for two zero bytes takes no more rounds than there are
bytes behind the offset. -/
theorem stepper_exact (buf : Bytes) (offset : Nat) :
    (∀ after, next? buf offset = some after ↔
      ∃ length p, buf[offset + 1]? = some length ∧
        FirstClosing buf (offset + length.toNat) p ∧ after = p + 2) ∧
    ((next? buf offset).isSome ↔
      ∃ length p, buf[offset + 1]? = some length ∧ ClosesAt buf (offset + length.toNat) p) ∧
    (∀ after, next? buf offset = some after → offset + 2 ≤ after ∧ after ≤ buf.size) ∧
    (buf.size < bufferLimit → ∀ word : UInt64, word.toNat = offset →
      ∃ rounds answer, Steps buf word rounds answer ∧ rounds ≤ buf.size - offset ∧
        answer.map UInt64.toNat = next? buf offset ∧
        ∀ others other, Steps buf word others other → other = answer) := by
  refine ⟨fun after => next?_eq_some_iff_firstClosing, isSome_next?_iff,
    fun after => next?_bounds, ?_⟩
  rintro hsize word rfl
  obtain ⟨rounds, answer, hsteps, hrounds, hanswer⟩ := exists_steps hsize word
  exact ⟨rounds, answer, hsteps, hrounds, hanswer, fun _ _ hother => hother.unique hsteps⟩

/-- A structure of type 1 without a body and with one text, and one zero byte more than its end
needs. -/
def overlappingZeros : Bytes :=
  #[1, 4, 2, 0, 0x41, 0, 0, 0]

/-- It ends behind the first two of the three zero bytes; and from the greatest offset that a word
can hold, where no sum fits, the stepper comes to its answer as well. -/
theorem stepper_exact_overlapping :
    overlappingZeros.size < bufferLimit ∧
      (∃ rounds, Steps overlappingZeros 0 rounds (some 7)) ∧
      ∃ rounds, Steps overlappingZeros 0xFFFFFFFFFFFFFFFF rounds none := by
  have hsize : overlappingZeros.size < bufferLimit := by decide
  have hfirst : next? overlappingZeros 0 = some 7 := by decide +kernel
  have hlast : next? overlappingZeros 0xFFFFFFFFFFFFFFFF = none := by decide +kernel
  obtain ⟨-, -, -, hfromFirst⟩ := stepper_exact overlappingZeros 0
  obtain ⟨-, -, -, hfromLast⟩ := stepper_exact overlappingZeros 0xFFFFFFFFFFFFFFFF
  refine ⟨hsize, ?_, ?_⟩
  · obtain ⟨rounds, answer, hsteps, -, hanswer, -⟩ := hfromFirst hsize 0 rfl
    obtain ⟨after, rfl, hafter⟩ := Option.map_eq_some_iff.mp (hanswer.trans hfirst)
    obtain rfl : after = 7 := UInt64.toNat_inj.mp hafter
    exact ⟨rounds, hsteps⟩
  · obtain ⟨rounds, answer, hsteps, -, hanswer, -⟩ := hfromLast hsize 0xFFFFFFFFFFFFFFFF rfl
    obtain rfl := Option.map_eq_none_iff.mp (hanswer.trans hlast)
    exact ⟨rounds, hsteps⟩

end ManagedRegion.Smbios
