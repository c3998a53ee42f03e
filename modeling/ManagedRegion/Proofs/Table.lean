import ManagedRegion.Proofs.Occurrence
import ManagedRegion.Smbios.Table

/-!
# Table: what a filled table holds

A table that has been filled holds the data as far as they fit, and zero bytes behind them, whatever
it held before (`getElem?_ofBytes`, `fill_eq`).
-/

namespace ManagedRegion.Smbios.Table

variable {data : Bytes} {bytes : List UInt8} {offset : Nat}

/-- **Byte by byte, a filled table holds the data, then zero bytes up to its capacity.** -/
theorem getElem?_ofBytes (data : Bytes) (i : Nat) :
    (ofBytes data).bytes[i]? = if i < capacity then some (data[i]?.getD 0) else none := by
  have hfront : (data.extract 0 capacity).size = min data.size capacity := by
    rw [Array.size_extract]
    omega
  rw [ofBytes, fill, overwrite, clear_eq_empty, Array.getElem?_append, hfront]
  by_cases hdata : i < min data.size capacity
  · rw [if_pos hdata, if_pos (by omega), Array.getElem?_extract, if_pos (by omega), Nat.zero_add,
      Array.getElem?_eq_getElem (by omega)]
    rfl
  · rw [if_neg hdata, empty, Array.extract_replicate, Array.getElem?_replicate]
    by_cases hcap : i < capacity
    · rw [if_pos hcap, if_pos (by omega), Array.getElem?_eq_none (by omega)]
      rfl
    · rw [if_neg hcap, if_neg (by omega)]

/-- What a table held before does not matter when it is filled. -/
theorem fill_eq (t : Table) (data : Bytes) :
    t.fill data = (min data.size capacity, ofBytes data) := by
  rw [ofBytes, fill, fill, clear_eq_empty, clear_eq_empty]

/-- What stands in the data stands in the table, as far as the table reaches. -/
theorem occursAt_ofBytes (h : data.occursAt bytes offset = true)
    (hfit : offset + bytes.length ≤ capacity) :
    (ofBytes data).bytes.occursAt bytes offset = true := by
  rw [Bytes.occursAt_iff_getElem?] at h ⊢
  intro i hi
  rw [getElem?_ofBytes, if_pos (by omega), h i hi]
  rfl

/-- A run without zero bytes stands in a table only if it stands in the data. -/
theorem occursAt_of_occursAt_ofBytes (hzero : (0 : UInt8) ∉ bytes)
    (h : (ofBytes data).bytes.occursAt bytes offset = true) :
    data.occursAt bytes offset = true := by
  rw [Bytes.occursAt_iff_getElem?] at h ⊢
  intro i hi
  have hbyte := h i hi
  have hcap : offset + i < capacity := by
    have hin := (Array.getElem?_eq_some_iff.mp hbyte).1
    rw [(ofBytes data).size_eq] at hin
    exact hin
  rw [getElem?_ofBytes, if_pos hcap] at hbyte
  cases hdata : data[offset + i]? with
  | some b =>
    rw [hdata] at hbyte
    exact hbyte
  | none =>
    rw [hdata] at hbyte
    have hnull : (0 : UInt8) = bytes[i] := Option.some.inj hbyte
    exact absurd (hnull ▸ List.getElem_mem hi) hzero

/-- A table of data that fit holds the data, then zero bytes. -/
theorem bytes_ofBytes (hfit : data.size ≤ capacity) :
    (ofBytes data).bytes = data ++ Array.replicate (capacity - data.size) 0 := by
  apply Array.ext_getElem?
  intro i
  rw [getElem?_ofBytes, Array.getElem?_append, Array.getElem?_replicate]
  by_cases hdata : i < data.size
  · rw [if_pos hdata, if_pos (Nat.lt_of_lt_of_le hdata hfit), Array.getElem?_eq_getElem hdata]
    rfl
  · rw [if_neg hdata, Array.getElem?_eq_none (Nat.le_of_not_lt hdata)]
    by_cases hcap : i < capacity
    · rw [if_pos hcap, if_pos (by omega)]
      rfl
    · rw [if_neg hcap, if_neg (by omega)]

/-- A table agrees with the data that it is filled with, as far as both reach. -/
theorem agreeBelow_ofBytes (hfit : data.size ≤ capacity) :
    data.AgreeBelow (ofBytes data).bytes data.size := by
  intro i hi
  rw [getElem?_ofBytes, if_pos (by omega), Array.getElem?_eq_getElem hi]
  rfl

/-- Tables agree as far as the data that they are filled with. -/
theorem agreeBelow_ofBytes_of_agree {other : Bytes} {stop : Nat} (h : data.AgreeBelow other stop) :
    (ofBytes data).bytes.AgreeBelow (ofBytes other).bytes stop := by
  intro i hi
  rw [getElem?_ofBytes, getElem?_ofBytes, h i hi]

end ManagedRegion.Smbios.Table
