import ManagedRegion.Proofs.Views

/-!
# String areas: what the lister splits, put together again

Two loops decide where a structure ends. The stepper looks for two zero bytes side by side and knows
nothing of texts; the lister goes from terminator to terminator and knows nothing of pairs. On an
area that does not begin with a zero byte they come to the same end: the runs of the lister, each
with its terminator, and one more zero byte are the bytes of the area, none left out and none read
twice. `encode_runs_eq_extract_iff` says on which areas this is so, and **`lister_splits_area`**
says what it means for the texts.

The proof goes from the bytes to the texts. Whatever the bytes are, the runs of the lister are texts
that a set can hold (`storable_runs`), and in front of two zero bytes they are closed
(`closed_runs`). What is known of sets that have been written holds of them, then.
-/

namespace ManagedRegion.Smbios.StringSet

open Bytes

variable {buf : Bytes} {area start stop offset after p : Nat} {texts : List (List UInt8)}

/-! ## Runs are texts that a set can hold -/

/-- In front of the first terminator there is no zero byte. -/
theorem zero_notMem_run (hstop : terminator? buf start = some stop) :
    (0 : UInt8) ∉ run buf start stop := by
  intro hmem
  rw [terminator?_eq_findFrom?, findFrom?_eq_some_iff] at hstop
  obtain ⟨i, hi, hzero⟩ := List.getElem_of_mem hmem
  have hlt : start + i < stop := by
    rw [run, Array.length_toList, Array.size_extract] at hi
    omega
  have hnull : buf[start + i]? = some 0 := by
    have hbyte := occursAt_iff_getElem?.mp (occursAt_extract buf start stop) i hi
    exact hbyte.trans (congrArg some hzero)
  have hno := hstop.2.2.2 (start + i) (Nat.le_add_right _ _) hlt
  simp [occursAt, hnull] at hno

/-- A text that is not empty and has no zero byte can stand in front of what a set can hold. -/
theorem Storable.cons {text : List UInt8} (hne : text ≠ []) (hzero : (0 : UInt8) ∉ text)
    (h : Storable texts) : Storable (text :: texts) where
  nil_notMem hmem := by
    rcases List.mem_cons.mp hmem with heq | hrest
    · exact hne heq.symm
    · exact h.nil_notMem hrest
  zero_notMem other hmem := by
    rcases List.mem_cons.mp hmem with rfl | hrest
    · exact hzero
    · exact h.zero_notMem other hrest

/-- **The lister lists texts that a set can hold**, whatever the bytes are. -/
theorem storable_runs (buf : Bytes) (start : Nat) : Storable (runs buf start) := by
  have hnil : Storable [] := ⟨List.not_mem_nil, fun _ hmem => absurd hmem List.not_mem_nil⟩
  induction start using runs.induct buf with
  | case1 start hnone => rwa [runs_of_none hnone]
  | case2 start hclosed => rwa [runs_of_null hclosed]
  | case3 start first hbyte hne hopen => rwa [runs_of_unterminated hopen]
  | case4 start first hbyte hne stop hstop ih =>
    have hfirst : buf[start]? ≠ some 0 := by
      rw [hbyte]
      exact fun heq => hne (Option.some.inj heq)
    rw [runs_of_terminator hfirst hstop]
    exact ih.cons (run_ne_nil hfirst hstop) (zero_notMem_run hstop)

/-! ## Runs in front of two zero bytes -/

/-- In front of two zero bytes the lister stands at a zero byte, or at a text that is terminated in
front of the second one. -/
theorem closed_or_terminated (hnull : buf.occursAt [0, 0] p = true) (hle : start ≤ p + 1) :
    buf[start]? = some 0 ∨
      buf[start]? ≠ some 0 ∧ ∃ stop ≤ p, terminator? buf start = some stop := by
  by_cases hfirst : buf[start]? = some 0
  · exact .inl hfirst
  · have hpair := occursAt_cons.mp hnull
    have hne : start ≠ p + 1 := by
      rintro rfl
      exact hfirst (occursAt_cons.mp hpair.2).1
    exact .inr ⟨hfirst, exists_terminator?_le hpair.1 (by omega)⟩

/-- **In front of two zero bytes the runs of the lister are closed**: they stand one behind the
other, each with its terminator, and a zero byte follows. -/
theorem closed_runs (hnull : buf.occursAt [0, 0] p = true) (hle : start ≤ p + 1) :
    Closed buf (runs buf start) start := by
  -- Each text leaves less room in front of the second zero byte.
  induction hroom : p + 1 - start using Nat.strongRecOn generalizing start with
  | ind room ih =>
    rcases closed_or_terminated hnull hle with hclosed | ⟨hfirst, stop, hstop, hterm⟩
    · rw [runs_of_null hclosed]
      exact closed_nil.mpr hclosed
    · have hbounds := terminator?_bounds hterm
      have hlength : (run buf start stop).length = stop - start := by
        rw [run, Array.length_toList, Array.size_extract]
        omega
      have hbehind : start + ((run buf start stop).length + 1) = stop + 1 := by omega
      rw [runs_of_terminator hfirst hterm, closed_cons, hbehind]
      refine ⟨?_, ih (p + 1 - (stop + 1)) (by omega) (by omega) rfl⟩
      rw [occursAt_append, occursAt_cons, hlength, Nat.add_sub_cancel' hbounds.1]
      exact ⟨occursAt_extract buf start stop, getElem?_of_terminator? hterm, occursAt_nil⟩

/-- The lister finds a text where a terminated one begins. -/
theorem runs_ne_nil (hnull : buf.occursAt [0, 0] p = true) (hle : start ≤ p + 1)
    (hfirst : buf[start]? ≠ some 0) : runs buf start ≠ [] := by
  rcases closed_or_terminated hnull hle with hclosed | ⟨-, stop, -, hterm⟩
  · exact absurd hclosed hfirst
  · rw [runs_of_terminator hfirst hterm]
    exact List.cons_ne_nil _ _

/-! ## The area of a structure -/

/-- A set with a text is written as its texts, each with its terminator, and one zero byte. -/
theorem encode_of_ne_nil (hne : texts ≠ []) :
    encode texts = texts.flatMap (· ++ [0]) ++ [0] := by
  unfold encode
  rw [if_neg (by simpa using hne)]

/-- Two zero bytes stand where they are found. -/
theorem occursAt_of_doubleNull? (hp : doubleNull? buf area = some p) :
    area ≤ p ∧ buf.occursAt [0, 0] p = true := by
  rw [doubleNull?_eq_findFrom?, findFrom?_eq_some_iff] at hp
  exact ⟨hp.1, hp.2.2.1⟩

/-- In an area that does not begin with a zero byte the runs of the lister are closed, and with
their terminators they reach up to the second of the first two zero bytes. -/
theorem closed_runs_of_doubleNull? (hp : doubleNull? buf area = some p)
    (hfirst : buf[area]? ≠ some 0) :
    runs buf area ≠ [] ∧ Closed buf (runs buf area) area ∧
      area + ((runs buf area).flatMap (· ++ [0])).length = p + 1 := by
  obtain ⟨hle, hnull⟩ := occursAt_of_doubleNull? hp
  have hne := runs_ne_nil hnull (Nat.le_succ_of_le hle) hfirst
  have hclosed := closed_runs hnull (Nat.le_succ_of_le hle)
  refine ⟨hne, hclosed, ?_⟩
  obtain ⟨text, others, htexts⟩ := List.exists_cons_of_ne_nil hne
  have hs := storable_runs buf area
  rw [htexts] at hs hclosed ⊢
  have hfound := doubleNull?_of_closed hs hclosed
  rw [hp] at hfound
  exact (Nat.succ.inj (Option.some.inj hfound)).symm

/-- Up to the second zero byte such an area holds the runs of the lister with their terminators. -/
theorem extract_eq_flatMap_runs (hp : doubleNull? buf area = some p)
    (hfirst : buf[area]? ≠ some 0) :
    (buf.extract area (p + 1)).toList = (runs buf area).flatMap (· ++ [0]) := by
  obtain ⟨-, hclosed, hend⟩ := closed_runs_of_doubleNull? hp hfirst
  rw [← hend]
  exact extract_of_occursAt (occursAt_append.mp hclosed).1

/-- With the second zero byte it holds what is written for the runs of the lister. -/
theorem extract_eq_encode_runs (hp : doubleNull? buf area = some p)
    (hfirst : buf[area]? ≠ some 0) :
    (buf.extract area (p + 2)).toList = encode (runs buf area) := by
  obtain ⟨hne, hclosed, hend⟩ := closed_runs_of_doubleNull? hp hfirst
  have hwritten := extract_of_occursAt hclosed
  rw [List.length_append, ← Nat.add_assoc, hend] at hwritten
  rw [encode_of_ne_nil hne]
  exact hwritten

/-- An area that begins with two zero bytes has no texts and ends behind them. -/
theorem extract_of_null (hp : doubleNull? buf area = some p) (hfirst : buf[area]? = some 0)
    (hsecond : buf[area + 1]? = some 0) :
    p = area ∧ runs buf area = [] ∧ (buf.extract area (p + 2)).toList = [0, 0] := by
  have hpair : buf.occursAt [0, 0] area = true := by
    rw [occursAt_cons, occursAt_cons]
    exact ⟨hfirst, hsecond, occursAt_nil⟩
  rw [doubleNull?_of_occursAt hpair] at hp
  obtain rfl := Option.some.inj hp
  exact ⟨rfl, runs_of_null hfirst, extract_of_occursAt hpair⟩

/-- **What the lister splits is written again byte for byte** exactly on the areas that do not begin
with a single zero byte. -/
theorem encode_runs_eq_extract_iff (hp : doubleNull? buf area = some p) :
    encode (runs buf area) = (buf.extract area (p + 2)).toList ↔
      (buf[area]? = some 0 → buf[area + 1]? = some 0) := by
  by_cases hfirst : buf[area]? = some 0
  · constructor
    · intro hwritten _
      have hstands := occursAt_extract buf area (p + 2)
      rw [← hwritten, runs_of_null hfirst] at hstands
      exact (occursAt_cons.mp (occursAt_cons.mp hstands).2).1
    · intro hsecond
      obtain ⟨-, hruns, hwritten⟩ := extract_of_null hp hfirst (hsecond hfirst)
      rw [hruns, hwritten]
      rfl
  · exact iff_of_true (extract_eq_encode_runs hp hfirst).symm fun hnull => absurd hnull hfirst

/-- A structure ends behind the first two zero bytes of its string area. -/
theorem exists_doubleNull?_of_next? {length : UInt8} (hlength : buf[offset + 1]? = some length)
    (hnext : next? buf offset = some after) :
    ∃ p, doubleNull? buf (offset + length.toNat) = some p ∧ after = p + 2 := by
  obtain ⟨declared, p, hdeclared, hp, hafter⟩ := next?_eq_some_iff.mp hnext
  obtain rfl := Option.some.inj (hlength.symm.trans hdeclared)
  exact ⟨p, (doubleNull?_eq_findFrom? _ _).trans hp, hafter⟩

/-- The texts make up the string area: they are those that a set can hold, the bytes from `area` up
to the last byte in front of `after` are the texts, each with its terminator, and the last byte
closes them. -/
structure MakeUp (buf : Bytes) (area after : Nat) (texts : List (List UInt8)) : Prop where
  /-- Each text has a byte, and none of its bytes is zero. -/
  storable : Storable texts
  /-- The texts with their terminators fill the area up to its last byte. -/
  extract_eq : (buf.extract area (after - 1)).toList = texts.flatMap (· ++ [0])
  /-- The last byte of the area closes the set. -/
  closing_eq : buf[after - 1]? = some 0

/-- Bytes are made up of texts in one way only. -/
theorem MakeUp.eq_runs (h : MakeUp buf area after texts) (hle : area ≤ after - 1) :
    texts = runs buf area := by
  have hin := (Array.getElem?_eq_some_iff.mp h.closing_eq).1
  have hlength : area + (texts.flatMap (· ++ [0])).length = after - 1 := by
    rw [← h.extract_eq, Array.length_toList, Array.size_extract]
    omega
  have hclosed : Closed buf texts area := by
    rw [Closed, occursAt_append, hlength, ← h.extract_eq, occursAt_cons]
    exact ⟨occursAt_extract buf area (after - 1), h.closing_eq, occursAt_nil⟩
  exact (runs_of_closed h.storable hclosed).symm

/-- **The lister and the stepper agree on where a structure ends.** If the string area of a
structure that ends does not begin with a zero byte, then it is made up of one or more texts, in one
way only, and those are the texts that the lister gives; written again they are the bytes of the
area. If it begins with two zero bytes, it ends behind them, and the lister gives nothing. Only an
area that begins with a single zero byte is not what the runs of the lister are written as. -/
theorem lister_splits_area {length : UInt8} (hlength : buf[offset + 1]? = some length)
    (hnext : next? buf offset = some after) :
    (buf[offset + length.toNat]? ≠ some 0 →
      ∃ texts, texts ≠ [] ∧ MakeUp buf (offset + length.toNat) after texts ∧
        (∀ others, MakeUp buf (offset + length.toNat) after others → others = texts) ∧
        all buf (offset + length.toNat) = texts.map Utf8.lossy ∧
        encode texts = (buf.extract (offset + length.toNat) after).toList) ∧
    (buf[offset + length.toNat]? = some 0 → buf[offset + length.toNat + 1]? = some 0 →
      after = offset + length.toNat + 2 ∧ all buf (offset + length.toNat) = [] ∧
        encode [] = (buf.extract (offset + length.toNat) after).toList) ∧
    (encode (runs buf (offset + length.toNat)) =
        (buf.extract (offset + length.toNat) after).toList ↔
      (buf[offset + length.toNat]? = some 0 → buf[offset + length.toNat + 1]? = some 0)) := by
  obtain ⟨p, hp, rfl⟩ := exists_doubleNull?_of_next? hlength hnext
  obtain ⟨hle, hnull⟩ := occursAt_of_doubleNull? hp
  refine ⟨fun hfirst => ?_, fun hfirst hsecond => ?_, encode_runs_eq_extract_iff hp⟩
  · have hmake : MakeUp buf (offset + length.toNat) (p + 2) (runs buf (offset + length.toNat)) :=
      ⟨storable_runs _ _, extract_eq_flatMap_runs hp hfirst,
        (occursAt_cons.mp (occursAt_cons.mp hnull).2).1⟩
    refine ⟨runs buf (offset + length.toNat), (closed_runs_of_doubleNull? hp hfirst).1, hmake, ?_,
      rfl, (extract_eq_encode_runs hp hfirst).symm⟩
    intro others hothers
    exact hothers.eq_runs (Nat.le_succ_of_le hle)
  · obtain ⟨rfl, hruns, hwritten⟩ := extract_of_null hp hfirst hsecond
    refine ⟨rfl, ?_, hwritten.symm⟩
    rw [all, hruns, List.map_nil]

/-- A structure of type 1 with a body of two zero bytes and two texts, of which the second is
ill-formed, and a zero byte behind its end. -/
def twoTextArea : Bytes :=
  #[1, 6, 1, 0, 0, 0, 0x41, 0x42, 0, 0xFF, 0, 0, 0]

/-- Its string area is split into the two texts up to the first two zero bytes. -/
theorem lister_splits_area_twoTexts :
    twoTextArea[0 + 1]? = some 6 ∧ next? twoTextArea 0 = some 12 ∧
      twoTextArea[0 + UInt8.toNat 6]? ≠ some 0 ∧
      ∃ texts, MakeUp twoTextArea (0 + UInt8.toNat 6) 12 texts ∧
        texts = [[0x41, 0x42], [0xFF]] ∧
        all twoTextArea (0 + UInt8.toNat 6) = texts.map Utf8.lossy := by
  have hlength : twoTextArea[0 + 1]? = some 6 := rfl
  have hnext : next? twoTextArea 0 = some 12 := by decide +kernel
  have hfirst : twoTextArea[0 + UInt8.toNat 6]? ≠ some 0 := by decide
  obtain ⟨texts, -, hmake, -, hall, -⟩ := (lister_splits_area hlength hnext).1 hfirst
  refine ⟨hlength, hnext, hfirst, texts, hmake, ?_, hall⟩
  rw [hmake.eq_runs (by decide)]
  decide +kernel

end ManagedRegion.Smbios.StringSet
