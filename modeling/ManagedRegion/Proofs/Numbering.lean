import ManagedRegion.Proofs.StringSet

/-!
# Numbering: one text by its number against the list of all texts

A string set has two readers. The lister looks at the first byte of every text and stops at a zero
byte. The reader of one text looks for that zero byte only behind a terminator, so it never looks at
the first byte of the set. They tell the same of every set, closed or not, but for one kind: a set
that begins with a zero byte although texts stand behind it (`HidesTexts`). There the lister finds
nothing, and the reader of one text counts an empty text first and goes on behind it.

`numbered buf area` is the list of texts that the numbers refer to, on any bytes whatever
(`run?_eq_getElem?_numbered`). It differs from the list that the lister gives exactly if the set
hides texts, which is **`resolve_agrees_iff`**.
-/

namespace ManagedRegion.Smbios.StringSet

open Bytes

variable {buf : Bytes} {area start stop : Nat}

/-! ## Terminators -/

/-- The search for a terminator is one for a run of one zero byte. -/
theorem terminator?_eq_findFrom? (buf : Bytes) (start : Nat) :
    terminator? buf start = buf.findFrom? [0] start := by
  fun_induction terminator? buf start with
  | case1 start hin hnull => rw [findFrom?, if_pos hin, if_pos (by simp [hnull])]
  | case2 start hin hnull ih => rw [findFrom?, if_pos hin, if_neg (by simp [hnull]), ih]
  | case3 start hout => rw [findFrom?, if_neg hout]

/-- A zero byte stands where a terminator is found. -/
theorem getElem?_of_terminator? (h : terminator? buf start = some stop) :
    buf[stop]? = some 0 := by
  rw [terminator?_eq_findFrom?, findFrom?_eq_some_iff] at h
  exact (occursAt_cons.mp h.2.2.1).1

/-- A zero byte is the terminator of the empty text in front of it. -/
theorem terminator?_of_null (h : buf[start]? = some 0) : terminator? buf start = some start := by
  rw [terminator?, if_pos (Array.getElem?_eq_some_iff.mp h).1, if_pos h]

/-! ## The lister, text by text -/

/-- The lister finds nothing where the set is closed. -/
theorem runs_of_null (h : buf[start]? = some 0) : runs buf start = [] := by
  rw [runs, h]
  exact if_pos rfl

/-- The lister finds nothing behind the buffer. -/
theorem runs_of_none (h : buf[start]? = none) : runs buf start = [] := by
  rw [runs, h]

/-- The lister finds nothing in a text that is not terminated. -/
theorem runs_of_unterminated (h : terminator? buf start = none) : runs buf start = [] := by
  unfold runs
  split
  next => rfl
  next first hfirst =>
    split
    · rfl
    · split
      next => rfl
      next stop hstop => rw [h] at hstop; cases hstop

/-- The lister takes a terminated text, then all those behind its terminator. -/
theorem runs_of_terminator (hfirst : buf[start]? ≠ some 0)
    (hstop : terminator? buf start = some stop) :
    runs buf start = run buf start stop :: runs buf (stop + 1) := by
  rw [runs]
  split
  next hnone =>
    have hout := Array.getElem?_eq_none_iff.mp hnone
    have hin := terminator?_bounds hstop
    omega
  next first hsome =>
    have hne : first ≠ 0 := fun heq => hfirst (heq ▸ hsome)
    rw [if_neg hne]
    split
    next hnone => rw [hstop] at hnone; cases hnone
    next stop' hfound =>
      obtain rfl := Option.some.inj (hstop.symm.trans hfound)
      rfl

/-- A text that is terminated and does not begin with its terminator is not empty. -/
theorem run_ne_nil (hfirst : buf[start]? ≠ some 0) (hstop : terminator? buf start = some stop) :
    run buf start stop ≠ [] := by
  have hbounds := terminator?_bounds hstop
  have hne : start ≠ stop := by
    rintro rfl
    exact hfirst (getElem?_of_terminator? hstop)
  rw [← List.length_pos_iff, run, Array.length_toList, Array.size_extract]
  omega

/-! ## The reader of one text -/

/-- The reader of one text finds nothing in a text that is not terminated, nor behind it. -/
theorem run?_of_unterminated (h : terminator? buf start = none) (n : Nat) :
    run? buf start (n + 1) = none := by
  rw [run?_succ]
  cases n with
  | zero => simp [skip?, h]
  | succ n => simp [skip?, h]

/-- Text number 1 reaches up to the first terminator. -/
theorem run?_one (hstop : terminator? buf start = some stop) :
    run? buf start 1 = some (run buf start stop) := by
  rw [run?_succ]
  simp [skip?, hstop]

/-- Behind a terminator the reader of one text sees what the lister sees there, if they agree where
a text begins. -/
theorem run?_of_terminator (hstop : terminator? buf start = some stop) {n : Nat}
    (hbehind : buf[stop + 1]? ≠ some 0 →
      run? buf (stop + 1) (n + 1) = (runs buf (stop + 1))[n]?) :
    run? buf start (n + 2) = (runs buf (stop + 1))[n]? := by
  have hskip : run? buf start (n + 2) =
      (buf[stop + 1]?).bind fun first =>
        if first = 0 then none else run? buf (stop + 1) (n + 1) := by
    rw [run?_succ, skip?, hstop]
    cases hfirst : buf[stop + 1]? with
    | none => simp [hfirst]
    | some first =>
      rw [run?_succ]
      by_cases hnull : first = 0 <;> simp [hfirst, hnull]
  rw [hskip]
  cases hfirst : buf[stop + 1]? with
  | none => rw [runs_of_none hfirst]; rfl
  | some first =>
    by_cases hnull : first = 0
    · subst hnull
      rw [runs_of_null hfirst]
      rfl
    · have hne : buf[stop + 1]? ≠ some 0 := fun heq => hnull (Option.some.inj (hfirst.symm.trans heq))
      rw [← hbehind hne]
      exact if_neg hnull

/-- **Where a text begins, the two readers agree on it and on all behind it.** -/
theorem run?_eq_getElem?_runs (hfirst : buf[start]? ≠ some 0) (n : Nat) :
    run? buf start (n + 1) = (runs buf start)[n]? := by
  induction n generalizing start with
  | zero =>
    cases hstop : terminator? buf start with
    | none => rw [run?_of_unterminated hstop, runs_of_unterminated hstop, List.getElem?_nil]
    | some stop => rw [run?_one hstop, runs_of_terminator hfirst hstop, List.getElem?_cons_zero]
  | succ n ih =>
    cases hstop : terminator? buf start with
    | none => rw [run?_of_unterminated hstop, runs_of_unterminated hstop, List.getElem?_nil]
    | some stop =>
      rw [runs_of_terminator hfirst hstop, List.getElem?_cons_succ]
      exact run?_of_terminator hstop fun hbehind => ih hbehind

/-! ## The texts in the order of their numbers -/

/-- The texts that the numbers from 1 on refer to: those of the lister, but behind a zero byte at
the beginning an empty text and those that the lister finds behind the zero byte. -/
def numbered (buf : Bytes) (area : Nat) : List (List UInt8) :=
  if buf[area]? = some 0 then [] :: runs buf (area + 1) else runs buf area

/-- **A number refers to the text that has so many before it**, on any bytes. -/
theorem run?_eq_getElem?_numbered (buf : Bytes) (area n : Nat) :
    run? buf area (n + 1) = (numbered buf area)[n]? := by
  unfold numbered
  split
  next hnull =>
    have hstop := terminator?_of_null hnull
    cases n with
    | zero => rw [run?_one hstop, List.getElem?_cons_zero]; simp [run]
    | succ n =>
      rw [List.getElem?_cons_succ]
      exact run?_of_terminator hstop fun hbehind => run?_eq_getElem?_runs hbehind n
  next hfirst => exact run?_eq_getElem?_runs hfirst n

/-- The text of a number is the one that it refers to, or empty if it refers to none. -/
theorem resolve_eq_getElem?_numbered (buf : Bytes) (area n : Nat) :
    resolve buf area (n + 1) = ((numbered buf area)[n]?.map Utf8.lossy).getD "" := by
  rw [resolve, run?_eq_getElem?_numbered]
  cases (numbered buf area)[n]? <;> rfl

/-- The set begins with a zero byte although texts stand behind it. -/
def HidesTexts (buf : Bytes) (area : Nat) : Prop :=
  buf[area]? = some 0 ∧ runs buf (area + 1) ≠ []

/-- In a set that hides no texts each number reads as the text of the list in its place. -/
theorem resolve_eq_getElem?_all (h : ¬HidesTexts buf area) (n : Nat) :
    resolve buf area (n + 1) = (all buf area)[n]?.getD "" := by
  rw [resolve_eq_getElem?_numbered, all, List.getElem?_map]
  unfold numbered
  split
  next hnull =>
    have hnone : runs buf (area + 1) = [] := Classical.not_not.mp fun hne => h ⟨hnull, hne⟩
    rw [hnone, runs_of_null hnull]
    cases n <;> rfl
  next => rfl

/-- A set that hides texts reads as empty to the lister, but its number 2 does not. -/
theorem resolve_two_of_hidesTexts (h : HidesTexts buf area) :
    all buf area = [] ∧ resolve buf area 2 ≠ "" := by
  obtain ⟨hnull, hne⟩ := h
  refine ⟨by rw [all, runs_of_null hnull, List.map_nil], ?_⟩
  rw [resolve_eq_getElem?_numbered, numbered, if_pos hnull, List.getElem?_cons_succ]
  have hfirst : buf[area + 1]? ≠ some 0 := fun heq => hne (runs_of_null heq)
  cases hstop : terminator? buf (area + 1) with
  | none => exact absurd (runs_of_unterminated hstop) hne
  | some stop =>
    rw [runs_of_terminator hfirst hstop]
    exact Utf8.lossy_ne_empty (run_ne_nil hfirst hstop)

/-- **The two readers agree exactly on the sets that hide no texts.** Number 0 reads as the empty
text, and every other number as the text that it refers to in `numbered`, or as the empty text.
Those are the texts of the lister in their order, unless the set hides texts; then the lister finds
none, and some number up to 255 reads as a text all the same. -/
theorem resolve_agrees_iff (buf : Bytes) (area : Nat) :
    resolve buf area 0 = "" ∧
    (∀ n, resolve buf area (n + 1) = ((numbered buf area)[n]?.map Utf8.lossy).getD "") ∧
    ((∀ number, 1 ≤ number → number ≤ 255 →
        resolve buf area number = (all buf area)[number - 1]?.getD "") ↔
      ¬HidesTexts buf area) := by
  refine ⟨rfl, resolve_eq_getElem?_numbered buf area, ?_, ?_⟩
  · intro hagree hhides
    obtain ⟨hnone, htext⟩ := resolve_two_of_hidesTexts hhides
    have htwo := hagree 2 (by decide) (by decide)
    rw [hnone] at htwo
    exact htext htwo
  · intro hhides number hpos _
    obtain ⟨n, rfl⟩ := Nat.exists_eq_add_of_le' hpos
    exact resolve_eq_getElem?_all hhides n

/-- A structure with two texts. -/
def twoTexts : Bytes :=
  #[1, 4, 1, 0, 0x41, 0, 0x42, 0x43, 0, 0]

/-- Two texts that are not hidden are read by their numbers, and number 3 reads as empty. -/
theorem resolve_agrees_iff_twoTexts :
    ¬HidesTexts twoTexts 4 ∧ all twoTexts 4 = ["A", "BC"] ∧ resolve twoTexts 4 1 = "A" ∧
      resolve twoTexts 4 2 = "BC" ∧ resolve twoTexts 4 3 = "" := by
  have hshown : ¬HidesTexts twoTexts 4 := fun hhides => absurd hhides.1 (by decide)
  have hall : all twoTexts 4 = ["A", "BC"] := by decide +kernel
  obtain ⟨-, -, hagree⟩ := resolve_agrees_iff twoTexts 4
  have hread := hagree.mpr hshown
  rw [hall] at hread
  exact ⟨hshown, hall, hread 1 (by decide) (by decide), hread 2 (by decide) (by decide),
    hread 3 (by decide) (by decide)⟩

/-- A structure whose set begins with a zero byte, though a text stands behind it. -/
def hiddenText : Bytes :=
  #[1, 4, 1, 0, 0, 0x41, 0, 0]

/-- Number 2 reads as the hidden text, which the lister does not find. -/
theorem not_resolve_agrees :
    ¬∀ (buf : Bytes) (offset : Nat) (length : UInt8) (number : Nat), 1 ≤ number → number ≤ 255 →
      resolve buf (offset + length.toNat) number =
        (all buf (offset + length.toNat))[number - 1]?.getD "" := by
  intro hagree
  have htwo := hagree hiddenText 0 4 2 (by decide) (by decide)
  have hresolve : resolve hiddenText (0 + UInt8.toNat 4) 2 = "A" := by decide +kernel
  have hall : all hiddenText (0 + UInt8.toNat 4) = [] := by decide +kernel
  rw [hresolve, hall] at htwo
  exact absurd htwo (by decide)

end ManagedRegion.Smbios.StringSet
