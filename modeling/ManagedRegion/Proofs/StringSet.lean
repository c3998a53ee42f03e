import ManagedRegion.Proofs.Occurrence
import ManagedRegion.Smbios.Layout

/-!
# String sets: reading back what was written

A string set has no length. Its end is found by its readers, each in its own way: the lister stops
at a zero byte in the place of a text, the reader of one text looks behind each terminator, and the
stepper looks for two zero bytes. Texts that are not empty and hold no zero byte are read back by
all of them (`runs_of_closed`, `run?_of_closed`, `doubleNull?_of_encode`).

`Closed buf texts start` is what the inductions are about: the texts stand from `start` on, each
with its terminator, and a zero byte closes them. It looks the same from every text of the set on.
-/

namespace ManagedRegion.Smbios.StringSet

open Bytes

variable {buf : Bytes} {start : Nat} {text : List UInt8} {texts : List (List UInt8)}

/-- Texts that a set can hold: none is empty, and none has a zero byte. -/
structure Storable (texts : List (List UInt8)) : Prop where
  /-- No text is empty. -/
  nil_notMem : [] ∉ texts
  /-- No text holds a zero byte. -/
  zero_notMem : ∀ text ∈ texts, (0 : UInt8) ∉ text

/-- What a set can hold behind its first text. -/
theorem Storable.tail (h : Storable (text :: texts)) : Storable texts where
  nil_notMem hmem := h.nil_notMem (List.mem_cons_of_mem _ hmem)
  zero_notMem other hmem := h.zero_notMem other (List.mem_cons_of_mem _ hmem)

/-- The first text of a set holds no zero byte. -/
theorem Storable.zero_notMem_head (h : Storable (text :: texts)) : (0 : UInt8) ∉ text :=
  h.zero_notMem text List.mem_cons_self

/-- The texts stand in the buffer from `start` on, and a zero byte closes them. -/
def Closed (buf : Bytes) (texts : List (List UInt8)) (start : Nat) : Prop :=
  buf.occursAt (texts.flatMap (· ++ [0]) ++ [0]) start = true

/-- A set without texts is closed at once. -/
theorem closed_nil : Closed buf [] start ↔ buf[start]? = some 0 := by
  simp [Closed]

/-- A set begins with its first text, and behind that there is a set of the other texts. -/
theorem closed_cons :
    Closed buf (text :: texts) start ↔
      buf.occursAt (text ++ [0]) start = true ∧ Closed buf texts (start + (text.length + 1)) := by
  rw [Closed, List.flatMap_cons, List.append_assoc, occursAt_append, List.length_append]
  rfl

/-- What is written for a set is closed. -/
theorem closed_of_encode (h : buf.occursAt (encode texts) start = true) :
    Closed buf texts start := by
  cases texts with
  | nil => exact closed_nil.mpr (occursAt_cons.mp h).1
  | cons text texts => exact h

/-! ## One text -/

/-- A text without zero bytes ends at its terminator. -/
theorem terminator?_of_occursAt (hzero : (0 : UInt8) ∉ text)
    (h : buf.occursAt (text ++ [0]) start = true) :
    terminator? buf start = some (start + text.length) := by
  induction text generalizing start with
  | nil =>
    have hbyte := (occursAt_cons.mp h).1
    have hlt := (Array.getElem?_eq_some_iff.mp hbyte).1
    rw [terminator?, if_pos hlt, if_pos hbyte]
    rfl
  | cons b rest ih =>
    rw [List.cons_append, occursAt_cons] at h
    rw [List.mem_cons, not_or] at hzero
    obtain ⟨hb, hrest⟩ := hzero
    have hlt := (Array.getElem?_eq_some_iff.mp h.1).1
    have hne : buf[start]? ≠ some 0 := by
      rw [h.1]
      exact fun heq => hb (Option.some.inj heq).symm
    rw [terminator?, if_pos hlt, if_neg hne, ih hrest h.2, List.length_cons, Nat.add_right_comm,
      Nat.add_assoc]

/-- The bytes up to the terminator are the text. -/
theorem run_of_occursAt (h : buf.occursAt (text ++ [0]) start = true) :
    run buf start (start + text.length) = text :=
  extract_of_occursAt (occursAt_append.mp h).1

/-- A set with a text does not begin with a zero byte. -/
theorem Storable.getElem?_of_closed (hs : Storable (text :: texts))
    (h : Closed buf (text :: texts) start) : ∃ b, buf[start]? = some b ∧ b ≠ 0 := by
  cases text with
  | nil => exact absurd List.mem_cons_self hs.nil_notMem
  | cons b rest =>
    have hfirst := (occursAt_cons.mp (closed_cons.mp h).1).1
    exact ⟨b, hfirst, fun heq => hs.zero_notMem_head (heq ▸ List.mem_cons_self)⟩

/-! ## All texts -/

/-- **The lister lists the texts of a closed set.** -/
theorem runs_of_closed (hs : Storable texts) (h : Closed buf texts start) :
    runs buf start = texts := by
  induction texts generalizing start with
  | nil =>
    rw [runs, closed_nil.mp h]
    simp
  | cons text texts ih =>
    obtain ⟨b, hb, hne⟩ := hs.getElem?_of_closed h
    obtain ⟨hfirst, hrest⟩ := closed_cons.mp h
    have hstop := terminator?_of_occursAt hs.zero_notMem_head hfirst
    rw [runs, hb]
    simp only [hne, if_false]
    split
    next hnone => simp [hstop] at hnone
    next stop hfound =>
      rw [hstop] at hfound
      obtain rfl := Option.some.inj hfound
      rw [run_of_occursAt hfirst, Nat.add_assoc, ih hs.tail hrest]

/-! ## One text by its number -/

/-- The reader of one text goes behind the texts before it, then up to a terminator. -/
theorem run?_succ (n : Nat) :
    run? buf start (n + 1) = (skip? buf n start).bind fun behind =>
      (terminator? buf behind).map (run buf behind) := by
  rw [run?, if_neg (Nat.succ_ne_zero n), Nat.add_sub_cancel]
  cases skip? buf n start with
  | none => rfl
  | some behind => cases hstop : terminator? buf behind <;> simp [hstop]

/-- **In a closed set with a text, a number finds the text with that number, or nothing.** -/
theorem run?_of_closed (hs : Storable (text :: texts)) (h : Closed buf (text :: texts) start)
    (n : Nat) : run? buf start (n + 1) = (text :: texts)[n]? := by
  rw [run?_succ]
  induction texts generalizing text start n with
  | nil =>
    obtain ⟨hfirst, hrest⟩ := closed_cons.mp h
    have hstop := terminator?_of_occursAt hs.zero_notMem_head hfirst
    have hclose := closed_nil.mp hrest
    rw [← Nat.add_assoc] at hclose
    cases n with
    | zero => simp [skip?, hstop, run_of_occursAt hfirst]
    | succ n => simp [skip?, hstop, hclose]
  | cons second texts ih =>
    obtain ⟨hfirst, hrest⟩ := closed_cons.mp h
    have hstop := terminator?_of_occursAt hs.zero_notMem_head hfirst
    obtain ⟨b, hb, hne⟩ := hs.tail.getElem?_of_closed hrest
    rw [← Nat.add_assoc] at hb
    cases n with
    | zero => simp [skip?, hstop, run_of_occursAt hfirst]
    | succ n =>
      have hbehind := ih hs.tail hrest n
      rw [← Nat.add_assoc] at hbehind
      simp [skip?, hstop, hb, hne, hbehind]

/-- In a set without texts the first text is empty, and there is no other one. -/
theorem run?_of_encode_nil (h : buf.occursAt (encode []) start = true) (n : Nat) :
    run? buf start (n + 1) = if n = 0 then some [] else none := by
  have hfirst : buf.occursAt ([] ++ [0]) start = true := by simpa using (occursAt_cons.mp h).1
  have hsecond := (occursAt_cons.mp (occursAt_cons.mp h).2).1
  have hstop := terminator?_of_occursAt List.not_mem_nil hfirst
  have hrun := run_of_occursAt hfirst
  rw [List.length_nil, Nat.add_zero] at hstop hrun
  rw [run?_succ]
  cases n with
  | zero => simp [skip?, hstop, hrun]
  | succ n => simp [skip?, hstop, hsecond]

/-! ## What is written for a set -/

/-- **The texts of a set that has been written are listed.** -/
theorem all_of_encode (hs : Storable texts) (h : buf.occursAt (encode texts) start = true) :
    all buf start = texts.map Utf8.lossy := by
  rw [all, runs_of_closed hs (closed_of_encode h)]

/-- **Each text of a set that has been written is read by its number, and every other number reads
as the empty text.** -/
theorem resolve_of_encode (hs : Storable texts) (h : buf.occursAt (encode texts) start = true)
    (number : Nat) :
    resolve buf start number =
      if number = 0 then "" else (texts[number - 1]?.map Utf8.lossy).getD "" := by
  cases number with
  | zero => rfl
  | succ n =>
    rw [if_neg (Nat.succ_ne_zero n), Nat.add_sub_cancel, resolve]
    cases texts with
    | nil =>
      rw [run?_of_encode_nil h]
      by_cases hn : n = 0 <;> simp [hn, Utf8.lossy, Utf8.scan, Utf8.scanFrom]
    | cons text texts =>
      rw [run?_of_closed hs (closed_of_encode h)]
      cases (text :: texts)[n]? <;> rfl

end ManagedRegion.Smbios.StringSet

namespace ManagedRegion.Smbios

open Bytes StringSet

variable {buf : Bytes} {start : Nat} {text : List UInt8} {texts : List (List UInt8)}

/-! ## The end of a set -/

/-- Where no two zero bytes stand, the search for them goes on. -/
theorem doubleNull?_succ (h : ¬(buf[start]? = some 0 ∧ buf[start + 1]? = some 0)) :
    doubleNull? buf start = doubleNull? buf (start + 1) := by
  rw [doubleNull?]
  by_cases hin : start + 1 < buf.size
  · rw [if_pos hin, if_neg h]
  · rw [if_neg hin, doubleNull?, if_neg (by omega)]

/-- Where two zero bytes stand, they are found. -/
theorem doubleNull?_of_occursAt (h : buf.occursAt [0, 0] start = true) :
    doubleNull? buf start = some start := by
  have hfirst := (occursAt_cons.mp h).1
  have hsecond := (occursAt_cons.mp (occursAt_cons.mp h).2).1
  have hin := (Array.getElem?_eq_some_iff.mp hsecond).1
  rw [doubleNull?, if_pos hin, if_pos ⟨hfirst, hsecond⟩]

/-- The search for two zero bytes passes a text without any. -/
theorem doubleNull?_append (hzero : (0 : UInt8) ∉ text) (h : buf.occursAt text start = true) :
    doubleNull? buf start = doubleNull? buf (start + text.length) := by
  induction text generalizing start with
  | nil => rfl
  | cons b rest ih =>
    rw [List.mem_cons, not_or] at hzero
    obtain ⟨hb, hrest⟩ := hzero
    obtain ⟨hfirst, hfollow⟩ := occursAt_cons.mp h
    have hne : ¬(buf[start]? = some 0 ∧ buf[start + 1]? = some 0) := by
      rintro ⟨hnull, -⟩
      rw [hfirst] at hnull
      exact hb (Option.some.inj hnull).symm
    rw [doubleNull?_succ hne, ih hrest hfollow, List.length_cons, Nat.add_right_comm, Nat.add_assoc]

/-- In a closed set with a text, two zero bytes stand behind the last text and nowhere before. -/
theorem doubleNull?_of_closed (hs : Storable (text :: texts))
    (h : Closed buf (text :: texts) start) :
    (doubleNull? buf start).map (· + 2) =
      some (start + ((text :: texts).flatMap (· ++ [0])).length + 1) := by
  induction texts generalizing text start with
  | nil =>
    obtain ⟨hfirst, hrest⟩ := closed_cons.mp h
    obtain ⟨htext, hnull⟩ := occursAt_append.mp hfirst
    have hpair : buf.occursAt [0, 0] (start + text.length) = true := by
      rw [occursAt_cons, occursAt_cons]
      exact ⟨(occursAt_cons.mp hnull).1, closed_nil.mp hrest, occursAt_nil⟩
    rw [doubleNull?_append hs.zero_notMem_head htext, doubleNull?_of_occursAt hpair]
    simp
    omega
  | cons second texts ih =>
    obtain ⟨hfirst, hrest⟩ := closed_cons.mp h
    obtain ⟨b, hb, hne⟩ := hs.tail.getElem?_of_closed hrest
    have hpass :
        ¬(buf[start + text.length]? = some 0 ∧ buf[start + text.length + 1]? = some 0) := by
      rintro ⟨-, hnull⟩
      rw [← Nat.add_assoc, hnull] at hb
      exact hne (Option.some.inj hb).symm
    rw [doubleNull?_append hs.zero_notMem_head (occursAt_append.mp hfirst).1,
      doubleNull?_succ hpass, Nat.add_assoc start, ih hs.tail hrest]
    simp
    omega

/-- **The two zero bytes that close a set that has been written are the first ones in it.** -/
theorem doubleNull?_of_encode (hs : Storable texts)
    (h : buf.occursAt (StringSet.encode texts) start = true) :
    (doubleNull? buf start).map (· + 2) = some (start + (StringSet.encode texts).length) := by
  cases texts with
  | nil => rw [doubleNull?_of_occursAt h]; rfl
  | cons text texts =>
    rw [doubleNull?_of_closed hs (closed_of_encode h)]
    simp [StringSet.encode, Nat.add_assoc]

end ManagedRegion.Smbios
