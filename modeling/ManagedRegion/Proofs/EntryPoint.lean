import ManagedRegion.Proofs.Occurrence
import ManagedRegion.Smbios.EntryPoint

/-!
# Entry points: which one a buffer is committed to, and what the gate says

An anchor may stand anywhere in a buffer, also across the edge between two things that were written
one behind the other. A buffer is committed to the first anchor of the older format, or, if that
format has no anchor at all, to the first one of the newer format (`Commits`); no later anchor is
ever tried. What is then read at the anchor decides everything (`Commits.locate_eq`): a buffer that
ends too early has a truncated entry point, and any other buffer holds the two bytes of the version.

An entry point that was written is read where it stands (`readAt_of_occursAt`), and found if the
buffer is committed to its anchor (`locate_of_commits`). A buffer without an underscore has none
(`locate_of_no_underscore`), since both anchors begin with one. **`locate_describes_anchors`** says
all of this of every buffer.
-/

namespace ManagedRegion.Smbios.EntryPoint

open Bytes

variable {buf : Bytes} {kind : EntryPointKind} {version : Version} {p : Nat}

/-! ## Anchors -/

/-- The bytes at `p` are the anchor of the format. -/
def Anchored (buf : Bytes) (kind : EntryPointKind) (p : Nat) : Prop :=
  (buf.extract p (p + kind.anchor.length)).toList = kind.anchor

instance : Decidable (Anchored buf kind p) :=
  inferInstanceAs (Decidable (_ = _))

/-- The search for an anchor asks at each offset whether the anchor stands there. -/
theorem occursAt_anchor_iff : buf.occursAt kind.anchor p = true ↔ Anchored buf kind p :=
  occursAt_iff_extract

/-- An anchor has some bytes. -/
theorem anchor_ne_nil (kind : EntryPointKind) : kind.anchor ≠ [] := by
  cases kind <;> exact List.cons_ne_nil _ _

/-- An anchor stands inside the buffer. -/
theorem Anchored.inside (h : Anchored buf kind p) : p + kind.anchor.length ≤ buf.size :=
  size_of_occursAt (occursAt_anchor_iff.mpr h) (anchor_ne_nil kind)

/-- A buffer has no anchor of a format if none begins inside. -/
theorem not_anchored_of_lt_size (h : ∀ q < buf.size, ¬Anchored buf kind q) (q : Nat) :
    ¬Anchored buf kind q := by
  intro hanchored
  have hpos : 0 < kind.anchor.length := List.length_pos_iff.mpr (anchor_ne_nil kind)
  have hinside := hanchored.inside
  exact h q (by omega) hanchored

/-- An entry point that was written begins with its anchor. -/
theorem anchored_of_occursAt (h : buf.occursAt (encode kind version) p = true) :
    Anchored buf kind p := by
  rw [encode, List.append_assoc, List.append_assoc, occursAt_append] at h
  exact occursAt_anchor_iff.mp h.1

/-- An anchor is found exactly if it is the first one of its format. -/
theorem findAnchor?_eq_some_iff :
    findAnchor? buf kind = some p ↔ Anchored buf kind p ∧ ∀ q < p, ¬Anchored buf kind q := by
  have hpos : 0 < kind.anchor.length := List.length_pos_iff.mpr (anchor_ne_nil kind)
  rw [findAnchor?, findFrom?_eq_some_iff]
  constructor
  · rintro ⟨-, -, hocc, hbefore⟩
    refine ⟨occursAt_anchor_iff.mp hocc, fun q hq hanchored => ?_⟩
    have hno := hbefore q (Nat.zero_le q) hq
    rw [occursAt_anchor_iff.mpr hanchored] at hno
    cases hno
  · rintro ⟨hanchored, hbefore⟩
    have hinside := hanchored.inside
    refine ⟨Nat.zero_le p, by omega, occursAt_anchor_iff.mpr hanchored, fun q _ hq => ?_⟩
    rw [← Bool.not_eq_true, occursAt_anchor_iff]
    exact hbefore q hq

/-- No anchor is found exactly if the format has none in the buffer. -/
theorem findAnchor?_eq_none_iff :
    findAnchor? buf kind = none ↔ ∀ q, ¬Anchored buf kind q := by
  have hpos : 0 < kind.anchor.length := List.length_pos_iff.mpr (anchor_ne_nil kind)
  rw [findAnchor?, findFrom?_eq_none_iff]
  constructor
  · intro hnone q hanchored
    have hinside := hanchored.inside
    have hno := hnone q (Nat.zero_le q) (by omega)
    rw [occursAt_anchor_iff.mpr hanchored] at hno
    cases hno
  · intro hnone q _ _
    rw [← Bool.not_eq_true, occursAt_anchor_iff]
    exact hnone q

/-! ## The anchor that counts -/

/-- The buffer is committed to the anchor at `p`: it is the first one of its format, and the newer
format counts only if the older one has no anchor anywhere. -/
structure Commits (buf : Bytes) (kind : EntryPointKind) (p : Nat) : Prop where
  /-- The anchor stands there. -/
  anchored : Anchored buf kind p
  /-- No anchor of its format stands further in front. -/
  first : ∀ q < p, ¬Anchored buf kind q
  /-- The newer format gives way to the older one. -/
  older : kind = .smbios30 → ∀ q, ¬Anchored buf .smbios21 q

/-- A buffer is committed to an anchor unless it has none. -/
theorem commits_or_not_anchored (buf : Bytes) :
    (∃ kind p, Commits buf kind p) ∨ ∀ kind p, ¬Anchored buf kind p := by
  -- the older format is asked first, and its answer also settles which anchor of the newer counts
  cases h21 : findAnchor? buf .smbios21 with
  | some p =>
    obtain ⟨hanchored, hfirst⟩ := findAnchor?_eq_some_iff.mp h21
    exact .inl ⟨.smbios21, p, hanchored, hfirst, nofun⟩
  | none =>
    have hnone := findAnchor?_eq_none_iff.mp h21
    cases h30 : findAnchor? buf .smbios30 with
    | some p =>
      obtain ⟨hanchored, hfirst⟩ := findAnchor?_eq_some_iff.mp h30
      exact .inl ⟨.smbios30, p, hanchored, hfirst, fun _ => hnone⟩
    | none =>
      right
      intro kind
      cases kind with
      | smbios21 => exact hnone
      | smbios30 => exact findAnchor?_eq_none_iff.mp h30

/-- **The entry point is read at the anchor that the buffer is committed to.** -/
theorem Commits.locate_eq (h : Commits buf kind p) : locate buf = readAt buf kind p := by
  have hfound := findAnchor?_eq_some_iff.mpr ⟨h.anchored, h.first⟩
  cases kind with
  | smbios21 => rw [locate, hfound]
  | smbios30 => rw [locate, findAnchor?_eq_none_iff.mpr (h.older rfl), hfound]

/-- Without an anchor there is no entry point. -/
theorem locate_of_not_anchored (h : ∀ kind p, ¬Anchored buf kind p) :
    locate buf = .error .anchorNotFound := by
  rw [locate, findAnchor?_eq_none_iff.mpr (h .smbios21), findAnchor?_eq_none_iff.mpr (h .smbios30)]

/-! ## What is read at an anchor -/

/-- An entry point that the buffer cuts short is truncated. -/
theorem readAt_of_short (h : buf.size - p < kind.size) :
    readAt buf kind p = .error (.truncated p kind.size (buf.size - p)) :=
  if_pos h

/-- In a buffer that holds the whole entry point, the bytes of the version are read. -/
theorem readAt_of_fits (h : kind.size ≤ buf.size - p) :
    ∃ major minor, buf[p + kind.versionOffset]? = some major ∧
      buf[p + kind.versionOffset + 1]? = some minor ∧
      readAt buf kind p = .ok ⟨kind, p, ⟨major, minor⟩⟩ := by
  have hversion : kind.versionOffset + 1 < kind.size := by cases kind <;> decide
  have hmajor : p + kind.versionOffset < buf.size := by omega
  have hminor : p + kind.versionOffset + 1 < buf.size := by omega
  refine ⟨_, _, Array.getElem?_eq_getElem hmajor, Array.getElem?_eq_getElem hminor, ?_⟩
  rw [readAt, if_neg (Nat.not_lt.mpr h)]
  simp only [Array.getElem?_eq_getElem hmajor, Array.getElem?_eq_getElem hminor]

/-- What is read at an anchor is an entry point there, or it is truncated there. -/
theorem readAt_cases (buf : Bytes) (kind : EntryPointKind) (p : Nat) :
    (∃ version, readAt buf kind p = .ok ⟨kind, p, version⟩) ∨
      readAt buf kind p = .error (.truncated p kind.size (buf.size - p)) := by
  by_cases h : buf.size - p < kind.size
  · exact .inr (readAt_of_short h)
  · obtain ⟨major, minor, -, -, hread⟩ := readAt_of_fits (Nat.le_of_not_lt h)
    exact .inl ⟨_, hread⟩

/-- No entry point is found exactly if there is no anchor. -/
theorem locate_eq_anchorNotFound_iff :
    locate buf = .error .anchorNotFound ↔ ∀ kind p, ¬Anchored buf kind p := by
  refine ⟨fun hlocate => ?_, locate_of_not_anchored⟩
  rcases commits_or_not_anchored buf with ⟨kind, p, hcommits⟩ | hnone
  · rw [hcommits.locate_eq] at hlocate
    rcases readAt_cases buf kind p with ⟨version, hread⟩ | hread
    all_goals
      rw [hread] at hlocate
      cases hlocate
  · exact hnone

/-- An entry point that is found stands at the anchor that the buffer is committed to. -/
theorem commits_of_locate {entryPoint : EntryPoint} (h : locate buf = .ok entryPoint) :
    Commits buf entryPoint.kind entryPoint.offset := by
  rcases commits_or_not_anchored buf with ⟨kind, p, hcommits⟩ | hnone
  · rw [hcommits.locate_eq] at h
    rcases readAt_cases buf kind p with ⟨version, hread⟩ | hread
    · rw [hread] at h
      cases h
      exact hcommits
    · rw [hread] at h
      cases h
  · rw [locate_of_not_anchored hnone] at h
    cases h

/-! ## The gate -/

/-- Without an entry point the gate has the same reason. -/
theorem checkVersion_of_error {failure : Failure} (h : locate buf = .error failure) :
    checkVersion buf = .error failure := by
  rw [checkVersion, h]

/-- The gate lets a supported version pass. -/
theorem checkVersion_of_supported {entryPoint : EntryPoint} (h : locate buf = .ok entryPoint)
    (hversion : entryPoint.version ∈ Version.supported) : checkVersion buf = .ok entryPoint := by
  rw [checkVersion, h]
  exact if_pos (List.contains_iff_mem.mpr hversion)

/-- The gate turns every other version down. -/
theorem checkVersion_of_unsupported {entryPoint : EntryPoint} (h : locate buf = .ok entryPoint)
    (hversion : entryPoint.version ∉ Version.supported) :
    checkVersion buf = .error (.unsupportedVersion entryPoint.version) := by
  rw [checkVersion, h]
  exact if_neg (mt List.contains_iff_mem.mp hversion)

/-- The gate lets exactly the entry points pass that are found and have a supported version. -/
theorem checkVersion_eq_ok_iff {entryPoint : EntryPoint} :
    checkVersion buf = .ok entryPoint ↔
      locate buf = .ok entryPoint ∧ entryPoint.version ∈ Version.supported := by
  constructor
  · intro hpass
    cases hlocate : locate buf with
    | error failure =>
      rw [checkVersion_of_error hlocate] at hpass
      cases hpass
    | ok found =>
      by_cases hversion : found.version ∈ Version.supported
      · rw [checkVersion_of_supported hlocate hversion] at hpass
        cases hpass
        exact ⟨rfl, hversion⟩
      · rw [checkVersion_of_unsupported hlocate hversion] at hpass
        cases hpass
  · rintro ⟨hlocate, hversion⟩
    exact checkVersion_of_supported hlocate hversion

/-- The gate turns a buffer down for want of an entry point, or for its version. -/
theorem checkVersion_eq_error_iff {failure : Failure} :
    checkVersion buf = .error failure ↔
      locate buf = .error failure ∨
        ∃ entryPoint, locate buf = .ok entryPoint ∧ entryPoint.version ∉ Version.supported ∧
          failure = .unsupportedVersion entryPoint.version := by
  constructor
  · intro hrefused
    cases hlocate : locate buf with
    | error found =>
      rw [checkVersion_of_error hlocate] at hrefused
      cases hrefused
      exact .inl rfl
    | ok found =>
      by_cases hversion : found.version ∈ Version.supported
      · rw [checkVersion_of_supported hlocate hversion] at hrefused
        cases hrefused
      · rw [checkVersion_of_unsupported hlocate hversion] at hrefused
        cases hrefused
        exact .inr ⟨found, rfl, hversion, rfl⟩
  · rintro (hlocate | ⟨found, hlocate, hversion, rfl⟩)
    · exact checkVersion_of_error hlocate
    · exact checkVersion_of_unsupported hlocate hversion

/-! ## Written entry points -/

/-- An entry point is read where it was written. -/
theorem readAt_of_occursAt (h : buf.occursAt (encode kind version) p = true) :
    readAt buf kind p = .ok ⟨kind, p, version⟩ := by
  have hne : encode kind version ≠ [] := by
    rw [← List.length_pos_iff, length_encode]
    cases kind <;> decide
  have hsize := size_of_occursAt h hne
  rw [length_encode] at hsize
  have hversion : buf[p + kind.versionOffset]? = some version.major ∧
      buf[p + kind.versionOffset + 1]? = some version.minor := by
    have hbyte := occursAt_iff_getElem?.mp h
    have hlength := length_encode kind version
    cases kind with
    | smbios21 => exact ⟨hbyte 6 (hlength ▸ by decide), hbyte 7 (hlength ▸ by decide)⟩
    | smbios30 => exact ⟨hbyte 7 (hlength ▸ by decide), hbyte 8 (hlength ▸ by decide)⟩
  rw [readAt, if_neg (by omega)]
  simp only [hversion.1, hversion.2]

/-- An entry point that stands in a buffer is found if the buffer is committed to its anchor. -/
theorem locate_of_commits (h : buf.occursAt (encode kind version) p = true)
    (hfirst : ∀ q < p, ¬Anchored buf kind q)
    (holder : kind = .smbios30 → ∀ q, ¬Anchored buf .smbios21 q) :
    locate buf = .ok ⟨kind, p, version⟩ := by
  have hcommits : Commits buf kind p := ⟨anchored_of_occursAt h, hfirst, holder⟩
  rw [hcommits.locate_eq]
  exact readAt_of_occursAt h

/-- **An entry point of the older format at the front of a buffer is the one that is found**,
whatever follows it. -/
theorem locate_of_occursAt (h : buf.occursAt (encode .smbios21 version) 0 = true) :
    locate buf = .ok ⟨.smbios21, 0, version⟩ :=
  locate_of_commits h (fun q hq => absurd hq (Nat.not_lt_zero q)) nofun

/-- The gate lets a buffer pass that begins with an entry point of a supported version. -/
theorem checkVersion_of_occursAt (h : buf.occursAt (encode .smbios21 version) 0 = true)
    (hversion : version.isSupported = true) :
    checkVersion buf = .ok ⟨.smbios21, 0, version⟩ :=
  checkVersion_of_supported (locate_of_occursAt h) (List.contains_iff_mem.mp hversion)

/-! ## Buffers without an entry point -/

/-- Without an underscore there is no anchor. -/
theorem not_anchored_of_no_underscore (h : ∀ i : Nat, buf[i]? ≠ some 0x5F) :
    ¬Anchored buf kind p := by
  intro hanchored
  have hocc := occursAt_anchor_iff.mpr hanchored
  cases kind <;> exact h p (occursAt_cons.mp hocc).1

/-- Without an underscore there is no entry point. -/
theorem locate_of_no_underscore (h : ∀ i : Nat, buf[i]? ≠ some 0x5F) :
    locate buf = .error .anchorNotFound :=
  locate_of_not_anchored fun _ _ => not_anchored_of_no_underscore h

/-- The gate turns down a buffer without an underscore. -/
theorem checkVersion_of_no_underscore (h : ∀ i : Nat, buf[i]? ≠ some 0x5F) :
    checkVersion buf = .error .anchorNotFound :=
  checkVersion_of_error (locate_of_no_underscore h)

/-! ## Every buffer -/

/-- **What is found in a buffer.** Nothing is found exactly if no anchor occurs. Any other buffer is
committed to one anchor: to the first one of the older format, or, without any, to the first one of
the newer format. There the entry point is truncated if fewer bytes follow than it needs, and
otherwise its version is read inside the buffer. The gate lets exactly the supported versions pass.
An entry point that was written, whatever stands around it, is the one that is found exactly if no
anchor of its format begins in front of it and, in the newer format, the older one has no anchor. -/
theorem locate_describes_anchors (buf : Bytes) :
    (locate buf = .error .anchorNotFound ↔ ∀ kind p, ¬Anchored buf kind p) ∧
    ((∃ kind p, Commits buf kind p) ∨ ∀ kind p, ¬Anchored buf kind p) ∧
    (∀ kind p, Commits buf kind p →
      p + kind.anchor.length ≤ buf.size ∧
      (buf.size - p < kind.size →
        locate buf = .error (.truncated p kind.size (buf.size - p))) ∧
      (kind.size ≤ buf.size - p → ∃ major minor, buf[p + kind.versionOffset]? = some major ∧
        buf[p + kind.versionOffset + 1]? = some minor ∧
        locate buf = .ok ⟨kind, p, ⟨major, minor⟩⟩)) ∧
    (∀ entryPoint, checkVersion buf = .ok entryPoint ↔
      locate buf = .ok entryPoint ∧ entryPoint.version ∈ Version.supported) ∧
    (∀ failure, checkVersion buf = .error failure ↔
      locate buf = .error failure ∨
        ∃ entryPoint, locate buf = .ok entryPoint ∧ entryPoint.version ∉ Version.supported ∧
          failure = .unsupportedVersion entryPoint.version) ∧
    ∀ front kind version back, buf = (front ++ encode kind version ++ back).toArray →
      (locate buf = .ok ⟨kind, front.length, version⟩ ↔
        (∀ q < front.length, ¬Anchored buf kind q) ∧
          (kind = .smbios30 → ∀ q, ¬Anchored buf .smbios21 q)) := by
  refine ⟨locate_eq_anchorNotFound_iff, commits_or_not_anchored buf, ?_,
    fun _ => checkVersion_eq_ok_iff, fun _ => checkVersion_eq_error_iff, ?_⟩
  · intro kind p hcommits
    rw [hcommits.locate_eq]
    exact ⟨hcommits.anchored.inside, readAt_of_short, readAt_of_fits⟩
  · rintro front kind version back rfl
    constructor
    · intro hlocate
      have hcommits := commits_of_locate hlocate
      exact ⟨hcommits.first, hcommits.older⟩
    · rintro ⟨hfirst, holder⟩
      exact locate_of_commits (occursAt_toArray_append front back) hfirst holder

/-- What stands in front of an entry point of the newer format, and four bytes behind it, make it
one of the older format with the version 51.95. -/
def straddledBuffer (back : List UInt8) : Bytes :=
  ([0x5F, 0x53, 0x4D] ++ encode .smbios30 ⟨3, 2⟩ ++ back).toArray

/-- An anchor across the edge of an entry point takes its place: the entry point at that anchor is
truncated if nothing follows, and has another version if enough bytes do. -/
theorem locate_describes_anchors_straddled :
    Commits (straddledBuffer []) .smbios21 0 ∧
    locate (straddledBuffer []) = .error (.truncated 0 31 27) ∧
    locate (straddledBuffer []) ≠ .ok ⟨.smbios30, 3, ⟨3, 2⟩⟩ ∧
    Commits (straddledBuffer [0, 0, 0, 0]) .smbios21 0 ∧
    checkVersion (straddledBuffer [0, 0, 0, 0]) = .error (.unsupportedVersion ⟨51, 95⟩) := by
  have hcommits (back : List UInt8) : Commits (straddledBuffer back) .smbios21 0 := by
    refine ⟨?_, fun q hq => absurd hq (Nat.not_lt_zero q), nofun⟩
    exact occursAt_anchor_iff.mp rfl
  obtain ⟨-, -, hfound, -, -, hwritten⟩ := locate_describes_anchors (straddledBuffer [])
  obtain ⟨-, -, hread, -, hgate, -⟩ := locate_describes_anchors (straddledBuffer [0, 0, 0, 0])
  have hshort := (hfound .smbios21 0 (hcommits [])).2.1 (by decide)
  obtain ⟨major, minor, hmajor, hminor, hlocate⟩ :=
    (hread .smbios21 0 (hcommits [0, 0, 0, 0])).2.2 (by decide)
  obtain rfl : 51 = major := Option.some.inj hmajor
  obtain rfl : 95 = minor := Option.some.inj hminor
  refine ⟨hcommits [], hshort, ?_, hcommits _, ?_⟩
  · intro hother
    have hnone := (hwritten [0x5F, 0x53, 0x4D] .smbios30 ⟨3, 2⟩ [] rfl).mp hother
    exact hnone.2 rfl 0 (hcommits []).anchored
  · exact (hgate _).mpr (.inr ⟨_, hlocate, by decide, rfl⟩)

end ManagedRegion.Smbios.EntryPoint
