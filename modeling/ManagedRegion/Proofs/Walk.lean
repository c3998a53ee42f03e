import ManagedRegion.Smbios.Search
import ManagedRegion.Smbios.Walk

/-!
# Walk: what the searches and listings find

Every search and every listing has a loop of its own, with its own limit, its own reasons to stop
and its own place to go on from. This file describes all of them by one walk, `walk buf`, which has
no limit: a search is a `find?` on it, and a listing or a count is what `take` leaves of it or of
its matching structures (`walk_describes_searches`).

The proof has two halves. `walkFrom_of_some` opens the walk by one structure, and the loops that go
structure by structure (`first?_eq_find?`, `structuresFrom_eq_take`) follow it. The loops that jump
from match to match go on behind the last match, and `filter_walkFrom` says that this is where the
rest of the matching structures of the walk are.
-/

namespace ManagedRegion.Smbios

variable {buf : Bytes} {start : Nat} {s : Structure}

/-! ## The walk, structure by structure -/

/-- A view is a view of the buffer that it was taken from. -/
theorem buffer_of_structureAt? (h : structureAt? buf start = some s) : s.buffer = buf := by
  unfold structureAt? at h
  split at h
  · simp at h
  · obtain rfl := Option.some.inj h
    rfl

/-- **A view is no more than the header that it was taken of**: there is one exactly where a header
that begins a structure stands, and it is made up of the buffer, the offset and this header. -/
theorem structureAt?_map (buf : Bytes) (offset : Nat) :
    (structureAt? buf offset).map (fun s => (s.buffer, s.offset, s.header)) =
      (headerAt? buf offset).map fun header => (buf, offset, header) := by
  unfold structureAt?
  split
  next h => rw [h, Option.map_none, Option.map_none]
  next header h => simp only [Option.map_some, h]

/-- Every structure behind the one at `offset`, in table order. -/
def walkBehind (buf : Bytes) (offset : Nat) : List Structure :=
  (next? buf offset).elim [] (walkFrom buf)

/-- Nothing is behind a structure without an end. -/
theorem walkBehind_of_none (h : next? buf start = none) : walkBehind buf start = [] := by
  simp [walkBehind, h]

/-- Behind a structure the walk goes on where the structure ends. -/
theorem walkBehind_of_some {after : Nat} (h : next? buf start = some after) :
    walkBehind buf start = walkFrom buf after := by
  simp [walkBehind, h]

/-- The walk ends where no structure begins. -/
theorem walkFrom_of_none (h : structureAt? buf start = none) : walkFrom buf start = [] := by
  rw [walkFrom, h]

/-- The walk takes the structure that begins at its start, then all those behind it. -/
theorem walkFrom_of_some (h : structureAt? buf start = some s) :
    walkFrom buf start = s :: walkBehind buf start := by
  rw [walkFrom, h]
  simp only
  split
  next hnext => rw [walkBehind_of_none hnext]
  next after hnext => rw [walkBehind_of_some hnext]

/-- The walk begins with the structure at its start. -/
theorem head?_walkFrom : (walkFrom buf start).head? = structureAt? buf start := by
  cases hs : structureAt? buf start with
  | none => rw [walkFrom_of_none hs, List.head?_nil]
  | some s => rw [walkFrom_of_some hs, List.head?_cons]

/-- Behind a structure the walk begins where the structure ends. -/
theorem head?_walkBehind :
    (walkBehind buf start).head? = (next? buf start).bind (structureAt? buf) := by
  cases hnext : next? buf start with
  | none => rw [walkBehind_of_none hnext]; rfl
  | some after => rw [walkBehind_of_some hnext, head?_walkFrom]; rfl

/-- Each structure of the walk begins where the one before it ends. -/
theorem getElem?_walkFrom_succ (i : Nat) :
    (walkFrom buf start)[i + 1]? =
      ((walkFrom buf start)[i]?.bind fun s => next? buf s.offset).bind (structureAt? buf) := by
  induction i generalizing start with
  | zero =>
    cases hs : structureAt? buf start with
    | none => simp [walkFrom_of_none hs]
    | some s =>
      rw [walkFrom_of_some hs, List.getElem?_cons_succ, ← List.head?_eq_getElem?,
        head?_walkBehind, List.getElem?_cons_zero, Option.bind_some, offset_of_structureAt? hs]
  | succ i ih =>
    cases hs : structureAt? buf start with
    | none => simp [walkFrom_of_none hs]
    | some s =>
      rw [walkFrom_of_some hs, List.getElem?_cons_succ, List.getElem?_cons_succ]
      cases hnext : next? buf start with
      | none => simp [walkBehind_of_none hnext]
      | some after => rw [walkBehind_of_some hnext]; exact ih

/-- The walk only views the buffer that it goes through. -/
theorem buffer_of_mem_walkFrom (h : s ∈ walkFrom buf start) : s.buffer = buf := by
  fun_induction walkFrom buf start with
  | case1 start hnone => simp at h
  | case2 start first hfirst hnext =>
    obtain rfl := List.mem_singleton.mp h
    exact buffer_of_structureAt? hfirst
  | case3 start first hfirst after hnext ih =>
    rcases List.mem_cons.mp h with rfl | hrest
    · exact buffer_of_structureAt? hfirst
    · exact ih hrest

/-! ## Offsets grow along the walk -/

/-- The walk never goes back behind its start. -/
theorem le_offset_of_mem_walkFrom (h : s ∈ walkFrom buf start) : start ≤ s.offset := by
  fun_induction walkFrom buf start with
  | case1 start hnone => simp at h
  | case2 start first hfirst hnext =>
    obtain rfl := List.mem_singleton.mp h
    exact Nat.le_of_eq (offset_of_structureAt? hfirst).symm
  | case3 start first hfirst after hnext ih =>
    rcases List.mem_cons.mp h with rfl | hrest
    · exact Nat.le_of_eq (offset_of_structureAt? hfirst).symm
    · have hbounds := next?_bounds hnext
      have hafter := ih hrest
      omega

/-- What is behind a structure begins behind it. -/
theorem lt_offset_of_mem_walkBehind (h : s ∈ walkBehind buf start) : start < s.offset := by
  cases hn : next? buf start with
  | none => simp [walkBehind_of_none hn] at h
  | some after =>
    rw [walkBehind_of_some hn] at h
    have hbounds := next?_bounds hn
    have hafter := le_offset_of_mem_walkFrom h
    omega

/-- The offsets of the walk are strictly increasing. -/
theorem pairwise_offset_walkFrom :
    (walkFrom buf start).Pairwise fun a b => a.offset < b.offset := by
  fun_induction walkFrom buf start with
  | case1 start hnone => exact List.Pairwise.nil
  | case2 start first hfirst hnext => exact List.pairwise_singleton _ _
  | case3 start first hfirst after hnext ih =>
    refine List.Pairwise.cons (fun later hlater => ?_) ih
    rw [offset_of_structureAt? hfirst]
    exact lt_offset_of_mem_walkBehind (walkBehind_of_some hnext ▸ hlater)

/-- A walk that begins at a structure of another walk is the rest of that walk. -/
theorem walkFrom_offset_eq_filter (h : s ∈ walkFrom buf start) :
    walkFrom buf s.offset = (walkFrom buf start).filter (s.offset ≤ ·.offset) := by
  -- The induction goes along the walk until it meets `s`; what it passes lies before `s`.
  induction start using walkFrom.induct buf with
  | case1 start hnone => simp [walkFrom_of_none hnone] at h
  | case2 start first hfirst hnext =>
    rw [walkFrom_of_some hfirst, walkBehind_of_none hnext] at h ⊢
    obtain rfl := List.mem_singleton.mp h
    simp [offset_of_structureAt? hfirst, walkFrom_of_some hfirst, walkBehind_of_none hnext]
  | case3 start first hfirst after hnext ih =>
    rw [walkFrom_of_some hfirst, walkBehind_of_some hnext] at h
    rcases List.mem_cons.mp h with rfl | hrest
    · have hall : ∀ later ∈ walkFrom buf start, decide (s.offset ≤ later.offset) = true := by
        intro later hlater
        rw [decide_eq_true_iff, offset_of_structureAt? hfirst]
        exact le_offset_of_mem_walkFrom hlater
      rw [List.filter_eq_self.mpr hall, offset_of_structureAt? hfirst]
    · have hbefore : ¬s.offset ≤ first.offset := by
        have hlt := lt_offset_of_mem_walkBehind (walkBehind_of_some hnext ▸ hrest)
        rw [offset_of_structureAt? hfirst]
        omega
      rw [walkFrom_of_some hfirst, walkBehind_of_some hnext,
        List.filter_cons_of_neg (by simpa using hbefore), ih hrest]

/-! ## Searches -/

/-- **The first structure of a kind is the first one on the walk.** -/
theorem first?_eq_find? (wanted : Header → Bool) :
    first? buf wanted start = (walkFrom buf start).find? fun s => wanted s.header := by
  fun_induction first? buf wanted start with
  | case1 start hnone => rw [walkFrom_of_none hnone, List.find?_nil]
  | case2 start s hs hwanted => simp [walkFrom_of_some hs, hwanted]
  | case3 start s hs hwanted hnext => simp [walkFrom_of_some hs, hwanted, walkBehind_of_none hnext]
  | case4 start s hs hwanted after hnext ih =>
    simp [walkFrom_of_some hs, hwanted, walkBehind_of_some hnext, ih]

/-- The matching structures of the walk are the first one, then those behind it. -/
theorem filter_walkFrom (wanted : Header → Bool) :
    ((walkFrom buf start).filter fun s => wanted s.header) =
      (first? buf wanted start).elim [] fun s =>
        s :: (walkBehind buf s.offset).filter fun s => wanted s.header := by
  fun_induction first? buf wanted start with
  | case1 start hnone => simp [walkFrom_of_none hnone]
  | case2 start s hs hwanted => simp [walkFrom_of_some hs, hwanted, offset_of_structureAt? hs]
  | case3 start s hs hwanted hnext => simp [walkFrom_of_some hs, hwanted, walkBehind_of_none hnext]
  | case4 start s hs hwanted after hnext ih =>
    simp [walkFrom_of_some hs, hwanted, walkBehind_of_some hnext, ih]

/-- The structure at a position among those of a type is the one of the walk at that position. -/
theorem nthFrom?_eq_getElem? (type : UInt8) (n : Nat) :
    nthFrom? buf type n start =
      ((walkFrom buf start).filter fun s => s.header.isOfType type 0)[n]? := by
  induction n generalizing start with
  | zero =>
    rw [nthFrom?, firstOfType?, first?_eq_find?, ← List.head?_eq_getElem?, List.head?_filter]
  | succ n ih =>
    rw [nthFrom?, firstOfType?, filter_walkFrom]
    cases hfirst : first? buf (Header.isOfType type 0) start with
    | none => simp
    | some s =>
      cases hnext : next? buf s.offset with
      | none => simp [hnext, walkBehind_of_none hnext]
      | some after => simp [hnext, walkBehind_of_some hnext, ih]

/-! ## Listings and counts -/

/-- **A listing is the walk as far as its limit.** -/
theorem structuresFrom_eq_take (limit : Nat) :
    structuresFrom buf limit start = (walkFrom buf start).take limit := by
  induction limit generalizing start with
  | zero => rw [structuresFrom, List.take_zero]
  | succ limit ih =>
    rw [structuresFrom]
    cases hs : structureAt? buf start with
    | none => simp [walkFrom_of_none hs]
    | some s =>
      cases hnext : next? buf start with
      | none => simp [walkFrom_of_some hs, walkBehind_of_none hnext]
      | some after => simp [walkFrom_of_some hs, walkBehind_of_some hnext, ih]

/-- **The records of a type are the matching structures of the walk as far as the limit.** -/
theorem recordsFrom_eq_take (type minLength : UInt8) (limit : Nat) :
    recordsFrom buf type minLength limit start =
      ((walkFrom buf start).filter fun s => s.header.isOfType type minLength).take limit := by
  induction limit generalizing start with
  | zero => rw [recordsFrom, List.take_zero]
  | succ limit ih =>
    rw [recordsFrom, firstOfType?, filter_walkFrom]
    cases hfirst : first? buf (Header.isOfType type minLength) start with
    | none => simp
    | some s =>
      cases hnext : next? buf s.offset with
      | none => simp [hnext, walkBehind_of_none hnext]
      | some after => simp [hnext, walkBehind_of_some hnext, ih]

/-- A count is the number of records. -/
theorem countFrom_eq_length_recordsFrom (type minLength : UInt8) (limit : Nat) :
    countFrom buf type minLength limit start =
      (recordsFrom buf type minLength limit start).length := by
  induction limit generalizing start with
  | zero => rfl
  | succ limit ih =>
    rw [countFrom, recordsFrom]
    cases firstOfType? buf start type minLength with
    | none => rfl
    | some s =>
      cases hnext : next? buf s.offset with
      | none => simp [hnext]
      | some after => simp [hnext, ih]

/-! ## The whole buffer -/

/-- Being of a type and long enough, said of a structure. -/
theorem isOfType_header (type minLength : UInt8) :
    (fun s : Structure => s.header.isOfType type minLength) =
      fun s => decide (s.type = type ∧ minLength ≤ s.length) := by
  funext s
  rw [Header.isOfType, Bool.decide_and]
  rfl

/-- Without a least length, being of a type is a matter of the type alone. -/
theorem isOfType_header_zero (type : UInt8) :
    (fun s : Structure => s.header.isOfType type 0) = fun s => decide (s.type = type) := by
  rw [isOfType_header]
  funext s
  simp

/-- From a structure of the walk on, the first structure of a type is the first one of the walk at
or behind that place. -/
theorem firstOfType?_offset (h : s ∈ walk buf) (type minLength : UInt8) :
    firstOfType? buf s.offset type minLength =
      (walk buf).find? fun t => s.offset ≤ t.offset ∧ t.type = type ∧ minLength ≤ t.length := by
  rw [firstOfType?, first?_eq_find?, isOfType_header, walkFrom_offset_eq_filter h,
    List.find?_filter]
  simp [walk, Bool.decide_and]

/-- The structure at a position among those of a type, as far as positions are counted. -/
theorem nthOfType?_eq (type : UInt8) (n : Nat) :
    nthOfType? buf type n =
      if n < 255 then ((walk buf).filter fun s => s.type = type)[n]? else none := by
  rw [nthOfType?, nthFrom?_eq_getElem?, isOfType_header_zero]
  rfl

/-- The records of a type are those structures of the walk, as far as the limit. -/
theorem recordsOfType_eq (type minLength : UInt8) :
    recordsOfType buf type minLength =
      ((walk buf).filter fun s => s.type = type ∧ minLength ≤ s.length).take 255 := by
  rw [recordsOfType, recordsFrom_eq_take, isOfType_header]
  rfl

/-- A count is the number of those structures of the walk, as far as the limit. -/
theorem countOfType_eq (type minLength : UInt8) :
    countOfType buf type minLength =
      min 255 ((walk buf).countP fun s => s.type = type ∧ minLength ≤ s.length) := by
  rw [countOfType, countFrom_eq_length_recordsFrom, ← recordsOfType, recordsOfType_eq,
    List.length_take, List.countP_eq_length_filter]

/-- Without a least length, the first structure of a type is the first one on the walk. -/
theorem firstOfType?_zero_eq_find? (type : UInt8) :
    firstOfType? buf 0 type 0 = (walk buf).find? fun s => s.type = type := by
  rw [firstOfType?, first?_eq_find?, isOfType_header_zero]
  rfl

/-- Without a least length, the count of a type is that of the walk, as far as the limit. -/
theorem countOfType_zero_eq_min (type : UInt8) :
    countOfType buf type 0 = min 255 ((walk buf).countP fun s => s.type = type) := by
  rw [countOfType_eq]
  simp only [UInt8.zero_le, and_true]

/-- The structures of a buffer are the first ones of the walk. -/
theorem structures_eq_take : structures buf = (walk buf).take 255 :=
  structuresFrom_eq_take maxCount

/-- **Every search and every listing agrees with the walk.** A structure begins exactly where a
header that begins one stands. The walk begins at offset 0 if a structure begins there, and each of
its structures begins where the one before it ends, as long as one does; so it only goes forward.
The listing of a buffer and the search by handle stop behind 255 structures of the walk; counts and
records stop behind 255 matches; the first structure of a type is found wherever it is on the
walk. -/
theorem walk_describes_searches (buf : Bytes) :
    (∀ offset, (structureAt? buf offset).map (fun s => (s.buffer, s.offset, s.header)) =
      (headerAt? buf offset).map fun header => (buf, offset, header)) ∧
    (walk buf).head? = structureAt? buf 0 ∧
    (∀ i, (walk buf)[i + 1]? =
      ((walk buf)[i]?.bind fun s => next? buf s.offset).bind (structureAt? buf)) ∧
    (∀ s ∈ walk buf, headerAt? buf s.offset = some s.header) ∧
    ((walk buf).Pairwise fun a b => a.offset < b.offset) ∧
    structures buf = (walk buf).take 255 ∧
    (∀ handle, byHandle? buf handle = ((walk buf).take 255).find? fun s => s.handle = handle) ∧
    (∀ s ∈ walk buf, ∀ type minLength, firstOfType? buf s.offset type minLength =
      (walk buf).find? fun t => s.offset ≤ t.offset ∧ t.type = type ∧ minLength ≤ t.length) ∧
    (∀ type n, nthOfType? buf type n =
      if n < 255 then ((walk buf).filter fun s => s.type = type)[n]? else none) ∧
    (∀ type minLength, countOfType buf type minLength =
      min 255 ((walk buf).countP fun s => s.type = type ∧ minLength ≤ s.length)) ∧
    (∀ type minLength, recordsOfType buf type minLength =
      ((walk buf).filter fun s => s.type = type ∧ minLength ≤ s.length).take 255) ∧
    ∀ type, structuresOfType buf type = ((walk buf).take 255).filter fun s => s.type = type := by
  refine ⟨structureAt?_map buf, head?_walkFrom, getElem?_walkFrom_succ, ?_,
    pairwise_offset_walkFrom, structures_eq_take, ?_, ?_, nthOfType?_eq, countOfType_eq,
    recordsOfType_eq, ?_⟩
  · intro s hs
    have hbuffer := buffer_of_mem_walkFrom hs
    exact hbuffer ▸ s.header_eq
  · intro handle
    rw [byHandle?, structures_eq_take]
    rfl
  · intro s hs type minLength
    exact firstOfType?_offset hs type minLength
  · intro type
    rw [structuresOfType, structures_eq_take]
    rfl

/-- Three structures, of which the first has no texts and the last leaves its text open. -/
def openEndedBuffer : Bytes :=
  #[1, 4, 1, 0, 0, 0, 4, 4, 2, 0, 0x41, 0, 0, 1, 5, 3, 0, 7, 0x42]

/-- From the second structure on, the first one of type 1 with a body is the last structure of the
walk, although its text is left open. -/
theorem walk_describes_searches_openEnded :
    ∃ s ∈ walk openEndedBuffer, s.offset = 6 ∧
      firstOfType? openEndedBuffer s.offset 1 5 = (walk openEndedBuffer).find? (fun t =>
        s.offset ≤ t.offset ∧ t.type = 1 ∧ 5 ≤ t.length) ∧
      (firstOfType? openEndedBuffer s.offset 1 5).map (·.offset) = some 13 := by
  have hsecond : (walk openEndedBuffer)[1]?.map (·.offset) = some 6 := by decide +kernel
  obtain ⟨s, hs, hoffset⟩ := Option.map_eq_some_iff.mp hsecond
  have hmem : s ∈ walk openEndedBuffer := List.mem_of_getElem? hs
  obtain ⟨-, -, -, -, -, -, -, hfirst, -⟩ := walk_describes_searches openEndedBuffer
  refine ⟨s, hmem, hoffset, hfirst s hmem 1 5, ?_⟩
  rw [hoffset]
  decide +kernel

end ManagedRegion.Smbios
