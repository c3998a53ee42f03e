import ManagedRegion.Bytes

/-!
# UTF-8: reading text out of raw bytes

`Utf8.scan` splits a run of bytes into characters and ill-formed parts. An ill-formed part is a
maximal one: the longest beginning of some well-formed sequence, or else a single byte. From the
scan come the two readings: `Utf8.lossy` writes U+FFFD for each ill-formed part, and `Utf8.strict?`
refuses a run that has one.
-/

namespace ManagedRegion.Utf8

/-- A sequence of which the first bytes have been read: the bits so far, the number of continuation
bytes still to come, and the range in which the next of them has to lie. -/
structure Unfinished where
  /-- The bits of the character read so far. -/
  bits : Nat
  /-- How many continuation bytes follow, the next one not counted. -/
  after : Nat
  /-- The least value of the next byte. -/
  low : UInt8
  /-- The greatest value of the next byte. -/
  high : UInt8

/-- What a byte at the beginning of a sequence stands for. -/
inductive Lead where
  /-- A character of one byte. -/
  | single (c : Char)
  /-- The first byte of a longer sequence. -/
  | first (sequence : Unfinished)
  /-- A byte that begins no sequence. -/
  | stray

/-- Classifies the byte at the beginning of a sequence. The ranges of the second byte leave out
overlong forms, surrogates and everything above U+10FFFF. -/
def lead (b : UInt8) : Lead :=
  let n := b.toNat
  if n < 0x80 then .single (Char.ofNat n)
  else if n < 0xC2 then .stray
  else if n < 0xE0 then .first ⟨n - 0xC0, 0, 0x80, 0xBF⟩
  else if n = 0xE0 then .first ⟨0, 1, 0xA0, 0xBF⟩
  else if n = 0xED then .first ⟨0xD, 1, 0x80, 0x9F⟩
  else if n < 0xF0 then .first ⟨n - 0xE0, 1, 0x80, 0xBF⟩
  else if n = 0xF0 then .first ⟨0, 2, 0x90, 0xBF⟩
  else if n < 0xF4 then .first ⟨n - 0xF0, 2, 0x80, 0xBF⟩
  else if n = 0xF4 then .first ⟨4, 2, 0x80, 0x8F⟩
  else .stray

/-- Reads one byte at the beginning of a sequence: what it completes, and what it leaves open. -/
def startSequence (b : UInt8) : List (Option Char) × Option Unfinished :=
  match lead b with
  | .single c => ([some c], none)
  | .first sequence => ([], some sequence)
  | .stray => ([none], none)

/-- Reads one byte with `sequence` open. A byte that does not continue the sequence ends it as an
ill-formed part and is read anew. -/
def resume (sequence : Unfinished) (b : UInt8) : List (Option Char) × Option Unfinished :=
  if sequence.low ≤ b ∧ b ≤ sequence.high then
    let bits := sequence.bits * 64 + (b.toNat - 0x80)
    match sequence.after with
    | 0 => ([some (Char.ofNat bits)], none)
    | after + 1 => ([], some ⟨bits, after, 0x80, 0xBF⟩)
  else
    let (read, rest) := startSequence b
    (none :: read, rest)

/-- Reads a run of bytes with a sequence possibly open; one left open at the end is ill-formed. -/
def scanFrom : Option Unfinished → List UInt8 → List (Option Char)
  | none, [] => []
  | some _, [] => [none]
  | none, b :: rest => let (read, state) := startSequence b; read ++ scanFrom state rest
  | some sequence, b :: rest => let (read, state) := resume sequence b; read ++ scanFrom state rest

/-- The characters of a run of bytes in order, `none` for each maximal ill-formed part. -/
def scan (bytes : List UInt8) : List (Option Char) :=
  scanFrom none bytes

/-- A byte at the beginning of a sequence is read at once, or it leaves the sequence open. -/
theorem startSequence_progress (b : UInt8) :
    (startSequence b).1 ≠ [] ∨ (startSequence b).2.isSome = true := by
  unfold startSequence
  cases lead b <;> simp

/-- So is a byte behind others of a sequence. -/
theorem resume_progress (sequence : Unfinished) (b : UInt8) :
    (resume sequence b).1 ≠ [] ∨ (resume sequence b).2.isSome = true := by
  unfold resume
  split
  · cases sequence.after <;> simp
  · exact .inl (List.cons_ne_nil _ _)

/-- A run with a byte in it, or with a sequence open, is not read as nothing. -/
theorem scanFrom_ne_nil {state : Option Unfinished} {bytes : List UInt8}
    (h : state.isSome = true ∨ bytes ≠ []) : scanFrom state bytes ≠ [] := by
  induction bytes generalizing state with
  | nil =>
    cases state with
    | none => simp at h
    | some sequence => exact List.cons_ne_nil _ _
  | cons b rest ih =>
    have hread (read : List (Option Char) × Option Unfinished)
        (hprogress : read.1 ≠ [] ∨ read.2.isSome = true) :
        read.1 ++ scanFrom read.2 rest ≠ [] := by
      intro hnil
      rw [List.append_eq_nil_iff] at hnil
      rcases hprogress with hnow | hopen
      · exact hnow hnil.1
      · exact ih (.inl hopen) hnil.2
    cases state with
    | none => exact hread _ (startSequence_progress b)
    | some sequence => exact hread _ (resume_progress sequence b)

/-- The text of a run of bytes, with U+FFFD for each maximal ill-formed part. -/
def lossy (bytes : List UInt8) : String :=
  String.ofList ((scan bytes).map (·.getD '\uFFFD'))

/-- Only the empty run is read as the empty text. -/
theorem lossy_ne_empty {bytes : List UInt8} (h : bytes ≠ []) : lossy bytes ≠ "" := by
  intro hempty
  have hscan : scan bytes ≠ [] := scanFrom_ne_nil (.inr h)
  have hchars := congrArg String.toList hempty
  rw [lossy, String.toList_ofList] at hchars
  exact hscan (List.map_eq_nil_iff.mp hchars)

/-- The text of a run of bytes, unless some part of it is ill-formed. -/
def strict? (bytes : List UInt8) : Option (List Char) :=
  (scan bytes).mapM id

end ManagedRegion.Utf8
