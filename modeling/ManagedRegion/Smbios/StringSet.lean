import ManagedRegion.Text.Utf8

/-!
# String sets: the numbered texts behind a formatted area

The texts of a structure follow its formatted area as runs of bytes, each closed by a zero byte; one
more zero byte closes the set. Fields refer to a text by its number, counted from 1, and number 0
says "no text". `resolve` reads one text by its number, and `all` lists them; both begin at the
offset `area` of the first run.
-/

namespace ManagedRegion.Smbios.StringSet

/-- The offset of the first zero byte from `start` on. -/
def terminator? (buf : Bytes) (start : Nat) : Option Nat :=
  if start < buf.size then
    if buf[start]? = some 0 then some start else terminator? buf (start + 1)
  else
    none
termination_by buf.size - start

/-- A terminator is found at or behind the start, and inside the buffer. -/
theorem terminator?_bounds {buf : Bytes} {start stop : Nat}
    (h : terminator? buf start = some stop) : start ≤ stop ∧ stop < buf.size := by
  fun_induction terminator? buf start with
  | case1 start hin _ =>
    obtain rfl := Option.some.inj h
    exact ⟨Nat.le_refl _, hin⟩
  | case2 start _ _ ih =>
    have := ih h
    omega
  | case3 => simp at h

/-- The bytes of one text, without its terminator. -/
def run (buf : Bytes) (start stop : Nat) : List UInt8 :=
  (buf.extract start stop).toList

/-! ## One text by its number -/

/-- The offset behind `count` texts from `start` on. There is none if a text is not terminated, or
if a terminator is followed by the end of the set or of the buffer. -/
def skip? (buf : Bytes) : (count start : Nat) → Option Nat
  | 0, start => some start
  | count + 1, start => do
    let stop ← terminator? buf start
    let first ← buf[stop + 1]?
    if first = 0 then none else skip? buf count (stop + 1)

/-- The bytes of text number `number`, if the set has it. -/
def run? (buf : Bytes) (area number : Nat) : Option (List UInt8) := do
  if number = 0 then none else
  let start ← skip? buf (number - 1) area
  let stop ← terminator? buf start
  return run buf start stop

/-- Text number `number`, empty if the set does not have it. -/
def resolve (buf : Bytes) (area number : Nat) : String :=
  match run? buf area number with
  | some bytes => Utf8.lossy bytes
  | none => ""

/-! ## All texts -/

/-- The bytes of each text in order, up to the end of the set, an unterminated text or the end of
the buffer. -/
def runs (buf : Bytes) (start : Nat) : List (List UInt8) :=
  match buf[start]? with
  | none => []
  | some first =>
    if first = 0 then [] else
    match h : terminator? buf start with
    | none => []
    | some stop => run buf start stop :: runs buf (stop + 1)
termination_by buf.size - start
decreasing_by
  have := terminator?_bounds h
  omega

/-- Every text of the set, in order. -/
def all (buf : Bytes) (area : Nat) : List String :=
  (runs buf area).map Utf8.lossy

end ManagedRegion.Smbios.StringSet
