import ManagedRegion.Toml.Unquoted

/-!
# Keys: names with points between their parts

A part of a key is a quoted text on one line or a run of letters, digits, underscores and dashes.
Blanks may stand around each part.
-/

namespace ManagedRegion.Toml

/-- A dotted key. -/
structure KeyPath where
  /-- The parts before the last one. -/
  parents : List String
  /-- The last part. -/
  key : String
  deriving DecidableEq

/-- How many parts a key may have, and how deep values may be nested in brackets and braces. -/
def maxDepth : Nat := 79

/-- Whether a character may stand in a key without quotes. -/
def isBareChar (c : Char) : Bool :=
  c.isAlphanum || c == '_' || c == '-'

/-- Reads one part of a key. -/
def readPart? (text : List Char) : Option (String × List Char) :=
  match unquoteLine? text with
  | some (part, rest) => some (String.ofList part, rest)
  | none =>
    let part := text.takeWhile isBareChar
    if part.isEmpty then none else some (String.ofList part, text.dropWhile isBareChar)

/-- Reads the parts of a key, at most `most` of them, with blanks around them and points between
them. -/
def readParts? : (most : Nat) → List Char → Option (List String × List Char)
  | 0, _ => none
  | most + 1, text => do
    let (part, rest) ← readPart? (skipSpace text)
    match skipSpace rest with
    | '.' :: rest =>
      let (parts, rest) ← readParts? most rest
      return (part :: parts, rest)
    | rest => return ([part], rest)

/-- A key of the given parts. -/
def KeyPath.ofParts? : List String → Option KeyPath
  | [] => none
  | [key] => some ⟨[], key⟩
  | part :: parts => (ofParts? parts).map fun path => ⟨part :: path.parents, path.key⟩

/-- Reads a key. -/
def readKey? (text : List Char) : Option (KeyPath × List Char) := do
  let (parts, rest) ← readParts? maxDepth text
  return (← KeyPath.ofParts? parts, rest)

/-! ## What reading leaves -/

/-- A part of a key leaves no more than there was. -/
theorem length_readPart? {text rest : List Char} {part : String}
    (h : readPart? text = some (part, rest)) : rest.length ≤ text.length := by
  unfold readPart? at h
  split at h
  next hquoted =>
    obtain ⟨-, rfl⟩ := Prod.mk.inj (Option.some.inj h)
    exact length_unquoteLine? hquoted
  next =>
    dsimp only at h
    split at h
    · simp at h
    · obtain ⟨-, rfl⟩ := Prod.mk.inj (Option.some.inj h)
      exact (List.dropWhile_suffix isBareChar).length_le

/-- The parts of a key leave no more than there was. -/
theorem length_readParts? {most : Nat} {text rest : List Char} {parts : List String}
    (h : readParts? most text = some (parts, rest)) : rest.length ≤ text.length := by
  induction most generalizing text rest parts with
  | zero => simp [readParts?] at h
  | succ most ih =>
    simp only [readParts?, Option.bind_eq_bind, Option.bind_eq_some_iff] at h
    obtain ⟨⟨part, behind⟩, hpart, h⟩ := h
    have hbehind := length_readPart? hpart
    have htext := length_skipSpace text
    have hspace := length_skipSpace behind
    dsimp only at h
    split at h
    next later hpoint =>
      rw [hpoint, List.length_cons] at hspace
      simp only [Option.bind_eq_some_iff, pure, Option.some.injEq, Prod.mk.injEq] at h
      obtain ⟨⟨_, last⟩, hlater, -, rfl⟩ := h
      have hlast : last.length ≤ later.length := ih hlater
      exact Nat.le_trans hlast (by omega)
    next =>
      obtain ⟨-, rfl⟩ := Prod.mk.inj (Option.some.inj h)
      omega

/-- A key leaves no more than there was. -/
theorem length_readKey? {text rest : List Char} {path : KeyPath}
    (h : readKey? text = some (path, rest)) : rest.length ≤ text.length := by
  simp only [readKey?, Option.bind_eq_bind, Option.bind_eq_some_iff, pure, Option.some.injEq,
    Prod.mk.injEq] at h
  obtain ⟨⟨_, _⟩, hparts, _, -, -, rfl⟩ := h
  exact length_readParts? hparts

end ManagedRegion.Toml
