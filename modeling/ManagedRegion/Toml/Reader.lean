import ManagedRegion.Toml.Key
import ManagedRegion.Toml.Scalar

/-!
# Readers: values, and values within values

A `Reader` reads something from the front of a text and leaves no more than there was; it carries
the proof. So the values of an array and the pairs of a table in braces are read one after the
other until the text comes to its end. `valueReader` reads values that are nested up to a given
depth.
-/

namespace ManagedRegion.Toml

/-- A way to read something from the front of a text. -/
structure Reader (α : Type) where
  /-- Reads from the front of a text; returns what was read, and the rest. -/
  read? : List Char → Option (α × List Char)
  /-- The rest is no longer than the text. -/
  length_le : ∀ {text a rest}, read? text = some (a, rest) → rest.length ≤ text.length

/-! ## Arrays -/

/-- Reads the elements of an array, up to and including the bracket. A comma may follow the last
one. -/
def readElements? (element : Reader Value) (text : List Char) :
    Option (List Value × List Char) :=
  match _hfirst : skipBlank false text with
  | ']' :: rest => some ([], rest)
  | first =>
    match _helement : element.read? first with
    | none => none
    | some (value, behind) =>
      match _hbehind : skipBlank false behind with
      | ']' :: rest => some ([value], rest)
      | ',' :: rest =>
        (readElements? element rest).map fun (values, rest) => (value :: values, rest)
      | _ => none
termination_by text.length
decreasing_by
  have hfirst := length_skipBlank false text
  have helement := element.length_le _helement
  have hbehind := length_skipBlank false behind
  rw [_hfirst] at hfirst
  rw [_hbehind, List.length_cons] at hbehind
  omega

/-- The elements of an array leave no more than there was. -/
theorem length_readElements? {element : Reader Value} {text : List Char}
    {read : List Value × List Char} (h : readElements? element text = some read) :
    read.2.length ≤ text.length := by
  fun_induction readElements? element text generalizing read with
  | case1 text rest hfirst =>
    have htext := length_skipBlank false text
    rw [hfirst, List.length_cons] at htext
    obtain rfl := Option.some.inj h
    exact Nat.le_of_succ_le htext
  | case2 => simp at h
  | case3 text value behind rest hbehind _ helement =>
    have htext := length_skipBlank false text
    have hvalue := element.length_le helement
    have hblank := length_skipBlank false behind
    rw [hbehind, List.length_cons] at hblank
    obtain rfl := Option.some.inj h
    exact Nat.le_trans (Nat.le_of_succ_le hblank) (Nat.le_trans hvalue htext)
  | case4 text value behind rest hbehind _ helement ih =>
    have htext := length_skipBlank false text
    have hvalue := element.length_le helement
    have hblank := length_skipBlank false behind
    rw [hbehind, List.length_cons] at hblank
    obtain ⟨later, hlater, rfl⟩ := Option.map_eq_some_iff.mp h
    have hread := ih hlater
    dsimp only
    omega
  | case5 => simp at h

/-! ## Tables in braces -/

/-- Reads a key, an equals sign and a value. -/
def readPair? (element : Reader Value) (text : List Char) :
    Option ((KeyPath × Value) × List Char) := do
  let (path, rest) ← readKey? text
  match rest with
  | '=' :: rest =>
    let (value, rest) ← element.read? (skipSpace rest)
    return ((path, value), rest)
  | _ => none

/-- A pair leaves no more than there was. -/
theorem length_readPair? {element : Reader Value} {text rest : List Char}
    {pair : KeyPath × Value} (h : readPair? element text = some (pair, rest)) :
    rest.length ≤ text.length := by
  simp only [readPair?, Option.bind_eq_bind, Option.bind_eq_some_iff] at h
  obtain ⟨⟨path, behind⟩, hkey, h⟩ := h
  have hbehind := length_readKey? hkey
  dsimp only at h
  split at h
  next later =>
    simp only [Option.bind_eq_some_iff, pure, Option.some.injEq, Prod.mk.injEq] at h
    obtain ⟨⟨value, last⟩, hvalue, -, rfl⟩ := h
    have hlast : last.length ≤ (skipSpace later).length := element.length_le hvalue
    have hspace := length_skipSpace later
    rw [List.length_cons] at hbehind
    exact Nat.le_trans hlast (by omega)
  next => simp at h

/-- Reads the pairs of a table in braces, up to and including the brace. -/
def readPairs? (element : Reader Value) (text : List Char) :
    Option (List (KeyPath × Value) × List Char) :=
  match _hpair : readPair? element text with
  | none => none
  | some (pair, behind) =>
    match _hbehind : skipSpace behind with
    | '}' :: rest => some ([pair], rest)
    | ',' :: rest => (readPairs? element rest).map fun (pairs, rest) => (pair :: pairs, rest)
    | _ => none
termination_by text.length
decreasing_by
  have hpair := length_readPair? _hpair
  have hbehind := length_skipSpace behind
  rw [_hbehind, List.length_cons] at hbehind
  omega

/-- The pairs of a table in braces leave no more than there was. -/
theorem length_readPairs? {element : Reader Value} {text : List Char}
    {read : List (KeyPath × Value) × List Char} (h : readPairs? element text = some read) :
    read.2.length ≤ text.length := by
  fun_induction readPairs? element text generalizing read with
  | case1 => simp at h
  | case2 text pair behind hpair rest hbehind =>
    have htext := length_readPair? hpair
    have hspace := length_skipSpace behind
    rw [hbehind, List.length_cons] at hspace
    obtain rfl := Option.some.inj h
    exact Nat.le_trans (Nat.le_of_succ_le hspace) htext
  | case3 text pair behind hpair rest hbehind ih =>
    have htext := length_readPair? hpair
    have hspace := length_skipSpace behind
    rw [hbehind, List.length_cons] at hspace
    obtain ⟨later, hlater, rfl⟩ := Option.map_eq_some_iff.mp h
    have hread := ih hlater
    dsimp only
    omega
  | case4 => simp at h

/-- Defines all pairs of a table in braces. -/
def tableOf? (pairs : List (KeyPath × Value)) : Option Value := do
  let entries ← pairs.foldlM
    (fun (entries : Entries) (path, value) => entries.insert? path.key value path.parents) []
  return .table .braces entries

/-- Reads a table in braces; the opening brace has been read. -/
def readBraces? (element : Reader Value) (text : List Char) : Option (Value × List Char) :=
  match skipSpace text with
  | '}' :: rest => some (.table .braces [], rest)
  | _ => do
    let (pairs, rest) ← readPairs? element text
    return (← tableOf? pairs, rest)

/-- A table in braces leaves no more than there was. -/
theorem length_readBraces? {element : Reader Value} {text rest : List Char} {value : Value}
    (h : readBraces? element text = some (value, rest)) : rest.length ≤ text.length := by
  have hspace := length_skipSpace text
  unfold readBraces? at h
  split at h
  next hbrace =>
    rw [hbrace, List.length_cons] at hspace
    obtain ⟨-, rfl⟩ := Prod.mk.inj (Option.some.inj h)
    exact Nat.le_of_succ_le hspace
  next =>
    simp only [Option.bind_eq_bind, Option.bind_eq_some_iff, pure, Option.some.injEq,
      Prod.mk.injEq] at h
    obtain ⟨⟨_, _⟩, hpairs, _, -, -, rfl⟩ := h
    exact length_readPairs? hpairs

/-! ## Values -/

/-- Reads a value from the front of a text. `element` reads the values within it, if it may hold
any. -/
def readValue? (element : Option (Reader Value)) (text : List Char) :
    Option (Value × List Char) :=
  match text with
  | '[' :: rest =>
    element.bind fun element =>
      (readElements? element rest).map fun (values, rest) => (.array values, rest)
  | '{' :: rest => element.bind fun element => readBraces? element rest
  | _ =>
    match unquote? text with
    | some (string, rest) => some (.string (String.ofList string), rest)
    | none => readScalar? text

/-- A value leaves no more than there was. -/
theorem length_readValue? {element : Option (Reader Value)} {text rest : List Char} {value : Value}
    (h : readValue? element text = some (value, rest)) : rest.length ≤ text.length := by
  unfold readValue? at h
  split at h
  · obtain ⟨element, -, helements⟩ := Option.bind_eq_some_iff.mp h
    obtain ⟨read, hread, hrest⟩ := Option.map_eq_some_iff.mp helements
    obtain ⟨-, rfl⟩ := Prod.mk.inj hrest
    exact Nat.le_succ_of_le (length_readElements? hread)
  · obtain ⟨element, -, hbraces⟩ := Option.bind_eq_some_iff.mp h
    exact Nat.le_succ_of_le (length_readBraces? hbraces)
  · split at h
    next hquoted =>
      obtain ⟨-, rfl⟩ := Prod.mk.inj (Option.some.inj h)
      exact length_unquote? hquoted
    next => exact length_readScalar? h

/-- Reads values that are nested in at most `depth` brackets and braces. -/
def valueReader : (depth : Nat) → Reader Value
  | 0 => ⟨readValue? none, length_readValue?⟩
  | depth + 1 => ⟨readValue? (some (valueReader depth)), length_readValue?⟩

end ManagedRegion.Toml
