import ManagedRegion.Toml.Format
import ManagedRegion.Toml.Quoted
import ManagedRegion.Toml.Reader

/-!
# Documents: from text to the table that it describes

A document is a list of statements, one a line: a key with its value, or the header of a table.
`statements?` reads the text into statements, which is a matter of form only; `assemble?` carries
the statements out one after the other, which is where double definitions are refused. `parse?` is
one after the other. `print?` writes a table of texts and integers, one statement a line, and
`format` is both of them.
-/

namespace ManagedRegion.Toml

/-! ## Statements -/

/-- One line of a document. -/
inductive Statement where
  /-- Defines a key. -/
  | pair (path : KeyPath) (value : Value)
  /-- Begins a table. -/
  | table (path : KeyPath)
  /-- Begins one more table under a header in double brackets. -/
  | element (path : KeyPath)

/-- Reads a header up to and including its closing brackets. -/
def readHeader? (close : List Char) (text : List Char) : Option (KeyPath × List Char) := do
  let (path, rest) ← readKey? text
  if close.isPrefixOf rest then return (path, rest.drop close.length) else none

/-- A header leaves no more than there was. -/
theorem length_readHeader? {close text rest : List Char} {path : KeyPath}
    (h : readHeader? close text = some (path, rest)) : rest.length ≤ text.length := by
  simp only [readHeader?, Option.bind_eq_bind, Option.bind_eq_some_iff] at h
  obtain ⟨⟨_, behind⟩, hkey, h⟩ := h
  have hbehind : behind.length ≤ text.length := length_readKey? hkey
  dsimp only at h
  split at h
  · obtain ⟨-, rfl⟩ := Prod.mk.inj (Option.some.inj h)
    rw [List.length_drop]
    exact Nat.le_trans (Nat.sub_le _ _) hbehind
  · simp at h

/-- Reads a statement, without the end of its line. -/
def readStatement? (text : List Char) : Option (Statement × List Char) :=
  match text with
  | '[' :: '[' :: rest =>
    (readHeader? [']', ']'] rest).map fun (path, rest) => (.element path, rest)
  | '[' :: rest => (readHeader? [']'] rest).map fun (path, rest) => (.table path, rest)
  | _ =>
    (readPair? (valueReader maxDepth) text).map fun ((path, value), rest) =>
      (.pair path value, rest)

/-- A statement leaves no more than there was. -/
theorem length_readStatement? {text rest : List Char} {statement : Statement}
    (h : readStatement? text = some (statement, rest)) : rest.length ≤ text.length := by
  unfold readStatement? at h
  split at h
  · obtain ⟨⟨_, _⟩, hheader, hrest⟩ := Option.map_eq_some_iff.mp h
    obtain ⟨-, rfl⟩ := Prod.mk.inj hrest
    exact Nat.le_succ_of_le (Nat.le_succ_of_le (length_readHeader? hheader))
  · obtain ⟨⟨_, _⟩, hheader, hrest⟩ := Option.map_eq_some_iff.mp h
    obtain ⟨-, rfl⟩ := Prod.mk.inj hrest
    exact Nat.le_succ_of_le (length_readHeader? hheader)
  · obtain ⟨⟨⟨_, _⟩, _⟩, hpair, hrest⟩ := Option.map_eq_some_iff.mp h
    obtain ⟨-, rfl⟩ := Prod.mk.inj hrest
    exact length_readPair? hpair

/-- Reads all statements of a text. -/
def statements? (text : List Char) : Option (List Statement) :=
  match _hfirst : skipBlank false text with
  | [] => some []
  | c :: first =>
    match _hstatement : readStatement? (c :: first) with
    | none => none
    | some (statement, behind) =>
      match _hend : endLine? behind with
      | none => none
      | some rest => (statements? rest).map (statement :: ·)
termination_by text.length
decreasing_by
  have hfirst := length_skipBlank false text
  have hstatement := length_readStatement? _hstatement
  rw [_hfirst] at hfirst
  rw [List.length_cons] at hfirst hstatement
  rcases length_endLine? _hend with rfl | hend
  · exact Nat.lt_of_lt_of_le (Nat.zero_lt_succ _) hfirst
  · omega

/-! ## The table that statements describe -/

/-- A document in the making: what has been defined, and the table that pairs go to. -/
structure Draft where
  /-- The keys and values at the top. -/
  entries : Entries
  /-- The path of the table that pairs go to. -/
  current : List String

/-- Carries a statement out. -/
def Draft.add? (draft : Draft) : Statement → Option Draft
  | .pair path value => do
    let entries ← draft.entries.within? (·.insert? path.key value path.parents) draft.current
    return { draft with entries }
  | .table path => do
    let entries ← draft.entries.within? (·.openTable? path.key) path.parents
    return ⟨entries, path.parents ++ [path.key]⟩
  | .element path => do
    let entries ← draft.entries.within? (·.openElement? path.key) path.parents
    return ⟨entries, path.parents ++ [path.key]⟩

/-- Carries statements out, one after the other. -/
def assemble? (statements : List Statement) : Option Entries := do
  let draft ← statements.foldlM Draft.add? ⟨[], []⟩
  return draft.entries

/-- Leaves out the byte order mark that a text may begin with. -/
def withoutMark : List Char → List Char
  | '\uFEFF' :: rest => rest
  | text => text

/-- Reads a document. -/
def parse? (text : List Char) : Option Entries := do
  let statements ← statements? (withoutMark text)
  assemble? statements

/-! ## Writing -/

/-- An integer in decimal digits. -/
def writeInteger : Int → List Char
  | .ofNat n => Digits.decimal n
  | .negSucc n => '-' :: Digits.decimal (n + 1)

/-- A key, in quotes where it does not do without them. -/
def writeKey (key : List Char) : List Char :=
  if !key.isEmpty && key.all isBareChar then key else '"' :: (writeBasic false 0 key ++ ['"'])

/-- A text, or an integer if it has 64 bits. Other values are not written. -/
def writeValue? : Value → Option (List Char)
  | .string text => some (quote text.toList)
  | .integer n =>
    if -(integerLimit : Int) ≤ n ∧ n < integerLimit then some (writeInteger n) else none
  | _ => none

/-- The line that defines a key. -/
def writeLine? (entry : String × Value) : Option (List Char) :=
  (writeValue? entry.2).map fun written =>
    writeKey entry.1.toList ++ [' ', '=', ' '] ++ written ++ ['\n']

/-- Writes a table, one line for each key. -/
def print? (entries : Entries) : Option (List Char) :=
  (entries.reverse.mapM writeLine?).map List.flatten

/-- Documents in this format. -/
def format : Format where
  print? entries := (print? entries).map String.ofList
  parse? text := parse? text.toList

end ManagedRegion.Toml
