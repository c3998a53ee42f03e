import ManagedRegion.Text.Digits
import ManagedRegion.Toml.Blank

/-!
# Unquoted text: how quoted text is read

`unquote?` reads a text in any of the four forms from the front of a text, and `unquoteLine?` one on
a single line. Both return what they read and the rest behind the closing quotes. The rest is never
longer than the text (`length_unquote?`), which is why reading on from it comes to an end.
-/

namespace ManagedRegion.Toml

open Digits

/-! ## Escapes -/

/-- The character with a number, if it is not a surrogate or out of range. -/
def charOf? (n : Nat) : Option Char :=
  if n < 0xD800 ∨ (0xDFFF < n ∧ n < 0x110000) then some (Char.ofNat n) else none

/-- The character whose number stands in the first `width` hexadecimal digits, and the rest. -/
def codePoint? (width : Nat) (text : List Char) : Option (Char × List Char) := do
  let digits := text.take width
  if digits.length = width then
    let n ← number? 16 digits
    let c ← charOf? n
    return (c, text.drop width)
  else
    none

/-- The character that an escape stands for, and the rest; the backslash has been read. -/
def escape? : List Char → Option (Char × List Char)
  | 'b' :: rest => some ('\x08', rest)
  | 't' :: rest => some ('\t', rest)
  | 'n' :: rest => some ('\n', rest)
  | 'f' :: rest => some ('\x0C', rest)
  | 'r' :: rest => some ('\r', rest)
  | '"' :: rest => some ('"', rest)
  | '\\' :: rest => some ('\\', rest)
  | 'u' :: rest => codePoint? 4 rest
  | 'U' :: rest => codePoint? 8 rest
  | _ => none

/-- A numbered character leaves no more than there was. -/
theorem length_codePoint? {width : Nat} {text rest : List Char} {c : Char}
    (h : codePoint? width text = some (c, rest)) : rest.length ≤ text.length := by
  simp only [codePoint?] at h
  split at h
  · simp only [Option.bind_eq_bind, Option.bind_eq_some_iff, pure, Option.some.injEq,
      Prod.mk.injEq] at h
    obtain ⟨_, _, _, _, _, rfl⟩ := h
    simp
  · simp at h

/-- An escape leaves no more than there was. -/
theorem length_escape? {text rest : List Char} {c : Char} (h : escape? text = some (c, rest)) :
    rest.length ≤ text.length := by
  unfold escape? at h
  split at h
  case h_8 =>
    have := length_codePoint? h
    simp only [List.length_cons]
    omega
  case h_9 =>
    have := length_codePoint? h
    simp only [List.length_cons]
    omega
  all_goals simp_all

/-- The rest behind spaces, tabs and ends of lines. -/
def skipLines : List Char → List Char
  | '\r' :: '\n' :: rest => skipLines rest
  | c :: rest => if c = ' ' ∨ c = '\t' ∨ c = '\n' then skipLines rest else c :: rest
  | [] => []

/-- Nothing is added by skipping. -/
theorem length_skipLines (text : List Char) : (skipLines text).length ≤ text.length := by
  fun_induction skipLines text with
  | case1 rest ih =>
    simp only [List.length_cons]
    omega
  | case2 c rest _ _ ih =>
    simp only [List.length_cons]
    omega
  | case3 => exact Nat.le_refl _
  | case4 => exact Nat.le_refl _

/-- The rest behind a break in the text that a backslash at the end of a line makes: up to the next
character that is not blank. The backslash has been read. -/
def lineBreak? (text : List Char) : Option (List Char) :=
  (lineFeed? (skipSpace text)).map skipLines

/-- A break in the text leaves less than there was. -/
theorem length_lineBreak? {text rest : List Char} (h : lineBreak? text = some rest) :
    rest.length ≤ text.length := by
  obtain ⟨behind, hbehind, rfl⟩ := Option.map_eq_some_iff.mp h
  have hfeed := length_lineFeed? hbehind
  have hskip := length_skipLines behind
  have hspace := length_skipSpace text
  omega

/-! ## Reading -/

/-- Puts a character in front of what was read. -/
def before (c : Char) (read : List Char × List Char) : List Char × List Char :=
  (c :: read.1, read.2)

/-- Reads a basic text of one line, up to and including the closing quote. -/
def readBasic? : List Char → Option (List Char × List Char)
  | [] => none
  | '"' :: rest => some ([], rest)
  | '\\' :: rest =>
    match _h : escape? rest with
    | none => none
    | some (c, rest) => (readBasic? rest).map (before c)
  | c :: rest => if isPlain c then (readBasic? rest).map (before c) else none
termination_by text => text.length
decreasing_by
  · have := length_escape? (by assumption)
    simp only [List.length_cons]
    omega
  · simp

/-- Reads a literal text of one line, up to and including the closing quote. -/
def readLiteral? : List Char → Option (List Char × List Char)
  | [] => none
  | c :: rest =>
    if c = '\'' then some ([], rest)
    else if isPlain c then (readLiteral? rest).map (before c)
    else none

/-- Reads the end of a text of several lines: three quotes. Up to two more in front of them belong
to the text. -/
def closing? (delimiter : Char) (text : List Char) : Option (List Char × List Char) :=
  let count := (text.takeWhile (· == delimiter)).length
  if count < 3 then none else
    let inner := min (count - 3) 2
    some (List.replicate inner delimiter, text.drop (inner + 3))

/-- Reads a basic text of several lines, up to and including the closing quotes. -/
def readBasicLines? (text : List Char) : Option (List Char × List Char) :=
  match closing? '"' text with
  | some read => some read
  | none =>
    match text with
    | [] => none
    | '\\' :: rest =>
      match _h : lineBreak? rest with
      | some rest => readBasicLines? rest
      | none =>
        match _h : escape? rest with
        | none => none
        | some (c, rest) => (readBasicLines? rest).map (before c)
    | c :: rest =>
      match _h : lineFeed? (c :: rest) with
      | some rest => (readBasicLines? rest).map (before '\n')
      | none => if isPlain c then (readBasicLines? rest).map (before c) else none
termination_by text.length
decreasing_by
  · have := length_lineBreak? (by assumption)
    simp only [List.length_cons]
    omega
  · have := length_escape? (by assumption)
    simp only [List.length_cons]
    omega
  · exact length_lineFeed? (by assumption)
  · simp

/-- Reads a literal text of several lines, up to and including the closing quotes. -/
def readLiteralLines? (text : List Char) : Option (List Char × List Char) :=
  match closing? '\'' text with
  | some read => some read
  | none =>
    match text with
    | [] => none
    | c :: rest =>
      match _h : lineFeed? (c :: rest) with
      | some rest => (readLiteralLines? rest).map (before '\n')
      | none => if isPlain c then (readLiteralLines? rest).map (before c) else none
termination_by text.length
decreasing_by
  · exact length_lineFeed? (by assumption)
  · simp

/-- The rest behind the end of a line, if one stands at the front. -/
def skipLineFeed (text : List Char) : List Char :=
  (lineFeed? text).getD text

/-- Reads a quoted text of one line from the front of a text. -/
def unquoteLine? : List Char → Option (List Char × List Char)
  | '"' :: rest => readBasic? rest
  | '\'' :: rest => readLiteral? rest
  | _ => none

/-- Reads a quoted text in any form from the front of a text. The end of a line right behind three
opening quotes does not belong to the text. -/
def unquote? : List Char → Option (List Char × List Char)
  | '"' :: '"' :: '"' :: rest => readBasicLines? (skipLineFeed rest)
  | '\'' :: '\'' :: '\'' :: rest => readLiteralLines? (skipLineFeed rest)
  | text => unquoteLine? text

/-! ## What reading leaves -/

/-- What is read behind a character leaves what is left in the end. -/
theorem length_of_map_before {read? : Option (List Char × List Char)} {c : Char} {bound : Nat}
    {read : List Char × List Char} (h : read?.map (before c) = some read)
    (hinner : ∀ inner, read? = some inner → inner.2.length ≤ bound) : read.2.length ≤ bound := by
  obtain ⟨inner, hread, rfl⟩ := Option.map_eq_some_iff.mp h
  exact hinner inner hread

/-- A basic text leaves no more than there was. -/
theorem length_readBasic? {text : List Char} {read : List Char × List Char}
    (h : readBasic? text = some read) : read.2.length ≤ text.length := by
  fun_induction readBasic? text generalizing read with
  | case1 => simp at h
  | case2 rest =>
    obtain rfl := Option.some.inj h
    exact Nat.le_succ _
  | case3 => simp at h
  | case4 rest c behind hescape ih =>
    have hbehind := length_escape? hescape
    have hread := length_of_map_before h fun _ => ih
    rw [List.length_cons]
    omega
  | case5 c rest _ _ _ ih =>
    exact Nat.le_succ_of_le (length_of_map_before h fun _ => ih)
  | case6 => simp at h

/-- A literal text leaves no more than there was. -/
theorem length_readLiteral? {text : List Char} {read : List Char × List Char}
    (h : readLiteral? text = some read) : read.2.length ≤ text.length := by
  induction text generalizing read with
  | nil => simp [readLiteral?] at h
  | cons c rest ih =>
    rw [readLiteral?] at h
    split at h
    · obtain rfl := Option.some.inj h
      exact Nat.le_succ _
    · split at h
      · exact Nat.le_succ_of_le (length_of_map_before h fun _ => ih)
      · simp at h

/-- The end of a text leaves no more than there was. -/
theorem length_closing? {delimiter : Char} {text : List Char} {read : List Char × List Char}
    (h : closing? delimiter text = some read) : read.2.length ≤ text.length := by
  unfold closing? at h
  dsimp only at h
  split at h
  · simp at h
  · obtain rfl := Option.some.inj h
    rw [List.length_drop]
    exact Nat.sub_le _ _

/-- A basic text of several lines leaves no more than there was. -/
theorem length_readBasicLines? {text : List Char} {read : List Char × List Char}
    (h : readBasicLines? text = some read) : read.2.length ≤ text.length := by
  fun_induction readBasicLines? text generalizing read with
  | case1 text closed hclosed =>
    obtain rfl := Option.some.inj h
    exact length_closing? hclosed
  | case2 => simp at h
  | case3 rest behind hbreak _ ih =>
    have hbehind := length_lineBreak? hbreak
    have hread := ih h
    rw [List.length_cons]
    omega
  | case4 => simp at h
  | case5 rest _ c behind hescape _ ih =>
    have hbehind := length_escape? hescape
    have hread := length_of_map_before h fun _ => ih
    rw [List.length_cons]
    omega
  | case6 c rest _ behind hfeed _ ih =>
    have hbehind := length_lineFeed? hfeed
    have hread := length_of_map_before h fun _ => ih
    omega
  | case7 c rest _ _ _ _ ih =>
    exact Nat.le_succ_of_le (length_of_map_before h fun _ => ih)
  | case8 => simp at h

/-- A literal text of several lines leaves no more than there was. -/
theorem length_readLiteralLines? {text : List Char} {read : List Char × List Char}
    (h : readLiteralLines? text = some read) : read.2.length ≤ text.length := by
  fun_induction readLiteralLines? text generalizing read with
  | case1 text closed hclosed =>
    obtain rfl := Option.some.inj h
    exact length_closing? hclosed
  | case2 => simp at h
  | case3 c rest behind hfeed _ ih =>
    have hbehind := length_lineFeed? hfeed
    have hread := length_of_map_before h fun _ => ih
    omega
  | case4 c rest _ _ _ ih =>
    exact Nat.le_succ_of_le (length_of_map_before h fun _ => ih)
  | case5 => simp at h

/-- Nothing is added by skipping the end of a line. -/
theorem length_skipLineFeed (text : List Char) : (skipLineFeed text).length ≤ text.length := by
  unfold skipLineFeed
  cases h : lineFeed? text with
  | none => exact Nat.le_refl _
  | some rest => exact Nat.le_of_lt (length_lineFeed? h)

/-- A quoted text of one line leaves no more than there was. -/
theorem length_unquoteLine? {text : List Char} {read : List Char × List Char}
    (h : unquoteLine? text = some read) : read.2.length ≤ text.length := by
  unfold unquoteLine? at h
  split at h
  · exact Nat.le_succ_of_le (length_readBasic? h)
  · exact Nat.le_succ_of_le (length_readLiteral? h)
  · simp at h

/-- A quoted text leaves no more than there was. -/
theorem length_unquote? {text : List Char} {read : List Char × List Char}
    (h : unquote? text = some read) : read.2.length ≤ text.length := by
  unfold unquote? at h
  split at h
  next rest =>
    have hread := length_readBasicLines? h
    have hskip := length_skipLineFeed rest
    simp only [List.length_cons]
    omega
  next rest =>
    have hread := length_readLiteralLines? h
    have hskip := length_skipLineFeed rest
    simp only [List.length_cons]
    omega
  next => exact length_unquoteLine? h

end ManagedRegion.Toml
