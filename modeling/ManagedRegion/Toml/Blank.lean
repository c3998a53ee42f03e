/-!
# Blanks: what stands between the parts of a document

Spaces and tabs may stand between any two parts; ends of lines and comments stand between
statements and between the values of an array. No reading of blanks adds anything to a text.
-/

namespace ManagedRegion.Toml

/-- Whether a character is a space or a tab. -/
def isSpace (c : Char) : Bool :=
  c == ' ' || c == '\t'

/-- Whether a character may stand in a document as it is, ends of lines not counted. -/
def isPlain (c : Char) : Bool :=
  c == '\t' || (' ' ≤ c && c != '\x7F')

/-- The rest behind spaces and tabs. -/
def skipSpace (text : List Char) : List Char :=
  text.dropWhile isSpace

/-- Nothing is added by skipping spaces. -/
theorem length_skipSpace (text : List Char) : (skipSpace text).length ≤ text.length :=
  (List.dropWhile_suffix isSpace).length_le

/-! ## Ends of lines -/

/-- The rest behind the end of a line: a line feed, or a carriage return and a line feed. -/
def lineFeed? : List Char → Option (List Char)
  | '\n' :: rest => some rest
  | '\r' :: '\n' :: rest => some rest
  | _ => none

/-- The end of a line is not empty. -/
theorem length_lineFeed? {text rest : List Char} (h : lineFeed? text = some rest) :
    rest.length < text.length := by
  unfold lineFeed? at h
  split at h
  · simp_all
  · obtain rfl := Option.some.inj h
    simp only [List.length_cons]
    omega
  · simp at h

/-- The rest behind spaces, tabs, ends of lines and comments. A comment that holds a character that
may not stand in a document is left there. -/
def skipBlank : (comment : Bool) → List Char → List Char
  | _, [] => []
  | _, '\n' :: rest => skipBlank false rest
  | _, '\r' :: '\n' :: rest => skipBlank false rest
  | false, c :: rest =>
    if isSpace c then skipBlank false rest
    else if c = '#' then skipBlank true rest
    else c :: rest
  | true, c :: rest => if isPlain c then skipBlank true rest else c :: rest

/-- Nothing is added by skipping blanks. -/
theorem length_skipBlank (comment : Bool) (text : List Char) :
    (skipBlank comment text).length ≤ text.length := by
  fun_induction skipBlank comment text with
  | case1 => exact Nat.le_refl _
  | case2 _ rest ih => exact Nat.le_succ_of_le ih
  | case3 _ rest ih => exact Nat.le_succ_of_le (Nat.le_succ_of_le ih)
  | case4 c rest _ _ _ ih => exact Nat.le_succ_of_le ih
  | case5 rest _ _ _ ih => exact Nat.le_succ_of_le ih
  | case6 => exact Nat.le_refl _
  | case7 c rest _ _ _ ih => exact Nat.le_succ_of_le ih
  | case8 => exact Nat.le_refl _

/-- The rest behind the end of a statement: blanks, a comment if there is one, and the end of the
line or of the document. -/
def endLine? (text : List Char) : Option (List Char) :=
  let behind := match skipSpace text with
    | '#' :: rest => rest.dropWhile isPlain
    | rest => rest
  if behind.isEmpty then some [] else lineFeed? behind

/-- The end of a statement is not empty, unless it is the end of the document. -/
theorem length_endLine? {text rest : List Char} (h : endLine? text = some rest) :
    rest = [] ∨ rest.length < text.length := by
  have hspace := length_skipSpace text
  unfold endLine? at h
  dsimp only at h
  split at h
  next comment hcomment =>
    have hplain := (List.dropWhile_suffix isPlain (l := comment)).length_le
    rw [hcomment, List.length_cons] at hspace
    split at h
    · exact .inl (Option.some.inj h).symm
    · have := length_lineFeed? h
      exact .inr (by omega)
  next =>
    split at h
    · exact .inl (Option.some.inj h).symm
    · have := length_lineFeed? h
      exact .inr (by omega)

end ManagedRegion.Toml
