import ManagedRegion.Toml.Quoted
import ManagedRegion.Toml.Unquoted

/-!
# Quoting: texts that are written in quotes are read back

A text is written in one of four forms, and the reader finds out the form from the quotes alone. So
two things can go wrong: a character within the text is read as something else, or quotes within the
text are read as its end. `written_writeChar` says that the first does not happen, character by
character; of the second, `writeBasic_cases` and `cases_of_longestRunFrom` say that the quotes
within a text of several lines never come to three in a row. Whatever form is chosen, then, its
reader gets the text back (**`unquote?_quote`**).
-/

namespace ManagedRegion.Toml

open Digits

variable {c d : Char} {lines : Bool} {quotes most n : Nat} {body code text rest : List Char}

/-! ## Characters that may stand as they are -/

/-- A control character comes in front of the space. -/
theorem lt_space_iff : c < ' ' ↔ c.toNat < 32 :=
  Iff.rfl

/-- A character that needs no escape, other than a line feed, may stand in a document. -/
theorem isPlain_of_not_needsEscape (hc : needsEscape c = false) (hfeed : c ≠ '\n') :
    isPlain c = true := by
  have hdelete : c ≠ '\x7F' := by
    rintro rfl
    exact absurd hc (by decide)
  by_cases htab : c = '\t'
  · rw [htab]
    rfl
  · have hspace : ¬c < ' ' := by
      intro hlt
      simp [needsEscape, hlt, htab, hfeed] at hc
    simp [isPlain, Char.not_lt.mp hspace, hdelete]

/-- The characters that need an escape are among the first 128. -/
theorem toNat_lt_of_needsEscape (hc : needsEscape c = true) : c.toNat < 128 := by
  simp only [needsEscape, Bool.or_eq_true, Bool.and_eq_true, decide_eq_true_eq, beq_iff_eq] at hc
  rcases hc with ⟨⟨hlt, -⟩, -⟩ | rfl
  · exact Nat.lt_trans (lt_space_iff.mp hlt) (by decide)
  · decide

/-- The end of a line does not begin with any other character. -/
theorem lineFeed?_cons (hfeed : c ≠ '\n') (hreturn : c ≠ '\r') :
    lineFeed? (c :: rest) = none := by
  unfold lineFeed?
  split
  next heq => exact absurd (List.cons.inj heq).1 hfeed
  next heq => exact absurd (List.cons.inj heq).1 hreturn
  next => rfl

/-- A character that may stand in a document does not end a line. -/
theorem lineFeed?_of_isPlain (hc : isPlain c = true) : lineFeed? (c :: rest) = none := by
  apply lineFeed?_cons
  · rintro rfl
    exact absurd hc (by decide)
  · rintro rfl
    exact absurd hc (by decide)

/-! ## Escapes -/

/-- What stands behind a backslash is read as a character, and not as a break in the text. -/
structure Escapes (c : Char) (code : List Char) : Prop where
  /-- It is read as the character. -/
  escape?_eq : ∀ rest, escape? (code ++ rest) = some (c, rest)
  /-- It does not begin with the end of a line. -/
  lineBreak?_eq : ∀ rest, lineBreak? (code ++ rest) = none

/-- A character is found by its number. -/
theorem charOf?_toNat (c : Char) : charOf? c.toNat = some c := by
  rw [charOf?, if_pos, Char.ofNat_toNat]
  exact c.valid

/-- A character is read from the digits of its number. -/
theorem codePoint?_append {width : Nat} {digits : List Char} (hwidth : digits.length = width)
    (hnumber : number? 16 digits = some c.toNat) (rest : List Char) :
    codePoint? width (digits ++ rest) = some (c, rest) := by
  have hdigits : (digits ++ rest).take width = digits := by
    rw [← hwidth, List.take_left]
  have hrest : (digits ++ rest).drop width = rest := by
    rw [← hwidth, List.drop_left]
  simp [codePoint?, hdigits, hrest, hwidth, hnumber, charOf?_toNat]

/-- Numbers below 128 are written in two digits behind two zeros. -/
theorem number?_hex (hn : n < 128) :
    number? 16 ['0', '0', upperHex (n / 16), upperHex (n % 16)] = some n := by
  have hall : ∀ n < 128,
      number? 16 ['0', '0', upperHex (n / 16), upperHex (n % 16)] = some n := by decide
  exact hall n hn

/-- A character that needs an escape is read from its number. -/
theorem escapes_hex (hc : needsEscape c = true) :
    Escapes c ['u', '0', '0', upperHex (c.toNat / 16), upperHex (c.toNat % 16)] where
  escape?_eq := codePoint?_append rfl (number?_hex (toNat_lt_of_needsEscape hc))
  lineBreak?_eq _ := rfl

/-- A quote is read behind a backslash. -/
theorem escapes_quote : Escapes '"' ['"'] :=
  ⟨fun _ => rfl, fun _ => rfl⟩

/-! ## Characters of a basic form -/

/-- The ways in which a character of a basic form is written. -/
inductive Written (lines : Bool) (c : Char) : List Char → Prop where
  /-- As an escape. -/
  | escaped {code : List Char} (h : Escapes c code) : Written lines c ('\\' :: code)
  /-- As it is. -/
  | plain (hplain : isPlain c = true) (hbackslash : c ≠ '\\') : Written lines c [c]
  /-- As a line feed, where there is room for several lines. -/
  | lineFeed (hlines : lines = true) (hfeed : c = '\n') : Written lines c ['\n']

/-- **Every character is written in one of these ways.** -/
theorem written_writeChar (lines : Bool) (c : Char) : Written lines c (writeChar lines c) := by
  have hletter {c d : Char} (h : ∀ rest, escape? (d :: rest) = some (c, rest))
      (hbreak : ∀ rest, lineBreak? (d :: rest) = none) : Written lines c ['\\', d] :=
    .escaped ⟨h, hbreak⟩
  unfold writeChar
  split
  case isTrue h => exact h ▸ hletter (fun _ => rfl) fun _ => rfl
  split
  case isTrue h => exact h ▸ hletter (fun _ => rfl) fun _ => rfl
  split
  case isTrue h =>
    split
    case isTrue hlines => exact .lineFeed hlines h
    case isFalse => exact h ▸ hletter (fun _ => rfl) fun _ => rfl
  case isFalse hfeed =>
    split
    case isTrue h => exact h ▸ hletter (fun _ => rfl) fun _ => rfl
    split
    case isTrue h => exact h ▸ hletter (fun _ => rfl) fun _ => rfl
    split
    case isTrue h =>
      subst h
      exact hletter (fun _ => rfl) fun _ => rfl
    case isFalse hbackslash =>
      split
      case isTrue h => exact .escaped (escapes_hex h)
      case isFalse h =>
        exact .plain (isPlain_of_not_needsEscape (by simpa using h) hfeed) hbackslash

/-- What is written for another character than a line feed does not begin with the end of a line. -/
theorem Written.lineFeed?_eq_none (h : Written lines c code) (hfeed : c ≠ '\n') :
    lineFeed? (code ++ rest) = none := by
  cases h with
  | escaped => exact lineFeed?_of_isPlain (by decide)
  | plain hplain => exact lineFeed?_of_isPlain hplain
  | lineFeed _ heq => exact absurd heq hfeed

/-! ## Texts of one line -/

/-- The closing quote ends a basic text. -/
theorem readBasic?_quote : readBasic? ('"' :: rest) = some ([], rest) := by
  rw [readBasic?]

/-- An escape in a basic text is read as its character. -/
theorem readBasic?_escape (h : Escapes c code) :
    readBasic? ('\\' :: (code ++ rest)) = (readBasic? rest).map (before c) := by
  rw [readBasic?]
  split
  next hnone => cases hnone.symm.trans (h.escape?_eq rest)
  next c' rest' hsome =>
    obtain ⟨rfl, rfl⟩ := Prod.mk.inj (Option.some.inj (hsome.symm.trans (h.escape?_eq rest)))
    rfl

/-- Any other character of a basic text is read as it is. -/
theorem readBasic?_plain (hplain : isPlain c = true) (hquote : c ≠ '"') (hbackslash : c ≠ '\\') :
    readBasic? (c :: rest) = (readBasic? rest).map (before c) := by
  rw [readBasic?.eq_4 c rest hquote hbackslash, if_pos hplain]

/-- A character other than a quote is read from what is written for it on one line. -/
theorem readBasic?_written (h : Written false c code) (hquote : c ≠ '"') :
    readBasic? (code ++ rest) = (readBasic? rest).map (before c) := by
  cases h with
  | escaped h => exact readBasic?_escape h
  | plain hplain hbackslash => exact readBasic?_plain hplain hquote hbackslash
  | lineFeed hlines => cases hlines

/-- **A basic text of one line is read back.** -/
theorem readBasic?_writeBasic (quotes : Nat) (text rest : List Char) :
    readBasic? (writeBasic false quotes text ++ '"' :: rest) = some (text, rest) := by
  induction text generalizing quotes with
  | nil => exact readBasic?_quote
  | cons c text ih =>
    rw [writeBasic]
    split
    next hquote =>
      obtain rfl := hquote
      rw [if_neg (by simp)]
      have hread : readBasic? ('\\' :: (['"'] ++ (writeBasic false 0 text ++ '"' :: rest))) = _ :=
        readBasic?_escape escapes_quote
      rw [ih] at hread
      exact hread
    next hquote =>
      rw [List.append_assoc, readBasic?_written (written_writeChar false c) hquote, ih]
      rfl

/-- **A literal text of one line is read back.** -/
theorem readLiteral?_append (htext : ∀ c ∈ text, isPlain c = true ∧ c ≠ '\'') (rest : List Char) :
    readLiteral? (text ++ '\'' :: rest) = some (text, rest) := by
  induction text with
  | nil => rfl
  | cons c text ih =>
    obtain ⟨hplain, hquote⟩ := htext c List.mem_cons_self
    have hread := ih fun d hd => htext d (List.mem_cons_of_mem _ hd)
    rw [List.cons_append, readLiteral?, if_neg hquote, if_pos hplain, hread]
    rfl

/-! ## Quotes in a row -/

/-- The text begins with at most `most` quotes, and another character follows. -/
def BreaksOff (quote : Char) (most : Nat) (text : List Char) : Prop :=
  ∃ n c rest, n ≤ most ∧ c ≠ quote ∧ text = List.replicate n quote ++ c :: rest

/-- Fewer than three quotes in a row do not end a text. -/
theorem closing?_of_breaksOff (h : BreaksOff d 2 text) : closing? d text = none := by
  obtain ⟨n, c, rest, hn, hc, rfl⟩ := h
  have hrun : ((List.replicate n d ++ c :: rest).takeWhile (· == d)).length = n := by
    rw [List.takeWhile_append_of_pos (by simp), List.takeWhile_cons_of_neg (by simpa using hc),
      List.append_nil, List.length_replicate]
  rw [closing?, hrun]
  exact if_pos (by omega)

/-- Three quotes end a text, and up to two in front of them belong to it. -/
theorem closing?_replicate (hn : n ≤ 2) (hrest : rest.head? ≠ some d) :
    closing? d (List.replicate n d ++ d :: d :: d :: rest) = some (List.replicate n d, rest) := by
  have hquotes : List.replicate n d ++ d :: d :: d :: rest =
      List.replicate (n + 3) d ++ rest := by
    rw [← List.replicate_append_replicate, List.append_assoc]
    rfl
  have hbehind : rest.takeWhile (· == d) = [] := by
    cases rest with
    | nil => rfl
    | cons c rest => exact List.takeWhile_cons_of_neg (by simpa using hrest)
  have hrun : ((List.replicate (n + 3) d ++ rest).takeWhile (· == d)).length = n + 3 := by
    rw [List.takeWhile_append_of_pos (by simp), hbehind, List.append_nil, List.length_replicate]
  have hinner : min (n + 3 - 3) 2 = n := by omega
  have hdrop : (List.replicate (n + 3) d ++ rest).drop (n + 3) = rest := by
    rw [List.drop_left' List.length_replicate]
  rw [closing?, hquotes, hrun]
  simp only [hinner, hdrop]
  exact if_neg (by omega)

/-- In front of a text that breaks off, one more quote makes one more in a row. -/
theorem BreaksOff.cons (h : BreaksOff d most body) : BreaksOff d (most + 1) (d :: body) := by
  obtain ⟨n, c, tail, hn, hc, rfl⟩ := h
  exact ⟨n + 1, c, tail, by omega, hc, rfl⟩

/-- A text that begins with another character breaks off at once. -/
theorem breaksOff_of_ne (hc : c ≠ d) : BreaksOff d most (c :: body) :=
  ⟨0, c, body, Nat.zero_le _, hc, rfl⟩

/-- What breaks off early does so within a greater number, whatever follows. -/
theorem BreaksOff.append (h : BreaksOff d n body) (hle : n ≤ most) (rest : List Char) :
    BreaksOff d most (body ++ rest) := by
  obtain ⟨k, c, tail, hk, hc, rfl⟩ := h
  exact ⟨k, c, tail ++ rest, Nat.le_trans hk hle, hc, List.append_assoc _ _ _⟩

/-- What is written for a character does not begin with a quote. -/
theorem Written.breaksOff (h : Written lines c code) (hquote : c ≠ '"') :
    BreaksOff '"' most (code ++ rest) := by
  cases h with
  | escaped => exact breaksOff_of_ne (by decide)
  | plain => exact breaksOff_of_ne hquote
  | lineFeed => exact breaksOff_of_ne (by decide)

/-- **In a basic text of several lines quotes do not come to three in a row**: it is nothing but
quotes that stay as they are, or it breaks off. -/
theorem writeBasic_cases (hquotes : quotes ≤ 2) (text : List Char) :
    (∃ n ≤ 2 - quotes, text = List.replicate n '"' ∧
      writeBasic true quotes text = List.replicate n '"') ∨
    BreaksOff '"' (2 - quotes) (writeBasic true quotes text) := by
  induction text generalizing quotes with
  | nil => exact .inl ⟨0, Nat.zero_le _, rfl, rfl⟩
  | cons c text ih =>
    rw [writeBasic]
    split
    next hquote =>
      obtain rfl := hquote
      split
      next hroom =>
        have hstep : 2 - quotes = 2 - (quotes + 1) + 1 := by omega
        have hmore : quotes + 1 ≤ 2 := hroom.2
        rw [hstep]
        rcases ih hmore with ⟨n, hn, rfl, hwritten⟩ | hbreaks
        · exact .inl ⟨n + 1, by omega, rfl, congrArg _ hwritten⟩
        · exact .inr hbreaks.cons
      next => exact .inr (breaksOff_of_ne (by decide))
    next hquote => exact .inr ((written_writeChar true c).breaksOff hquote)

/-- A run is at least as long as what stands in front of the text. -/
theorem le_longestRunFrom (d : Char) (n : Nat) (text : List Char) :
    n ≤ longestRunFrom d n text := by
  induction text generalizing n with
  | nil => exact Nat.le_refl _
  | cons c text ih =>
    rw [longestRunFrom]
    split
    · exact Nat.le_of_succ_le (ih (n + 1))
    · exact Nat.le_max_left _ _

/-- A text with short runs is nothing but quotes, or it breaks off. -/
theorem cases_of_longestRunFrom (h : longestRunFrom d n text ≤ most) :
    (∃ k, n + k ≤ most ∧ text = List.replicate k d) ∨ BreaksOff d (most - n) text := by
  induction text generalizing n with
  | nil => exact .inl ⟨0, h, rfl⟩
  | cons c text ih =>
    rw [longestRunFrom] at h
    split at h
    next hquote =>
      obtain rfl := hquote
      have hle := le_longestRunFrom c (n + 1) text
      have hstep : most - n = most - (n + 1) + 1 := by omega
      rw [hstep]
      rcases ih h with ⟨k, hk, rfl⟩ | hbreaks
      · exact .inl ⟨k + 1, by omega, rfl⟩
      · exact .inr hbreaks.cons
    next hquote => exact .inr (breaksOff_of_ne hquote)

/-- With more quotes in front of a text its runs are no shorter. -/
theorem longestRunFrom_mono (hle : n ≤ most) (d : Char) (text : List Char) :
    longestRunFrom d n text ≤ longestRunFrom d most text := by
  induction text generalizing n most with
  | nil => exact hle
  | cons c text ih =>
    rw [longestRunFrom, longestRunFrom]
    split
    · exact ih (Nat.succ_le_succ hle)
    · omega

/-- The runs of what follows a character are no longer. -/
theorem longestRun_tail_le (d c : Char) (text : List Char) :
    longestRun d text ≤ longestRun d (c :: text) := by
  rw [longestRun, longestRun, longestRunFrom]
  split
  · exact longestRunFrom_mono (Nat.zero_le _) d text
  · exact Nat.le_max_right _ _

/-- A text without runs does not hold the character. -/
theorem notMem_of_longestRun (h : longestRun d text = 0) : d ∉ text := by
  induction text with
  | nil => exact List.not_mem_nil
  | cons c text ih =>
    have htail := ih (Nat.le_zero.mp (h ▸ longestRun_tail_le d c text))
    rw [List.mem_cons]
    rintro (rfl | hmem)
    · have hle := le_longestRunFrom d (0 + 1) text
      rw [longestRun, longestRunFrom, if_pos rfl] at h
      omega
    · exact htail hmem

/-! ## Texts of several lines -/

/-- Closing quotes end a basic text of several lines. -/
theorem readBasicLines?_of_closing {read : List Char × List Char}
    (h : closing? '"' text = some read) : readBasicLines? text = some read := by
  rw [readBasicLines?.eq_def, h]

/-- An escape in a basic text of several lines is read as its character. -/
theorem readBasicLines?_escape (h : Escapes c code) :
    readBasicLines? ('\\' :: (code ++ rest)) = (readBasicLines? rest).map (before c) := by
  have hopen : closing? '"' ('\\' :: (code ++ rest)) = none :=
    closing?_of_breaksOff (breaksOff_of_ne (by decide))
  rw [readBasicLines?, hopen]
  simp only
  split
  next hbreak => cases hbreak.symm.trans (h.lineBreak?_eq rest)
  next =>
    split
    next hnone => cases hnone.symm.trans (h.escape?_eq rest)
    next c' rest' hsome =>
      obtain ⟨rfl, rfl⟩ := Prod.mk.inj (Option.some.inj (hsome.symm.trans (h.escape?_eq rest)))
      rfl

/-- A line feed in a basic text of several lines is read as it is. -/
theorem readBasicLines?_lineFeed :
    readBasicLines? ('\n' :: rest) = (readBasicLines? rest).map (before '\n') := by
  have hopen : closing? '"' ('\n' :: rest) = none :=
    closing?_of_breaksOff (breaksOff_of_ne (by decide))
  rw [readBasicLines?, hopen]
  · rfl
  · exact fun heq => absurd heq (by decide)

/-- Any other character of a basic text of several lines is read as it is, where no closing quotes
begin. -/
theorem readBasicLines?_plain (hopen : closing? '"' (c :: rest) = none) (hplain : isPlain c = true)
    (hbackslash : c ≠ '\\') :
    readBasicLines? (c :: rest) = (readBasicLines? rest).map (before c) := by
  have hfeed : lineFeed? (c :: rest) = none := lineFeed?_of_isPlain hplain
  rw [readBasicLines?, hopen]
  · simp only
    split
    next heq => cases hfeed.symm.trans heq
    next => rw [if_pos hplain]
  · exact hbackslash

/-- A character other than a quote is read from what is written for it on several lines. -/
theorem readBasicLines?_written (h : Written true c code) (hquote : c ≠ '"') :
    readBasicLines? (code ++ rest) = (readBasicLines? rest).map (before c) := by
  cases h with
  | escaped h => exact readBasicLines?_escape h
  | plain hplain hbackslash =>
    exact readBasicLines?_plain (closing?_of_breaksOff (breaksOff_of_ne hquote)) hplain hbackslash
  | lineFeed _ hfeed =>
    obtain rfl := hfeed
    exact readBasicLines?_lineFeed

/-- Where no closing quotes begin, a character of a basic text of several lines is read from what is
written for it. -/
theorem readBasicLines?_writeBasic_cons
    (hopen : closing? '"' (writeBasic true quotes (c :: text) ++ rest) = none) :
    ∃ later ≤ 2, readBasicLines? (writeBasic true quotes (c :: text) ++ rest) =
      (readBasicLines? (writeBasic true later text ++ rest)).map (before c) := by
  rw [writeBasic] at hopen ⊢
  split at hopen
  next hquote =>
    obtain rfl := hquote
    rw [if_pos rfl]
    split at hopen
    next hroom =>
      rw [List.cons_append] at hopen
      rw [if_pos hroom, List.cons_append]
      exact ⟨quotes + 1, hroom.2, readBasicLines?_plain hopen (by decide) (by decide)⟩
    next hfull =>
      rw [if_neg hfull]
      exact ⟨0, Nat.zero_le 2, readBasicLines?_escape escapes_quote⟩
  next hquote =>
    rw [if_neg hquote, List.append_assoc]
    exact ⟨0, Nat.zero_le 2, readBasicLines?_written (written_writeChar true c) hquote⟩

/-- **A basic text of several lines is read back.** -/
theorem readBasicLines?_writeBasic (hquotes : quotes ≤ 2) (text : List Char)
    (hrest : rest.head? ≠ some '"') :
    readBasicLines? (writeBasic true quotes text ++ '"' :: '"' :: '"' :: rest) =
      some (text, rest) := by
  induction text generalizing quotes with
  | nil => exact readBasicLines?_of_closing (closing?_replicate (Nat.zero_le 2) hrest)
  | cons c text ih =>
    rcases writeBasic_cases hquotes (c :: text) with ⟨n, hn, htext, hwritten⟩ | hbreaks
    · rw [hwritten, htext]
      exact readBasicLines?_of_closing (closing?_replicate (by omega) hrest)
    · obtain ⟨later, hlater, hread⟩ := readBasicLines?_writeBasic_cons
        (closing?_of_breaksOff (hbreaks.append (Nat.sub_le 2 quotes) _))
      rw [hread, ih hlater]
      rfl

/-- Closing quotes end a literal text of several lines. -/
theorem readLiteralLines?_of_closing {read : List Char × List Char}
    (h : closing? '\'' text = some read) : readLiteralLines? text = some read := by
  rw [readLiteralLines?.eq_def, h]

/-- A character of a literal text of several lines is read as it is, where no closing quotes
begin. -/
theorem readLiteralLines?_cons (hopen : closing? '\'' (c :: rest) = none)
    (hc : needsEscape c = false) :
    readLiteralLines? (c :: rest) = (readLiteralLines? rest).map (before c) := by
  rw [readLiteralLines?.eq_def, hopen]
  simp only
  by_cases hfeed : c = '\n'
  · obtain rfl := hfeed
    rfl
  · have hplain := isPlain_of_not_needsEscape hc hfeed
    split
    next heq => cases (lineFeed?_of_isPlain hplain).symm.trans heq
    next => rw [if_pos hplain]

/-- **A literal text of several lines is read back**, as long as it needs no escape and has no more
than two quotes in a row. -/
theorem readLiteralLines?_append (htext : ∀ c ∈ text, needsEscape c = false)
    (hruns : longestRun '\'' text ≤ 2) (hrest : rest.head? ≠ some '\'') :
    readLiteralLines? (text ++ '\'' :: '\'' :: '\'' :: rest) = some (text, rest) := by
  induction text with
  | nil => exact readLiteralLines?_of_closing (closing?_replicate (Nat.zero_le 2) hrest)
  | cons c text ih =>
    rcases cases_of_longestRunFrom hruns with ⟨n, hn, hquotes⟩ | hbreaks
    · rw [hquotes]
      exact readLiteralLines?_of_closing (closing?_replicate (by omega) hrest)
    · have hopen := closing?_of_breaksOff
        (hbreaks.append (Nat.sub_le 2 0) ('\'' :: '\'' :: '\'' :: rest))
      have hread := ih (fun d hd => htext d (List.mem_cons_of_mem _ hd))
        (Nat.le_trans (longestRun_tail_le '\'' c text) hruns)
      rw [List.cons_append] at hopen ⊢
      rw [readLiteralLines?_cons hopen (htext c List.mem_cons_self), hread]
      rfl

/-! ## The form that is chosen -/

/-- The form has room for the text. The basic forms have room for every text. -/
def Form.Holds (text : List Char) : Form → Prop
  | basic | basicLines => True
  | literal => ∀ c ∈ text, isPlain c = true ∧ c ≠ '\''
  | literalLines => (∀ c ∈ text, needsEscape c = false) ∧ longestRun '\'' text ≤ 2

/-- **The form that is chosen for a text has room for it.** -/
theorem Form.holds_choose (text : List Char) : (choose text).Holds text := by
  have hescapes (h : (!text.any needsEscape) = true) : ∀ c ∈ text, needsEscape c = false := by
    simpa using h
  unfold choose
  simp only
  split
  case isTrue => trivial
  split
  case isTrue h =>
    simp only [Bool.and_eq_true, decide_eq_true_eq] at h
    obtain ⟨⟨hplain, hquotes⟩, hlines⟩ := h
    intro c hc
    refine ⟨isPlain_of_not_needsEscape (hescapes hplain c hc) ?_, ?_⟩
    · rintro rfl
      simp [hc] at hlines
    · rintro rfl
      exact notMem_of_longestRun hquotes hc
  split
  case isTrue => trivial
  split
  case isTrue h =>
    simp only [Bool.and_eq_true, decide_eq_true_eq] at h
    exact ⟨hescapes h.1, h.2⟩
  split <;> trivial

/-! ## Texts in quotes -/

/-- Quotes open a text of one line where no second quote follows, or where the second one closes the
text already. -/
theorem unquote?_of_line (hbody : body = [] ∨ BreaksOff d 0 body) (hrest : rest.head? ≠ some d) :
    unquote? (d :: (body ++ d :: rest)) = unquoteLine? (d :: (body ++ d :: rest)) := by
  have hopen (later : List Char) : body ++ d :: rest ≠ d :: d :: later := by
    intro heq
    rcases hbody with rfl | ⟨n, c, tail, hn, hc, rfl⟩
    · obtain ⟨-, hsecond⟩ := List.cons.inj heq
      rw [hsecond] at hrest
      exact hrest rfl
    · obtain rfl := Nat.le_zero.mp hn
      exact hc (List.cons.inj heq).1
  unfold unquote?
  split
  next heq =>
    obtain ⟨rfl, heq⟩ := List.cons.inj heq
    exact absurd heq (hopen _)
  next heq =>
    obtain ⟨rfl, heq⟩ := List.cons.inj heq
    exact absurd heq (hopen _)
  next => rfl

/-- On one line no quote stays as it is. -/
theorem writeBasic_breaksOff (text : List Char) :
    writeBasic false 0 text = [] ∨ BreaksOff '"' 0 (writeBasic false 0 text) := by
  cases text with
  | nil => exact .inl rfl
  | cons c text =>
    rw [writeBasic]
    split
    next =>
      rw [if_neg (by simp)]
      exact .inr (breaksOff_of_ne (by decide))
    next hquote => exact .inr ((written_writeChar false c).breaksOff hquote)

/-- The line that a text of several lines begins on its own is not part of it. -/
theorem skipLineFeed_first (hopen : '\n' ∉ text → lineFeed? rest = none) :
    skipLineFeed ((if text.contains '\n' then ['\n'] else []) ++ rest) = rest := by
  split
  next => rfl
  next hfeed =>
    rw [List.nil_append, skipLineFeed, hopen (by simpa using hfeed)]
    rfl

/-- A basic text without line feeds does not begin with the end of a line. -/
theorem lineFeed?_writeBasic (htext : '\n' ∉ text) (rest : List Char) :
    lineFeed? (writeBasic true 0 text ++ '"' :: rest) = none := by
  cases text with
  | nil => exact lineFeed?_of_isPlain (by decide)
  | cons c text =>
    rw [writeBasic]
    split
    next =>
      rw [if_pos ⟨rfl, by decide⟩]
      exact lineFeed?_of_isPlain (by decide)
    next =>
      have hfeed : c ≠ '\n' := fun heq => htext (heq ▸ List.mem_cons_self)
      rw [List.append_assoc]
      exact (written_writeChar true c).lineFeed?_eq_none hfeed

/-- Nor does a literal one. -/
theorem lineFeed?_literal (hplain : ∀ c ∈ text, needsEscape c = false) (htext : '\n' ∉ text)
    (rest : List Char) : lineFeed? (text ++ '\'' :: rest) = none := by
  cases text with
  | nil => exact lineFeed?_of_isPlain (by decide)
  | cons c text =>
    have hfeed : c ≠ '\n' := fun heq => htext (heq ▸ List.mem_cons_self)
    exact lineFeed?_of_isPlain
      (isPlain_of_not_needsEscape (hplain c List.mem_cons_self) hfeed)

/-- **A text in quotes is read back**, whichever form it has been written in, as long as no quote
follows it. -/
theorem unquote?_quote (text : List Char) (hdouble : rest.head? ≠ some '"')
    (hsingle : rest.head? ≠ some '\'') : unquote? (quote text ++ rest) = some (text, rest) := by
  have hholds := Form.holds_choose text
  unfold quote
  generalize Form.choose text = form at hholds
  simp only [List.append_assoc]
  cases form with
  | basic =>
    exact (unquote?_of_line (writeBasic_breaksOff text) hdouble).trans
      (readBasic?_writeBasic 0 text rest)
  | literal =>
    have hbody : text = [] ∨ BreaksOff '\'' 0 text := by
      cases text with
      | nil => exact .inl rfl
      | cons c text => exact .inr (breaksOff_of_ne (hholds c List.mem_cons_self).2)
    exact (unquote?_of_line hbody hsingle).trans (readLiteral?_append hholds rest)
  | basicLines =>
    have hfirst := skipLineFeed_first fun (h : '\n' ∉ text) =>
      lineFeed?_writeBasic h ('"' :: '"' :: rest)
    have hread := readBasicLines?_writeBasic (Nat.zero_le 2) text hdouble
    rw [← hfirst] at hread
    exact hread
  | literalLines =>
    have hfirst := skipLineFeed_first fun h =>
      lineFeed?_literal hholds.1 h ('\'' :: '\'' :: rest)
    have hread := readLiteralLines?_append hholds.1 hholds.2 hsingle
    rw [← hfirst] at hread
    exact hread

end ManagedRegion.Toml
