import ManagedRegion.Proofs.Quoting
import ManagedRegion.Toml.Document
import Mathlib.Data.List.TakeDrop
import Mathlib.Data.List.TakeWhile

/-!
# Lines: tables that are written are read back

A table is written as a key, an equals sign and a value for each of its entries, one a line. `Names`
says of some characters that they are read as a key in front of the equals sign, and `Spells` that
they are read as a value wherever the line ends behind them. Each key is written in characters that
name it (`names_writeKey`), and texts and integers in characters that spell them (`spells_quote`,
`spells_writeInteger`). A line of such characters is read as its statement, and the lines behind it
as before (`statements?_line`); so a document of lines with different keys is read as their entries
(`parse?_lines`), and with this format every table of texts and integers is read back
(**`format_readsBack`**).
-/

namespace ManagedRegion.Toml

open Digits

variable {p : Char → Bool} {c : Char} {run written rest : List Char} {n : Nat} {key : String}
  {value : Value}

/-! ## Runs of characters -/

/-- A run goes as far as its characters. -/
theorem takeWhile_run (hrun : ∀ c ∈ run, p c = true) (hc : p c = false) (rest : List Char) :
    (run ++ c :: rest).takeWhile p = run := by
  rw [List.takeWhile_append_of_pos hrun, List.takeWhile_cons_of_neg (by simp [hc]),
    List.append_nil]

/-- The rest of a run begins with the first other character. -/
theorem dropWhile_run (hrun : ∀ c ∈ run, p c = true) (hc : p c = false) (rest : List Char) :
    (run ++ c :: rest).dropWhile p = c :: rest := by
  rw [List.dropWhile_append_of_pos hrun, List.dropWhile_cons_of_neg (by simp [hc])]

/-- A run of characters from first to last is split off as a whole. -/
theorem span_run (hrun : ∀ c ∈ run, p c = true) : run.span p = (run, []) := by
  rw [List.span_eq_takeWhile_dropWhile, List.takeWhile_eq_self_iff.mpr hrun,
    List.dropWhile_eq_nil_iff.mpr hrun]

/-- Nothing is skipped in front of a character that is no space. -/
theorem skipSpace_cons (hc : isSpace c = false) (rest : List Char) :
    skipSpace (c :: rest) = c :: rest :=
  List.dropWhile_cons_of_neg (by simp [hc])

/-! ## Natural numbers -/

/-- What holds of the ten digits holds of every character of a number. -/
theorem forall_mem_decimal (h : ∀ d < 10, p (decimalDigit d) = true) (n : Nat) :
    ∀ c ∈ decimal n, p c = true := by
  induction n using Nat.strongRecOn with
  | ind n ih =>
    intro c hc
    rw [decimal] at hc
    split at hc
    next hn =>
      obtain rfl := List.mem_singleton.mp hc
      exact h n hn
    next hn =>
      rcases List.mem_append.mp hc with hfront | hlast
      · exact ih (n / 10) (by omega) c hfront
      · obtain rfl := List.mem_singleton.mp hlast
        exact h (n % 10) (Nat.mod_lt _ (by decide))

/-- A character other than the ten digits does not stand in a number. -/
theorem notMem_decimal (h : ∀ d < 10, (decimalDigit d != c) = true) (n : Nat) :
    c ∉ decimal n := by
  intro hmem
  have hne := forall_mem_decimal (p := (· != c)) h n c hmem
  simp at hne

/-- A number begins with a digit, and with zero only if it is zero. -/
theorem exists_decimal_eq_cons (n : Nat) :
    ∃ c rest, decimal n = c :: rest ∧ (c = '0' → n = 0) := by
  induction n using Nat.strongRecOn with
  | ind n ih =>
    rw [decimal]
    split
    next hn =>
      have hzero : ∀ n < 10, decimalDigit n = '0' → n = 0 := by decide
      exact ⟨_, [], rfl, hzero n hn⟩
    next hn =>
      obtain ⟨c, rest, hdigits, hzero⟩ := ih (n / 10) (by omega)
      refine ⟨c, rest ++ [decimalDigit (n % 10)], by rw [hdigits]; rfl, fun hc => ?_⟩
      have hten := hzero hc
      omega

/-- Nothing separates the digits of a number, and no zero stands in front of them. -/
theorem wholeDigits?_decimal (n : Nat) : wholeDigits? (decimal n) = some (decimal n) := by
  have hzero : ¬((decimal n).head? = some '0' ∧ decimal n ≠ ['0']) := by
    rintro ⟨hhead, hne⟩
    obtain ⟨c, rest, hdigits, hc⟩ := exists_decimal_eq_cons n
    rw [hdigits] at hhead
    obtain rfl := hc (Option.some.inj hhead)
    exact hne (by decide +kernel)
  have hgroups : (decimal n).splitOn '_' = [decimal n] :=
    List.splitOn_eq_singleton (notMem_decimal (by decide) n)
  have hdigits : (decimal n).all (isDigit 10) = true :=
    List.all_eq_true.mpr (forall_mem_decimal (by decide) n)
  rw [wholeDigits?, if_neg hzero, ungroup?, hgroups]
  simp [hdigits, decimal_ne_nil n]

/-! ## Integers -/

/-- What holds of the ten digits and of the minus sign holds of every character of an integer. -/
theorem forall_mem_writeInteger (h : ∀ d < 10, p (decimalDigit d) = true) (hminus : p '-' = true)
    (n : Int) : ∀ c ∈ writeInteger n, p c = true := by
  cases n with
  | ofNat n => exact forall_mem_decimal h n
  | negSucc n =>
    rintro c (_ | ⟨_, hc⟩)
    · exact hminus
    · exact forall_mem_decimal h (n + 1) c hc

/-- Any other character does not stand in an integer. -/
theorem notMem_writeInteger (h : ∀ d < 10, (decimalDigit d != c) = true)
    (hminus : ('-' != c) = true) (n : Int) : c ∉ writeInteger n := by
  intro hmem
  have hne := forall_mem_writeInteger (p := (· != c)) h hminus n c hmem
  simp at hne

/-- A number has no sign. -/
theorem signOf_decimal (n : Nat) : signOf (decimal n) = (false, decimal n) := by
  unfold signOf
  split
  next rest heq =>
    exact absurd (heq ▸ List.mem_cons_self) (notMem_decimal (c := '+') (by decide) n)
  next rest heq =>
    exact absurd (heq ▸ List.mem_cons_self) (notMem_decimal (c := '-') (by decide) n)
  next => rfl

/-- An integer is its sign and the digits of its size. -/
theorem signOf_writeInteger (n : Int) :
    signOf (writeInteger n) = (decide (n < 0), decimal n.natAbs) := by
  cases n with
  | ofNat n => exact signOf_decimal n
  | negSucc n =>
    have hnegative : decide (Int.negSucc n < 0) = true := decide_eq_true (Int.negSucc_lt_zero n)
    rw [hnegative]
    rfl

/-- An integer of 64 bits is read as an integer. -/
theorem integer?_writeInteger {n : Int} (hlow : -(integerLimit : Int) ≤ n)
    (hhigh : n < integerLimit) : integer? (writeInteger n) = some n := by
  have hletter {c : Char} {rest : List Char} (hc : ∀ d < 10, (decimalDigit d != c) = true)
      (hminus : ('-' != c) = true) : writeInteger n ≠ '0' :: c :: rest := by
    intro heq
    exact notMem_writeInteger hc hminus n (heq ▸ List.mem_cons_of_mem _ List.mem_cons_self)
  have hnumber {limit : Nat} (hlimit : n.natAbs < limit) :
      numberBelow? 10 limit (decimal n.natAbs) = some n.natAbs := by
    rw [numberBelow?_eq_filter _ (by decide), number?_decimal]
    simp [Option.filter, hlimit]
  unfold integer?
  simp only
  split
  next heq => exact absurd heq (hletter (by decide) (by decide))
  next heq => exact absurd heq (hletter (by decide) (by decide))
  next heq => exact absurd heq (hletter (by decide) (by decide))
  next =>
    rw [signOf_writeInteger]
    by_cases hnegative : n < 0
    · simp only [hnegative, decide_true, wholeDigits?_decimal,
        hnumber (show n.natAbs < integerLimit + 1 by omega), Option.bind_eq_bind, Option.bind_some,
        if_true]
      exact congrArg some (by omega)
    · simp only [hnegative, decide_false, wholeDigits?_decimal,
        hnumber (show n.natAbs < integerLimit by omega), Option.bind_eq_bind, Option.bind_some]
      exact congrArg some (by omega)

/-! ## What an integer is not -/

/-- An hour and a minute have a colon between them. -/
theorem mem_of_isHourMinute {text : List Char} (h : isHourMinute text = true) : ':' ∈ text := by
  unfold isHourMinute at h
  split at h
  · simp
  · cases h

/-- A date has dashes between its parts. -/
theorem mem_of_isDate {text : List Char} (h : isDate text = true) : '-' ∈ text := by
  unfold isDate at h
  split at h
  · simp
  · cases h

/-- A date does not begin with a dash. -/
theorem isDate_dash (text : List Char) : isDate ('-' :: text) = false := by
  unfold isDate
  split
  next heq =>
    obtain ⟨rfl, -⟩ := List.cons.inj heq
    rfl
  next => rfl

/-- An integer is no date, nor does it begin with one. -/
theorem isDate_take_writeInteger (n : Int) (size : Nat) :
    isDate ((writeInteger n).take (size + 1)) = false := by
  cases n with
  | ofNat n =>
    rw [← Bool.not_eq_true]
    intro h
    exact notMem_decimal (by decide) n (List.mem_of_mem_take (mem_of_isDate h))
  | negSucc n => exact isDate_dash _

/-- An integer is no date. -/
theorem isDate_writeInteger (n : Int) : isDate (writeInteger n) = false := by
  have hwhole := isDate_take_writeInteger n (writeInteger n).length
  rwa [List.take_of_length_le (Nat.le_succ _)] at hwhole

/-- An integer is no date and no time. -/
theorem isDatetime_writeInteger (n : Int) : isDatetime (writeInteger n) = false := by
  have htime : isTime (writeInteger n) = false := by
    rw [← Bool.not_eq_true, isTime, Bool.and_eq_true, Bool.and_eq_true]
    rintro ⟨⟨h, -⟩, -⟩
    exact notMem_writeInteger (by decide) (by decide) n
      (List.mem_of_mem_take (mem_of_isHourMinute h))
  rw [isDatetime, htime, isDate_writeInteger, isDate_take_writeInteger n 9]
  rfl

/-- An integer has no fraction and no exponent. -/
theorem isDecimalFloat_writeInteger (n : Int) : isDecimalFloat (writeInteger n) = false := by
  have hmantissa : (decimal n.natAbs).span (fun c => c != 'e' && c != 'E') =
      (decimal n.natAbs, []) := span_run (forall_mem_decimal (by decide) _)
  have hfront : (decimal n.natAbs).span (· != '.') = (decimal n.natAbs, []) :=
    span_run (forall_mem_decimal (by decide) _)
  rw [isDecimalFloat, signOf_writeInteger]
  simp only [hmantissa, hfront]
  rfl

/-- An integer is not infinity, nor is it no number. -/
theorem isSpecialFloat_writeInteger (n : Int) : isSpecialFloat (writeInteger n) = false := by
  have hletter {text : List Char} (hmem : 'n' ∈ text) : (decimal n.natAbs == text) = false := by
    rw [beq_eq_false_iff_ne]
    rintro rfl
    exact notMem_decimal (by decide) _ hmem
  have hinf : (decimal n.natAbs == ['i', 'n', 'f']) = false := hletter (by decide)
  have hnan : (decimal n.natAbs == ['n', 'a', 'n']) = false := hletter (by decide)
  rw [isSpecialFloat, signOf_writeInteger]
  simp only [hinf, hnan, Bool.or_self]

/-- **An integer of 64 bits is read as an integer and as nothing else.** -/
theorem scalar?_writeInteger {n : Int} (hlow : -(integerLimit : Int) ≤ n)
    (hhigh : n < integerLimit) : scalar? (writeInteger n) = some (.integer n) := by
  have hletter {text : List Char} (hmem : 'e' ∈ text) : writeInteger n ≠ text := by
    rintro rfl
    exact notMem_writeInteger (by decide) (by decide) n hmem
  rw [scalar?, if_neg (hletter (by decide)), if_neg (hletter (by decide)), isDatetime_writeInteger,
    isSpecialFloat_writeInteger, isDecimalFloat_writeInteger, integer?_writeInteger hlow hhigh]
  rfl

/-! ## Characters of keys and numbers -/

/-- A letter, a digit, an underscore or a dash is none of the other characters. -/
theorem ne_of_isBareChar {d : Char} (hc : isBareChar c = true) (hd : isBareChar d = false) :
    c ≠ d := by
  rintro rfl
  exact absurd hc (by simp [hd])

/-- Nor is it a space. -/
theorem isSpace_of_isBareChar (hc : isBareChar c = true) : isSpace c = false := by
  rw [← Bool.not_eq_true, isSpace, Bool.or_eq_true, beq_iff_eq, beq_iff_eq]
  rintro (hspace | htab)
  · exact ne_of_isBareChar hc (by decide) hspace
  · exact ne_of_isBareChar hc (by decide) htab

/-! ## Values -/

/-- The characters are read as the value wherever the line ends behind them. -/
structure Spells (written : List Char) (value : Value) : Prop where
  /-- They are read as the value, and nothing but they. -/
  readValue?_eq : ∀ element rest,
    readValue? element (written ++ '\n' :: rest) = some (value, '\n' :: rest)
  /-- No space stands in front of them. -/
  skipSpace_eq : ∀ rest, skipSpace (written ++ '\n' :: rest) = written ++ '\n' :: rest

/-- Without a quote in front no text in quotes is read on one line. -/
theorem unquoteLine?_of_ne (hdouble : c ≠ '"') (hsingle : c ≠ '\'') (rest : List Char) :
    unquoteLine? (c :: rest) = none := by
  unfold unquoteLine?
  split
  next heq => exact absurd (List.cons.inj heq).1 hdouble
  next heq => exact absurd (List.cons.inj heq).1 hsingle
  next => rfl

/-- Nor is one in any other form. -/
theorem unquote?_of_ne (hdouble : c ≠ '"') (hsingle : c ≠ '\'') (rest : List Char) :
    unquote? (c :: rest) = none := by
  unfold unquote?
  split
  next heq => exact absurd (List.cons.inj heq).1 hdouble
  next heq => exact absurd (List.cons.inj heq).1 hsingle
  next => exact unquoteLine?_of_ne hdouble hsingle rest

/-- What is read from quotes is a text. -/
theorem readValue?_of_unquote? {text behind : List Char}
    (h : unquote? written = some (text, behind)) (element : Option (Reader Value)) :
    readValue? element written = some (.string (String.ofList text), behind) := by
  unfold readValue?
  split
  next rest =>
    rw [unquote?_of_ne (by decide) (by decide)] at h
    cases h
  next rest =>
    rw [unquote?_of_ne (by decide) (by decide)] at h
    cases h
  next => rw [h]

/-- What begins with a letter, a digit, an underscore or a dash is a scalar. -/
theorem readValue?_of_isBareChar (hc : isBareChar c = true) (element : Option (Reader Value))
    (rest : List Char) : readValue? element (c :: rest) = readScalar? (c :: rest) := by
  unfold readValue?
  split
  next heq => exact absurd (List.cons.inj heq).1 (ne_of_isBareChar hc (by decide))
  next heq => exact absurd (List.cons.inj heq).1 (ne_of_isBareChar hc (by decide))
  next =>
    rw [unquote?_of_ne (ne_of_isBareChar hc (by decide)) (ne_of_isBareChar hc (by decide))]

/-- A text in quotes begins with a quote. -/
theorem exists_quote_eq_cons (text : List Char) :
    ∃ c rest, quote text = c :: rest ∧ isSpace c = false := by
  unfold quote
  cases Form.choose text <;> exact ⟨_, _, rfl, by decide⟩

/-- **A text in quotes is read as the text.** -/
theorem spells_quote (text : String) : Spells (quote text.toList) (.string text) where
  readValue?_eq element rest := by
    have hhead {c : Char} (hc : '\n' ≠ c) : ('\n' :: rest).head? ≠ some c :=
      fun heq => hc (Option.some.inj heq)
    have hread := unquote?_quote text.toList (hhead (by decide)) (hhead (by decide))
    rw [readValue?_of_unquote? hread, String.ofList_toList]
  skipSpace_eq rest := by
    obtain ⟨c, behind, hquote, hspace⟩ := exists_quote_eq_cons text.toList
    rw [hquote]
    exact skipSpace_cons hspace _

/-- An integer is a run of its own in front of the end of a line. -/
theorem readScalar?_writeInteger {n : Int} (hlow : -(integerLimit : Int) ≤ n)
    (hhigh : n < integerLimit) (rest : List Char) :
    readScalar? (writeInteger n ++ '\n' :: rest) = some (.integer n, '\n' :: rest) := by
  have hrun : ∀ c ∈ writeInteger n, isScalarChar c = true :=
    forall_mem_writeInteger (by decide) (by decide) n
  unfold readScalar?
  simp only [takeWhile_run hrun (by decide : isScalarChar '\n' = false),
    dropWhile_run hrun (by decide : isScalarChar '\n' = false), isDate_writeInteger,
    scalar?_writeInteger hlow hhigh]
  rfl

/-- An integer begins with a digit or a dash. -/
theorem exists_writeInteger_eq_cons (n : Int) :
    ∃ c rest, writeInteger n = c :: rest ∧ isBareChar c = true := by
  have hbare := forall_mem_writeInteger (p := isBareChar) (by decide) (by decide) n
  have hne : writeInteger n ≠ [] := by
    cases n with
    | ofNat n => exact decimal_ne_nil n
    | negSucc n => exact List.cons_ne_nil _ _
  obtain ⟨c, rest, hdigits⟩ := List.exists_cons_of_ne_nil hne
  exact ⟨c, rest, hdigits, hbare c (hdigits ▸ List.mem_cons_self)⟩

/-- **An integer is read as the integer**, as long as it has 64 bits. -/
theorem spells_writeInteger {n : Int} (hlow : -(integerLimit : Int) ≤ n)
    (hhigh : n < integerLimit) : Spells (writeInteger n) (.integer n) where
  readValue?_eq element rest := by
    have hscalar := readScalar?_writeInteger hlow hhigh rest
    obtain ⟨c, behind, hdigits, hbare⟩ := exists_writeInteger_eq_cons n
    rw [hdigits] at hscalar ⊢
    exact (readValue?_of_isBareChar hbare element _).trans hscalar
  skipSpace_eq rest := by
    obtain ⟨c, behind, hdigits, hbare⟩ := exists_writeInteger_eq_cons n
    rw [hdigits]
    exact skipSpace_cons (isSpace_of_isBareChar hbare) _

/-! ## Keys -/

/-- A key begins with a quote or a character that stands without quotes. -/
def beginsKey (c : Char) : Bool :=
  isBareChar c || c == '"'

/-- What begins a key is none of the other characters. -/
theorem ne_of_beginsKey {d : Char} (hc : beginsKey c = true) (hd : beginsKey d = false) :
    c ≠ d := by
  rintro rfl
  exact absurd hc (by simp [hd])

/-- Nor is it a space. -/
theorem isSpace_of_beginsKey (hc : beginsKey c = true) : isSpace c = false := by
  rw [beginsKey, Bool.or_eq_true, beq_iff_eq] at hc
  rcases hc with hbare | rfl
  · exact isSpace_of_isBareChar hbare
  · rfl

/-- The characters are read as the key wherever a space follows. -/
structure Names (written : List Char) (key : String) : Prop where
  /-- They begin a key. -/
  exists_eq_cons : ∃ c rest, written = c :: rest ∧ beginsKey c = true
  /-- They are read as the key, and nothing but they. -/
  readPart?_eq : ∀ rest, readPart? (written ++ ' ' :: rest) = some (key, ' ' :: rest)

/-- A key without quotes is read up to the first other character. -/
theorem names_of_bare (hne : key.toList ≠ []) (hbare : ∀ c ∈ key.toList, isBareChar c = true) :
    Names key.toList key := by
  obtain ⟨first, behind, hkey⟩ := List.exists_cons_of_ne_nil hne
  have hfirst : isBareChar first = true := hbare first (hkey ▸ List.mem_cons_self)
  refine ⟨⟨first, behind, hkey, by simp [beginsKey, hfirst]⟩, fun rest => ?_⟩
  have hquote : unquoteLine? (key.toList ++ ' ' :: rest) = none := by
    rw [hkey]
    exact unquoteLine?_of_ne (ne_of_isBareChar hfirst (by decide))
      (ne_of_isBareChar hfirst (by decide)) _
  have hspace : isBareChar ' ' = false := by decide
  rw [readPart?, hquote]
  simp only [takeWhile_run hbare hspace, dropWhile_run hbare hspace, List.isEmpty_iff, if_neg hne,
    String.ofList_toList]

/-- A key in quotes is read as the text in the quotes. -/
theorem names_of_quoted (key : String) :
    Names ('"' :: (writeBasic false 0 key.toList ++ ['"'])) key := by
  refine ⟨⟨'"', _, rfl, by decide⟩, fun rest => ?_⟩
  have hread := readBasic?_writeBasic 0 key.toList (' ' :: rest)
  have hquote : unquoteLine? ('"' :: (writeBasic false 0 key.toList ++ ['"']) ++ ' ' :: rest) =
      some (key.toList, ' ' :: rest) := by
    rw [List.cons_append, List.append_assoc]
    exact hread
  rw [readPart?, hquote]
  simp only [String.ofList_toList]

/-- **A key is written in characters that name it**, whatever characters it has. -/
theorem names_writeKey (key : String) : Names (writeKey key.toList) key := by
  unfold writeKey
  split
  next h =>
    rw [Bool.and_eq_true, Bool.not_eq_true', List.isEmpty_eq_false_iff, List.all_eq_true] at h
    exact names_of_bare h.1 h.2
  next => exact names_of_quoted key

/-- No space stands in front of a key. -/
theorem Names.skipSpace_eq (h : Names written key) (rest : List Char) :
    skipSpace (written ++ rest) = written ++ rest := by
  obtain ⟨first, behind, hfirst, hbegins⟩ := h.exists_eq_cons
  rw [hfirst]
  exact skipSpace_cons (isSpace_of_beginsKey hbegins) _

/-- A key is read up to the equals sign. -/
theorem Names.readKey?_eq (h : Names written key) (rest : List Char) :
    readKey? (written ++ ' ' :: '=' :: rest) = some (⟨[], key⟩, '=' :: rest) := by
  have hpart := h.readPart?_eq ('=' :: rest)
  have hspace : skipSpace (' ' :: '=' :: rest) = '=' :: rest := rfl
  have hparts : readParts? maxDepth (written ++ ' ' :: '=' :: rest) =
      some ([key], '=' :: rest) := by
    rw [maxDepth, readParts?, h.skipSpace_eq, hpart]
    simp only [Option.bind_eq_bind, Option.bind_some, hspace]
    rfl
  rw [readKey?, hparts]
  rfl

/-! ## Lines -/

/-- A line that defines a key. -/
structure Line where
  /-- The key. -/
  key : String
  /-- The value. -/
  value : Value
  /-- The characters that the key is written with. -/
  name : List Char
  /-- The characters that the value is written with. -/
  written : List Char
  /-- The characters are read as the key. -/
  names : Names name key
  /-- The characters are read as the value. -/
  spells : Spells written value

namespace Line

/-- The characters of the line, with its end. -/
def text (l : Line) : List Char :=
  l.name ++ [' ', '=', ' '] ++ l.written ++ ['\n']

/-- What the line states. -/
def statement (l : Line) : Statement :=
  .pair ⟨[], l.key⟩ l.value

/-- The key and the value that the line adds to a table. -/
def entry (l : Line) : String × Value :=
  (l.key, l.value)

end Line

/-- No blank begins with what begins a key. -/
theorem skipBlank_of_beginsKey (hc : beginsKey c = true) (rest : List Char) :
    skipBlank false (c :: rest) = c :: rest := by
  have hspace := isSpace_of_beginsKey hc
  have hcomment : c ≠ '#' := ne_of_beginsKey hc (by decide)
  rw [skipBlank]
  · rw [if_neg (by simp [hspace]), if_neg hcomment]
  · exact ne_of_beginsKey hc (by decide)
  · exact fun _ heq => absurd heq (ne_of_beginsKey hc (by decide))

/-- **A line is read as its statement**, up to its end. -/
theorem readStatement?_line (l : Line) (rest : List Char) :
    readStatement? (l.name ++ ' ' :: '=' :: ' ' :: (l.written ++ '\n' :: rest)) =
      some (l.statement, '\n' :: rest) := by
  have hpair : readPair? (valueReader maxDepth)
      (l.name ++ ' ' :: '=' :: ' ' :: (l.written ++ '\n' :: rest)) =
        some ((⟨[], l.key⟩, l.value), '\n' :: rest) := by
    have hspace : skipSpace (' ' :: (l.written ++ '\n' :: rest)) = l.written ++ '\n' :: rest :=
      l.spells.skipSpace_eq rest
    have hvalue : (valueReader maxDepth).read? (l.written ++ '\n' :: rest) =
        some (l.value, '\n' :: rest) := l.spells.readValue?_eq _ rest
    rw [readPair?, l.names.readKey?_eq]
    simp only [Option.bind_eq_bind, Option.bind_some, hspace, hvalue]
    rfl
  obtain ⟨first, behind, hfirst, hbegins⟩ := l.names.exists_eq_cons
  rw [hfirst] at hpair ⊢
  unfold readStatement?
  split
  next heq => exact absurd (List.cons.inj heq).1 (ne_of_beginsKey hbegins (by decide))
  next heq => exact absurd (List.cons.inj heq).1 (ne_of_beginsKey hbegins (by decide))
  next => rw [hpair, Option.map_some, Line.statement]

/-- A statement that is read, and whose line ends, stands in front of those behind it. -/
theorem statements?_of_read {text behind : List Char} {statement : Statement}
    (hblank : skipBlank false (c :: text) = c :: text)
    (hread : readStatement? (c :: text) = some (statement, behind))
    (hend : endLine? behind = some rest) :
    statements? (c :: text) = (statements? rest).map (statement :: ·) := by
  rw [statements?.eq_def]
  split
  next heq => cases hblank.symm.trans heq
  next heq =>
    obtain ⟨rfl, rfl⟩ := List.cons.inj (hblank.symm.trans heq)
    split
    next hnone => cases hnone.symm.trans hread
    next hsome =>
      obtain ⟨rfl, rfl⟩ := Prod.mk.inj (Option.some.inj (hsome.symm.trans hread))
      split
      next hnone => cases hnone.symm.trans hend
      next hsome => rw [Option.some.inj (hsome.symm.trans hend)]

/-- The statement of a line stands in front of those of the lines behind it. -/
theorem statements?_line (l : Line) (rest : List Char) :
    statements? (l.text ++ rest) = (statements? rest).map (l.statement :: ·) := by
  have hread := readStatement?_line l rest
  have htext : l.text ++ rest = l.name ++ ' ' :: '=' :: ' ' :: (l.written ++ '\n' :: rest) := by
    simp [Line.text]
  obtain ⟨first, behind, hfirst, hbegins⟩ := l.names.exists_eq_cons
  rw [hfirst] at hread
  rw [htext, hfirst]
  exact statements?_of_read (skipBlank_of_beginsKey hbegins _) hread rfl

/-- **Lines are read as their statements**, in order. -/
theorem statements?_lines (ls : List Line) :
    statements? (ls.flatMap Line.text) = some (ls.map Line.statement) := by
  induction ls with
  | nil =>
    rw [List.flatMap_nil, statements?]
    rfl
  | cons l ls ih => rw [List.flatMap_cons, statements?_line, ih, Option.map_some, List.map_cons]

/-! ## Documents -/

/-- A line adds its entry to a table that does not have its key. -/
theorem add?_statement {l : Line} {entries : Entries} (h : entries.get? l.key = none) :
    Draft.add? ⟨entries, []⟩ l.statement = some ⟨l.entry :: entries, []⟩ := by
  simp [Draft.add?, Line.statement, Entries.within?, Entries.insert?, Entries.define?, h,
    Line.entry]

/-- A table has a key only where an entry has it. -/
theorem get?_eq_none {entries : Entries} (h : key ∉ entries.map Prod.fst) :
    entries.get? key = none := by
  rw [Entries.get?, List.lookup_eq_none_iff]
  intro entry hentry
  rw [bne_iff_ne]
  rintro rfl
  exact h (List.mem_map_of_mem hentry)

/-- Lines with different keys add their entries to a table that has none of the keys. -/
theorem foldlM_add? {ls : List Line} {entries : Entries}
    (hkeys : (ls.map Line.key).Nodup)
    (hfresh : ∀ l ∈ ls, l.key ∉ entries.map Prod.fst) :
    (ls.map Line.statement).foldlM Draft.add? ⟨entries, []⟩ =
      some ⟨(ls.map Line.entry).reverse ++ entries, []⟩ := by
  induction ls generalizing entries with
  | nil => rfl
  | cons l ls ih =>
    obtain ⟨hfirst, hrest⟩ := List.nodup_cons.mp hkeys
    have hlater : ∀ m ∈ ls, m.key ∉ (l.entry :: entries).map Prod.fst := by
      intro m hm hmem
      rcases List.mem_cons.mp hmem with heq | hold
      · exact hfirst (List.mem_map.mpr ⟨m, hm, heq⟩)
      · exact hfresh m (List.mem_cons_of_mem _ hm) hold
    have hnew := get?_eq_none (hfresh l List.mem_cons_self)
    rw [List.map_cons, List.foldlM_cons, add?_statement hnew]
    simp only [Option.bind_eq_bind, Option.bind_some, ih hrest hlater, List.map_cons,
      List.reverse_cons, List.append_assoc, List.singleton_append]

/-- No key begins with the byte order mark. -/
theorem withoutMark_lines (ls : List Line) :
    withoutMark (ls.flatMap Line.text) = ls.flatMap Line.text := by
  cases ls with
  | nil => rfl
  | cons l ls =>
    obtain ⟨first, behind, hfirst, hbegins⟩ := l.names.exists_eq_cons
    rw [List.flatMap_cons, Line.text, hfirst]
    unfold withoutMark
    split
    next heq => exact absurd (List.cons.inj heq).1 (ne_of_beginsKey hbegins (by decide))
    next => rfl

/-- **A document of lines with different keys is read as their entries**, the latest first. -/
theorem parse?_lines {ls : List Line} (hkeys : (ls.map Line.key).Nodup) :
    parse? (ls.flatMap Line.text) = some (ls.map Line.entry).reverse := by
  rw [parse?, withoutMark_lines, statements?_lines]
  simp only [Option.bind_eq_bind, Option.bind_some, assemble?]
  rw [foldlM_add? hkeys (by simp)]
  simp

/-! ## Tables of texts and integers -/

/-- A text or an integer is written in characters that spell it. -/
theorem exists_writeValue? {value : Value} (h : value.IsPlain) :
    ∃ written, writeValue? value = some written ∧ Spells written value := by
  cases value with
  | string text => exact ⟨_, rfl, spells_quote text⟩
  | integer n => exact ⟨_, if_pos h, spells_writeInteger h.1 h.2⟩
  | float | boolean | datetime | array | table | tables => cases h

/-- Entries of texts and integers are written as lines that add them. -/
theorem exists_lines {entries : Entries} (h : ∀ entry ∈ entries, entry.2.IsPlain) :
    ∃ ls : List Line, entries.mapM writeLine? = some (ls.map Line.text) ∧
      ls.map Line.entry = entries := by
  induction entries with
  | nil => exact ⟨[], rfl, rfl⟩
  | cons entry entries ih =>
    obtain ⟨key, value⟩ := entry
    obtain ⟨ls, hwritten, hentries⟩ :=
      ih fun entry hentry => h entry (List.mem_cons_of_mem _ hentry)
    obtain ⟨written, hvalue, hspells⟩ := exists_writeValue? (h _ List.mem_cons_self)
    let l : Line := ⟨key, value, writeKey key.toList, written, names_writeKey key, hspells⟩
    have hline : writeLine? (key, value) = some l.text := by
      rw [writeLine?, hvalue, Option.map_some]
      rfl
    refine ⟨l :: ls, ?_, ?_⟩
    · rw [List.mapM_cons, hline, hwritten]
      rfl
    · rw [List.map_cons, hentries]
      rfl

/-- **A table of texts and integers is written and read back**, entry for entry. -/
theorem exists_parse?_print? {entries : Entries} (h : entries.IsPlain) :
    ∃ text, print? entries = some text ∧ parse? text = some entries := by
  obtain ⟨ls, hwritten, hentries⟩ :=
    exists_lines fun entry hentry => h.isPlain_of_mem entry (List.mem_reverse.mp hentry)
  have hkeys : (ls.map Line.key).Nodup := by
    have hmap : ls.map Line.key = (entries.map Prod.fst).reverse := by
      rw [← List.map_reverse, ← hentries, List.map_map]
      rfl
    rw [hmap]
    exact (List.reverse_perm _).nodup_iff.mpr h.nodup_keys
  refine ⟨ls.flatMap Line.text, ?_, ?_⟩
  · rw [print?, hwritten, Option.map_some, List.flatMap_def]
  · rw [parse?_lines hkeys, hentries, List.reverse_reverse]

/-- **This format reads back what it writes.** -/
theorem format_readsBack : format.ReadsBack where
  exists_print? h := by
    obtain ⟨written, hwritten, -⟩ := exists_parse?_print? h
    exact ⟨String.ofList written, congrArg (Option.map String.ofList) hwritten⟩
  parse?_of_print? {entries text} h htext := by
    obtain ⟨written, hwritten, hread⟩ := exists_parse?_print? h
    have hlist : String.ofList written = text :=
      Option.some.inj ((congrArg (Option.map String.ofList) hwritten).symm.trans htext)
    refine ⟨entries, ?_, fun key => rfl⟩
    show parse? text.toList = some entries
    rw [← hlist, String.toList_ofList, hread]

end ManagedRegion.Toml
