/-!
# Digits: numbers as text in a base

`Digits.value?` is what a digit stands for, `Digits.number?` what a run of digits stands for in a
base of at most 16, and `Digits.decimal` writes a number in base 10. Reading what was written gives
the number back (`number?_decimal`). `Digits.numberBelow?` reads a number that has a bound and never
computes with a greater one; it is `number?` with the bound asked for afterwards
(`numberBelow?_eq_filter`). `Digits.lowerHex` and `Digits.upperHex` are single digits in base 16.
-/

namespace ManagedRegion.Digits

/-- What a digit stands for in a base of at most 16, in either case of letter. -/
def value? (c : Char) : Option Nat :=
  if '0' ≤ c ∧ c ≤ '9' then some (c.toNat - 48)
  else if 'a' ≤ c ∧ c ≤ 'f' then some (c.toNat - 87)
  else if 'A' ≤ c ∧ c ≤ 'F' then some (c.toNat - 55)
  else none

/-- Whether a character is a digit of the base. -/
def isDigit (base : Nat) (c : Char) : Bool :=
  match value? c with
  | some d => d < base
  | none => false

/-- The number that a run of digits stands for, read on from `acc`. -/
def numberFrom? (base : Nat) : (acc : Nat) → List Char → Option Nat
  | acc, [] => some acc
  | acc, c :: rest =>
    match value? c with
    | some d => if d < base then numberFrom? base (acc * base + d) rest else none
    | none => none

/-- The number that a run of digits stands for; an empty run stands for none. -/
def number? (base : Nat) (digits : List Char) : Option Nat :=
  if digits.isEmpty then none else numberFrom? base 0 digits

/-- The number below `limit` that a run of digits stands for, read on from `acc`. -/
def belowFrom? (base limit : Nat) : (acc : Nat) → List Char → Option Nat
  | acc, [] => some acc
  | acc, c :: rest =>
    match value? c with
    | some d =>
      if d < base ∧ acc * base + d < limit then belowFrom? base limit (acc * base + d) rest
      else none
    | none => none

/-- The number that a run of digits stands for, if it is below `limit`. -/
def numberBelow? (base limit : Nat) (digits : List Char) : Option Nat :=
  if digits.isEmpty ∨ limit = 0 then none else belowFrom? base limit 0 digits

/-- The decimal digit of a number below 10. -/
def decimalDigit (n : Nat) : Char :=
  Char.ofNat (48 + n)

/-- A number in decimal digits, without leading zeros. -/
def decimal (n : Nat) : List Char :=
  if n < 10 then [decimalDigit n] else decimal (n / 10) ++ [decimalDigit (n % 10)]

/-- The hexadecimal digit of a number below 16, with a lower-case letter. -/
def lowerHex (n : Nat) : Char :=
  if n < 10 then Char.ofNat (48 + n) else Char.ofNat (87 + n)

/-- The hexadecimal digit of a number below 16, with an upper-case letter. -/
def upperHex (n : Nat) : Char :=
  if n < 10 then Char.ofNat (48 + n) else Char.ofNat (55 + n)

/-! ## Reading what was written -/

/-- A decimal digit stands for the number that it was written for. -/
theorem value?_decimalDigit {n : Nat} (h : n < 10) : value? (decimalDigit n) = some n := by
  have hall : ∀ d < 10, value? (decimalDigit d) = some d := by decide
  exact hall n h

/-- A run is read digit by digit. -/
theorem numberFrom?_append (base : Nat) (front back : List Char) (acc : Nat) :
    numberFrom? base acc (front ++ back) =
      (numberFrom? base acc front).bind fun n => numberFrom? base n back := by
  induction front generalizing acc with
  | nil => rfl
  | cons c rest ih =>
    simp only [List.cons_append, numberFrom?]
    split
    · split
      · exact ih _
      · rfl
    · rfl

/-- A number that was written from nothing is read from nothing. -/
theorem numberFrom?_decimal (n : Nat) : numberFrom? 10 0 (decimal n) = some n := by
  induction n using Nat.strongRecOn with
  | ind n ih =>
    rw [decimal]
    split
    next hn => simp [numberFrom?, value?_decimalDigit hn, hn]
    next hn =>
      have hdigit : n % 10 < 10 := Nat.mod_lt _ (by decide)
      rw [numberFrom?_append, ih (n / 10) (by omega)]
      simp only [Option.bind_some, numberFrom?, value?_decimalDigit hdigit, hdigit, if_true]
      congr 1
      omega

/-- Something is written for every number. -/
theorem decimal_ne_nil (n : Nat) : decimal n ≠ [] := by
  rw [decimal]
  split <;> simp

/-- The number is read back. -/
theorem number?_decimal (n : Nat) : number? 10 (decimal n) = some n := by
  have hne := decimal_ne_nil n
  simp [number?, List.isEmpty_iff, hne, numberFrom?_decimal]

/-! ## Numbers with a bound -/

/-- Reading on never makes a number smaller. -/
theorem le_of_numberFrom? {base acc n : Nat} {digits : List Char} (hbase : 0 < base)
    (h : numberFrom? base acc digits = some n) : acc ≤ n := by
  induction digits generalizing acc with
  | nil => exact Nat.le_of_eq (Option.some.inj h)
  | cons c rest ih =>
    simp only [numberFrom?] at h
    split at h
    · split at h
      · have hacc : acc ≤ acc * base := Nat.le_mul_of_pos_right acc hbase
        have hrest := ih h
        omega
      · simp at h
    · simp at h

/-- Reading on below a bound is reading on and asking for the bound afterwards. -/
theorem belowFrom?_eq_filter {base limit acc : Nat} (digits : List Char) (hbase : 0 < base)
    (hacc : acc < limit) :
    belowFrom? base limit acc digits = (numberFrom? base acc digits).filter (· < limit) := by
  induction digits generalizing acc with
  | nil => simp [belowFrom?, numberFrom?, Option.filter, hacc]
  | cons c rest ih =>
    simp only [belowFrom?, numberFrom?]
    split
    next d _ =>
      by_cases hd : d < base
      · by_cases hlimit : acc * base + d < limit
        · simp only [hd, hlimit, and_self, if_true]
          exact ih hlimit
        · simp only [hd, hlimit, and_false, if_false, if_true]
          symm
          rw [Option.filter_eq_none_iff]
          intro n hn
          have := le_of_numberFrom? hbase hn
          simp only [decide_eq_true_eq]
          omega
      · simp [hd]
    next => rfl

/-- A number with a bound is a number for which the bound is asked for afterwards. -/
theorem numberBelow?_eq_filter {base limit : Nat} (digits : List Char) (hbase : 0 < base) :
    numberBelow? base limit digits = (number? base digits).filter (· < limit) := by
  by_cases hlimit : limit = 0
  · subst hlimit
    cases number? base digits <;> simp [numberBelow?, Option.filter]
  · unfold numberBelow? number?
    by_cases hempty : digits.isEmpty
    · simp [hempty]
    · simp only [hempty, hlimit, or_self, if_false, Bool.false_eq_true]
      exact belowFrom?_eq_filter digits hbase (Nat.pos_of_ne_zero hlimit)

end ManagedRegion.Digits
