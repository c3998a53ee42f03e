import ManagedRegion.Text.Digits
import ManagedRegion.Toml.Value

/-!
# Scalars: numbers, booleans, dates and times

A scalar is one run of letters, digits and the signs `+ - . : _`; only a date and a time may have a
space between them. `scalar?` decides what such a run is. Integers have 64 bits, underscores stand
between digits only, and dates and times have to exist in the calendar and on the clock.
-/

namespace ManagedRegion.Toml

open Digits

/-- Whether a character can be part of a scalar. -/
def isScalarChar (c : Char) : Bool :=
  c.isAlphanum || c == '+' || c == '-' || c == '.' || c == ':' || c == '_'

/-! ## Digits and signs -/

/-- Joins groups of digits that single underscores separate; `none` if a group is empty or holds
anything but digits of the base. -/
def ungroup? (base : Nat) (text : List Char) : Option (List Char) :=
  let groups := text.splitOn '_'
  if groups.all fun group => !group.isEmpty && group.all (isDigit base) then some groups.flatten
  else none

/-- Splits a sign off; `true` for minus. -/
def signOf : List Char → Bool × List Char
  | '+' :: rest => (false, rest)
  | '-' :: rest => (true, rest)
  | text => (false, text)

/-- The digits of a whole number in base 10: no zero stands in front of other digits. -/
def wholeDigits? (text : List Char) : Option (List Char) :=
  if text.head? = some '0' ∧ text ≠ ['0'] then none else ungroup? 10 text

/-! ## Integers -/

/-- The integer that a run of characters denotes. -/
def integer? (text : List Char) : Option Int :=
  let based (base : Nat) (rest : List Char) : Option Int := do
    let digits ← ungroup? base rest
    let n ← numberBelow? base integerLimit digits
    return n
  match text with
  | '0' :: 'x' :: rest => based 16 rest
  | '0' :: 'o' :: rest => based 8 rest
  | '0' :: 'b' :: rest => based 2 rest
  | _ => do
    let (negative, rest) := signOf text
    let digits ← wholeDigits? rest
    if negative then
      let n ← numberBelow? 10 (integerLimit + 1) digits
      return -(n : Int)
    else
      let n ← numberBelow? 10 integerLimit digits
      return n

/-! ## Floats -/

/-- The least natural number that is no double any more: the middle between the greatest double and
the next power of two. It has 309 digits. -/
def doubleLimit : Nat := (1 <<< 1024) - (1 <<< 970)

/-- Whether the number of the digits times ten to the power of `exponent` exceeds the greatest
double. Only the digits in front of the point count, since the limit is a whole number; unless they
are as many as those of the limit, their number decides. -/
def overflows (digits : List Char) (exponent : Int) : Bool :=
  let digits := digits.dropWhile (· == '0')
  let size : Int := digits.length + exponent
  if digits.isEmpty || size < 309 then false
  else if 309 < size then true
  else (number? 10 ((digits ++ List.replicate 309 '0').take 309)).any (doubleLimit ≤ ·)

/-- The size of an exponent with the given digits. Once it has reached 65536, no further digit
counts; only numbers with tens of thousands of digits show the difference. -/
def exponentSize (digits : List Char) : Nat :=
  digits.foldl (fun size c => if size < 65536 then 10 * size + (value? c).getD 0 else size) 0

/-- The exponent behind a number, 0 if there is none. -/
def exponent? : List Char → Option Int
  | [] => some 0
  | _ :: text => do
    let (negative, rest) := signOf text
    let size := exponentSize (← ungroup? 10 rest)
    return if negative then -(size : Int) else size

/-- The digits behind the point of a number, none if there is no point. -/
def fraction? : List Char → Option (List Char)
  | [] => some []
  | _ :: text => ungroup? 10 text

/-- Whether a run of characters is a number with a fraction or an exponent. A positive one has to be
in the range of doubles. -/
def isDecimalFloat (text : List Char) : Bool :=
  let (negative, rest) := signOf text
  let (mantissa, exponent) := rest.span fun c => c != 'e' && c != 'E'
  let (front, back) := mantissa.span (· != '.')
  let parts := do
    let front ← wholeDigits? front
    let back ← fraction? back
    let exponent ← exponent? exponent
    return !overflows (front ++ back) (exponent - back.length) || negative
  (!exponent.isEmpty || !back.isEmpty) && parts == some true

/-- Whether a run of characters is infinity or not a number, with or without a sign. -/
def isSpecialFloat (text : List Char) : Bool :=
  let rest := (signOf text).2
  rest == ['i', 'n', 'f'] || rest == ['n', 'a', 'n']

/-! ## Dates and times -/

/-- The number of exactly `width` decimal digits, if it lies between `low` and `high`. -/
def fixed? (width low high : Nat) (text : List Char) : Option Nat :=
  if text.length = width then (number? 10 text).filter fun n => low ≤ n && n ≤ high else none

/-- The number of days of a month. -/
def daysIn (year month : Nat) : Nat :=
  if month = 2 then
    if year % 4 = 0 && (year % 100 != 0 || year % 400 = 0) then 29 else 28
  else if month = 4 || month = 6 || month = 9 || month = 11 then 30
  else 31

/-- Whether a run of characters is a date, as in `1979-05-27`. -/
def isDate : List Char → Bool
  | [y₁, y₂, y₃, y₄, '-', m₁, m₂, '-', d₁, d₂] =>
    let valid := do
      let year ← fixed? 4 0 9999 [y₁, y₂, y₃, y₄]
      let month ← fixed? 2 1 12 [m₁, m₂]
      fixed? 2 1 (daysIn year month) [d₁, d₂]
    valid.isSome
  | _ => false

/-- Whether a run of characters is an hour and a minute, as in `07:32`. -/
def isHourMinute : List Char → Bool
  | [h₁, h₂, ':', m₁, m₂] => (fixed? 2 0 23 [h₁, h₂]).isSome && (fixed? 2 0 59 [m₁, m₂]).isSome
  | _ => false

/-- Whether a run of characters is a second with or without a fraction, as in `00.25`. -/
def isSecond : List Char → Bool
  | [s₁, s₂] => (fixed? 2 0 60 [s₁, s₂]).isSome
  | s₁ :: s₂ :: '.' :: rest =>
    (fixed? 2 0 60 [s₁, s₂]).isSome && !rest.isEmpty && rest.all (isDigit 10)
  | _ => false

/-- Whether a run of characters is a time, as in `07:32:00`. -/
def isTime (text : List Char) : Bool :=
  isHourMinute (text.take 5) && text[5]? == some ':' && isSecond (text.drop 6)

/-- Whether a run of characters is the distance from universal time, if any is given. -/
def isOffset : List Char → Bool
  | [] | ['Z'] | ['z'] => true
  | '+' :: rest | '-' :: rest => isHourMinute rest
  | _ => false

/-- Whether a run of characters is a time with or without an offset. -/
def isOffsetTime (text : List Char) : Bool :=
  let (time, offset) := text.span fun c => isDigit 10 c || c == ':' || c == '.'
  isTime time && isOffset offset

/-- Whether a run of characters is a date, a time, or a date and a time. -/
def isDatetime (text : List Char) : Bool :=
  isTime text || isDate text ||
    (isDate (text.take 10) && (text[10]?.any fun c => c == 'T' || c == 't' || c == ' ') &&
      isOffsetTime (text.drop 11))

/-! ## All scalars -/

/-- The value that a run of characters denotes. -/
def scalar? (text : List Char) : Option Value :=
  if text = ['t', 'r', 'u', 'e'] then some (.boolean true)
  else if text = ['f', 'a', 'l', 's', 'e'] then some (.boolean false)
  else if isDatetime text then some (.datetime (String.ofList text))
  else if isSpecialFloat text || isDecimalFloat text then some (.float (String.ofList text))
  else (integer? text).map .integer

/-- Reads a scalar from the front of a text. If it is a date and a run of characters follows behind
one space, that run is its time. -/
def readScalar? (text : List Char) : Option (Value × List Char) :=
  let run := text.takeWhile isScalarChar
  let rest := text.dropWhile isScalarChar
  let time := (rest.drop 1).takeWhile isScalarChar
  if isDate run ∧ rest.head? = some ' ' ∧ time ≠ [] then
    (scalar? (run ++ ' ' :: time)).map fun value => (value, (rest.drop 1).dropWhile isScalarChar)
  else
    (scalar? run).map fun value => (value, rest)

/-- A scalar leaves no more than there was. -/
theorem length_readScalar? {text rest : List Char} {value : Value}
    (h : readScalar? text = some (value, rest)) : rest.length ≤ text.length := by
  have hrun := (List.dropWhile_suffix isScalarChar (l := text)).length_le
  have htime := (List.dropWhile_suffix isScalarChar
    (l := (text.dropWhile isScalarChar).drop 1)).length_le
  rw [List.length_drop] at htime
  unfold readScalar? at h
  dsimp only at h
  split at h
  · obtain ⟨_, _, hpair⟩ := Option.map_eq_some_iff.mp h
    obtain ⟨-, rfl⟩ := Prod.mk.inj hpair
    omega
  · obtain ⟨_, _, hpair⟩ := Option.map_eq_some_iff.mp h
    obtain ⟨-, rfl⟩ := Prod.mk.inj hpair
    exact hrun

end ManagedRegion.Toml
