import ManagedRegion.Text.Digits

/-!
# JSON: values and their text on several lines

Reports are JSON values. `Json.pretty` writes a value with two spaces of indentation a level; an
array or object without content stays on one line. In texts only quotes, backslashes and control
characters are escaped.
-/

namespace ManagedRegion

/-- A JSON value. -/
inductive Json where
  /-- Nothing. -/
  | null
  /-- A natural number. -/
  | number (n : Nat)
  /-- A text. -/
  | string (text : String)
  /-- Values in order. -/
  | array (values : List Json)
  /-- Names and values, in the order in which they are written. -/
  | object (fields : List (String × Json))

namespace Json

/-- A value that may be missing. -/
def ofOption {α : Type} (f : α → Json) : Option α → Json
  | some a => f a
  | none => null

/-- The value of an unsigned number of 8 bits. -/
def ofUInt8 (n : UInt8) : Json := number n.toNat

/-- The value of an unsigned number of 16 bits. -/
def ofUInt16 (n : UInt16) : Json := number n.toNat

/-- The value of an unsigned number of 32 bits. -/
def ofUInt32 (n : UInt32) : Json := number n.toNat

/-- The value of an unsigned number of 64 bits. -/
def ofUInt64 (n : UInt64) : Json := number n.toNat

/-! ## Texts -/

/-- One character of a text: escaped if it is a quote, a backslash or a control character below the
space. -/
def escape (c : Char) : List Char :=
  if c = '"' then ['\\', '"']
  else if c = '\\' then ['\\', '\\']
  else if c = '\x08' then ['\\', 'b']
  else if c = '\x0C' then ['\\', 'f']
  else if c = '\n' then ['\\', 'n']
  else if c = '\r' then ['\\', 'r']
  else if c = '\t' then ['\\', 't']
  else if c < ' ' then
    ['\\', 'u', '0', '0', Digits.lowerHex (c.toNat / 16), Digits.lowerHex (c.toNat % 16)]
  else [c]

/-- A text in quotes. -/
def quote (text : String) : String :=
  "\"" ++ String.ofList (text.toList.flatMap escape) ++ "\""

/-! ## Values on several lines -/

/-- The end of a line and the indentation of the next one. -/
def newLine (level : Nat) : String :=
  "\n" ++ String.ofList (List.replicate (2 * level) ' ')

mutual

/-- The text of a value whose first line is indented by `level` levels. -/
def prettyAt (level : Nat) : Json → String
  | null => "null"
  | number n => toString n
  | string text => quote text
  | array [] => "[]"
  | array (value :: rest) =>
    "[" ++ newLine (level + 1) ++ prettyAt (level + 1) value ++ prettyRest (level + 1) rest ++
      newLine level ++ "]"
  | object [] => "\x7b\x7d"
  | object ((name, value) :: rest) =>
    "\x7b" ++ newLine (level + 1) ++ quote name ++ ": " ++ prettyAt (level + 1) value ++
      prettyFields (level + 1) rest ++ newLine level ++ "\x7d"

/-- The text of the values that follow the first one of an array. -/
def prettyRest (level : Nat) : List Json → String
  | [] => ""
  | value :: rest => "," ++ newLine level ++ prettyAt level value ++ prettyRest level rest

/-- The text of the fields that follow the first one of an object. -/
def prettyFields (level : Nat) : List (String × Json) → String
  | [] => ""
  | (name, value) :: rest =>
    "," ++ newLine level ++ quote name ++ ": " ++ prettyAt level value ++ prettyFields level rest

end

/-- The text of a value on several lines. -/
def pretty (value : Json) : String :=
  prettyAt 0 value

end Json

end ManagedRegion
