import ManagedRegion.Text.Digits

/-!
# Quoted text: the four forms, and how text is written

Text stands in double quotes (basic) or single quotes (literal), each on one line or, with the
quotes tripled, on several. A basic form knows escapes; a literal form takes every character as it
is. `Form.choose` picks the form in which a text is written, and `quote` writes it.
-/

namespace ManagedRegion.Toml

open Digits

/-- The form in which text is quoted. -/
inductive Form where
  /-- Double quotes, one line. -/
  | basic
  /-- Single quotes, one line. -/
  | literal
  /-- Three double quotes, any number of lines. -/
  | basicLines
  /-- Three single quotes, any number of lines. -/
  | literalLines
  deriving DecidableEq

/-! ## Writing -/

/-- The length of the longest run of a character, `count` of which stand right before the text. -/
def longestRunFrom (c : Char) : (count : Nat) → List Char → Nat
  | count, [] => count
  | count, d :: rest =>
    if d = c then longestRunFrom c (count + 1) rest else max count (longestRunFrom c 0 rest)

/-- The length of the longest run of a character. -/
def longestRun (c : Char) (text : List Char) : Nat :=
  longestRunFrom c 0 text

/-- Whether a character can only be written as an escape: a control character other than tab and
line feed. -/
def needsEscape (c : Char) : Bool :=
  (c < ' ' && c != '\t' && c != '\n') || c == '\x7F'

/-- The form in which a text is written: the first that needs no escape, or else a basic form. -/
def Form.choose (text : List Char) : Form :=
  let escapes := text.any needsEscape
  let backslash := text.contains '\\'
  let lines := text.contains '\n'
  let singles := longestRun '\'' text
  let doubles := longestRun '"' text
  if !escapes && !backslash && doubles = 0 && !lines then .basic
  else if !escapes && singles = 0 && !lines then .literal
  else if !escapes && !backslash && doubles ≤ 2 then .basicLines
  else if !escapes && singles ≤ 2 then .literalLines
  else if lines then .basicLines
  else .basic

/-- The quotes on either side of a text. -/
def Form.delimiter : Form → List Char
  | basic => ['"']
  | literal => ['\'']
  | basicLines => ['"', '"', '"']
  | literalLines => ['\'', '\'', '\'']

/-- Whether a form has room for several lines. -/
def Form.hasLines : Form → Bool
  | basic | literal => false
  | basicLines | literalLines => true

/-- One character of a basic form, quotes not counted. A line feed stays as it is where the form has
room for several lines. -/
def writeChar (lines : Bool) (c : Char) : List Char :=
  if c = '\x08' then ['\\', 'b']
  else if c = '\t' then ['\\', 't']
  else if c = '\n' then if lines then ['\n'] else ['\\', 'n']
  else if c = '\x0C' then ['\\', 'f']
  else if c = '\r' then ['\\', 'r']
  else if c = '\\' then ['\\', '\\']
  else if needsEscape c then
    ['\\', 'u', '0', '0', upperHex (c.toNat / 16), upperHex (c.toNat % 16)]
  else [c]

/-- The text of a basic form, `quotes` quotes behind others. Where the form has room for several
lines, up to two quotes in a row stay as they are. -/
def writeBasic (lines : Bool) : (quotes : Nat) → List Char → List Char
  | _, [] => []
  | quotes, c :: rest =>
    if c = '"' then
      if lines ∧ quotes < 2 then '"' :: writeBasic lines (quotes + 1) rest
      else '\\' :: '"' :: writeBasic lines 0 rest
    else writeChar lines c ++ writeBasic lines 0 rest

/-- The text between the quotes of a form. -/
def Form.body (form : Form) (text : List Char) : List Char :=
  match form with
  | basic | basicLines => writeBasic form.hasLines 0 text
  | literal | literalLines => text

/-- A text in quotes. A text of several lines begins on a line of its own. -/
def quote (text : List Char) : List Char :=
  let form := Form.choose text
  let first := if form.hasLines && text.contains '\n' then ['\n'] else []
  form.delimiter ++ first ++ form.body text ++ form.delimiter

end ManagedRegion.Toml
