/-!
# Values: what a document says

A document is a table of keys and values. A table remembers how it came about, since that decides
which later lines may add to it: `Entries.insert?` follows a dotted key, and `Entries.openTable?`
and `Entries.openElement?` follow the header of a table. All of them refuse to define anything
twice.
-/

namespace ManagedRegion.Toml

/-- How a table came about. -/
inductive Origin where
  /-- It is written in braces; nothing can be added to it. -/
  | braces
  /-- It has a header of its own. -/
  | header
  /-- It is on the way to a table that has a header, and may still get one of its own. -/
  | implied
  /-- It is on the way of a dotted key. -/
  | dotted
  deriving DecidableEq

/-- A value. -/
inductive Value where
  /-- Text. -/
  | string (text : String)
  /-- A whole number. -/
  | integer (number : Int)
  /-- A number with a fraction or an exponent, infinity or not a number, as it is written. -/
  | float (text : String)
  /-- True or false. -/
  | boolean (value : Bool)
  /-- A date, a time or both, as it is written. -/
  | datetime (text : String)
  /-- Values in square brackets. -/
  | array (values : List Value)
  /-- A table. -/
  | table (origin : Origin) (entries : List (String × Value))
  /-- Tables under one header in double brackets: the last one, and those before it, last to
  first. -/
  | tables (last : List (String × Value)) (earlier : List (List (String × Value)))

/-- The least natural number that is too great for a document: integers have 64 bits. -/
def integerLimit : Nat := 1 <<< 63

/-- The keys and values of a table, the latest first. -/
abbrev Entries := List (String × Value)

namespace Entries

/-- The value of a key. -/
def get? (entries : Entries) (key : String) : Option Value :=
  entries.lookup key

/-- Gives another value to a key that has one. -/
def replace (key : String) (value : Value) : Entries → Entries
  | [] => []
  | (k, old) :: rest => if k = key then (key, value) :: rest else (k, old) :: replace key value rest

/-- Defines a key that has no value. -/
def define? (entries : Entries) (key : String) (value : Value) : Option Entries :=
  match entries.get? key with
  | none => some ((key, value) :: entries)
  | some _ => none

/-- Defines a dotted key: `parents` are the parts before the last one. The table that gets the value
has to have come about by dotted keys only. Further up, the way may lead through tables that are on
the way to a header, and through the last of several tables. -/
def insert? (key : String) (value : Value) : (parents : List String) → Entries → Option Entries
  | [], entries => entries.define? key value
  | parent :: parents, entries =>
    let isLast := parents.isEmpty
    match entries.get? parent with
    | none => do
      let inner ← insert? key value parents []
      entries.define? parent (.table .dotted inner)
    | some (.table .dotted old) => do
      let inner ← insert? key value parents old
      return replace parent (.table .dotted inner) entries
    | some (.table .implied old) =>
      if isLast then none else do
        let inner ← insert? key value parents old
        return replace parent (.table .implied inner) entries
    | some (.tables old earlier) =>
      if isLast then none else do
        let inner ← insert? key value parents old
        return replace parent (.tables inner earlier) entries
    | some _ => none

/-- Changes the table that a path leads to, along tables and the last of several tables. Tables that
are missing on the way are made. -/
def within? (change : Entries → Option Entries) : (path : List String) → Entries → Option Entries
  | [], entries => change entries
  | key :: path, entries =>
    match entries.get? key with
    | none => do
      let inner ← within? change path []
      entries.define? key (.table .implied inner)
    | some (.table .braces _) => none
    | some (.table origin old) => do
      let inner ← within? change path old
      return replace key (.table origin inner) entries
    | some (.tables old earlier) => do
      let inner ← within? change path old
      return replace key (.tables inner earlier) entries
    | some _ => none

/-- Follows the header of a table. The table is new, or was only on the way to another one. -/
def openTable? (key : String) (entries : Entries) : Option Entries :=
  match entries.get? key with
  | none => entries.define? key (.table .header [])
  | some (.table .implied old) => some (replace key (.table .header old) entries)
  | some _ => none

/-- Follows a header in double brackets: one more table under this header. -/
def openElement? (key : String) (entries : Entries) : Option Entries :=
  match entries.get? key with
  | none => entries.define? key (.tables [] [])
  | some (.tables last earlier) => some (replace key (.tables [] (last :: earlier)) entries)
  | some _ => none

end Entries

end ManagedRegion.Toml
