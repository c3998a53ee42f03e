import ManagedRegion.Toml.Value

/-!
# Formats: how documents are written and read

What keeps its data in documents does not have to know how they are written. It leaves that to a
`Format`, and all that it relies on is that tables of texts and integers are written and then read
back (`Format.ReadsBack`).
-/

namespace ManagedRegion.Toml

/-- A printer and a reader for documents. -/
structure Format where
  /-- The document of a table, if the table can be written. -/
  print? : Entries → Option String
  /-- The table of a document, if the text is one. -/
  parse? : String → Option Entries

/-- The value is a text or an integer of 64 bits. -/
def Value.IsPlain : Value → Prop
  | string _ => True
  | integer n => -(integerLimit : Int) ≤ n ∧ n < integerLimit
  | float _ | boolean _ | datetime _ | array _ | table .. | tables .. => False

/-- A table of texts and integers. -/
structure Entries.IsPlain (entries : Entries) : Prop where
  /-- No key stands twice. -/
  nodup_keys : (entries.map Prod.fst).Nodup
  /-- Each value is a text or an integer. -/
  isPlain_of_mem : ∀ entry ∈ entries, entry.2.IsPlain

/-- **The reader reads back what the printer writes**: every table of texts and integers is written,
and its document is read as a table with the same values under the same keys. -/
structure Format.ReadsBack (format : Format) : Prop where
  /-- There is a document. -/
  exists_print? : ∀ {entries : Entries}, entries.IsPlain →
    ∃ text, format.print? entries = some text
  /-- It is read back. -/
  parse?_of_print? : ∀ {entries : Entries} {text : String}, entries.IsPlain →
    format.print? entries = some text →
    ∃ read, format.parse? text = some read ∧ ∀ key, read.get? key = entries.get? key

end ManagedRegion.Toml
