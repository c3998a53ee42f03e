import ManagedRegion.Settings
import ManagedRegion.Toml.Document

/-!
# Documents: the settings of the program

The settings leave open how documents are written and read. Those of the program stand in documents
in TOML.
-/

namespace ManagedRegion.Settings

/-- Reads settings from a document. -/
def ofDocument (text : String) : Except Failure Settings :=
  parse Toml.format text

/-- Reads settings from a file. -/
def ofFile (content : Image.FileContent) : Except Failure Settings :=
  load Toml.format content

/-- The document of the settings; `none` if the delay is more than a document can hold. -/
def document? (s : Settings) : Option String :=
  s.print? Toml.format

end ManagedRegion.Settings
