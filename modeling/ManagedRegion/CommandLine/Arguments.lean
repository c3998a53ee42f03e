import ManagedRegion.Text.Digits

/-!
# Arguments: what a command line asks for

A command line is made of options, then a command, then the options of the command. Every option has
a value, attached to it or in the next argument, and may be given once. `Invocation.parse?` reads
the arguments; a command line that it does not understand is rejected as a whole.
-/

namespace ManagedRegion.CommandLine

/-- What is to be reported. -/
inductive Command where
  /-- The directory and the metadata of its regions. -/
  | status
  /-- The structures of one type. -/
  | list (type : UInt8)
  /-- The summary of the table. -/
  | inventory
  /-- The memory devices. -/
  | memory
  deriving DecidableEq

/-- What a command line asks for. -/
structure Invocation where
  /-- The file that holds the settings. -/
  config : Option String
  /-- The store, in place of the one in the settings. -/
  store : Option String
  /-- The delay in milliseconds, in place of the one in the settings. -/
  debounce : Option Nat
  /-- What is to be reported. -/
  command : Command
  deriving DecidableEq

/-! ## Arguments one by one -/

/-- An argument by its form. -/
inductive Argument where
  /-- A long option, with the value behind its equals sign. -/
  | long (name : List Char) (value : Option (List Char))
  /-- A short option, with the value attached to it. -/
  | short (letter : Char) (value : Option (List Char))
  /-- Two dashes alone: no options follow. -/
  | endOfOptions
  /-- Anything else. -/
  | word (text : List Char)

/-- The form of an argument. -/
def Argument.ofText : List Char → Argument
  | ['-', '-'] => endOfOptions
  | '-' :: '-' :: rest =>
    let (name, value) := rest.span (· != '=')
    long name (if value.isEmpty then none else some (value.drop 1))
  | '-' :: letter :: rest =>
    match rest with
    | [] => short letter none
    | '=' :: value => short letter (some value)
    | value => short letter (some value)
  | text => word text

/-! ## Options -/

/-- The options that there are. -/
inductive OptionName where
  /-- The file that holds the settings. -/
  | config
  /-- The store. -/
  | store
  /-- The delay. -/
  | debounce
  /-- The type of structures. -/
  | type
  deriving DecidableEq

/-- The long name of an option. -/
def OptionName.long : OptionName → String
  | config => "config"
  | store => "store"
  | debounce => "debounce-ms"
  | type => "type"

/-- The letter of an option, if it has one. -/
def OptionName.letter? : OptionName → Option Char
  | config => some 'c'
  | store => some 's'
  | debounce => none
  | type => some 't'

/-- The option that an argument names, with the value attached to it. -/
def option? (known : List OptionName) : Argument → Option (OptionName × Option (List Char))
  | .long name value =>
    (known.find? fun option => option.long.toList == name).map fun option => (option, value)
  | .short letter value =>
    (known.find? fun option => option.letter? == some letter).map fun option => (option, value)
  | .endOfOptions | .word _ => none

/-- Options and their values. -/
abbrev Options := List (OptionName × List Char)

/-- Reads options from the front of the arguments, up to a word, two dashes, or the end. A value
that is not attached to its option is the next argument, which must be a word. -/
def readOptions? (known : List OptionName) : List (List Char) → Option (Options × List (List Char))
  | [] => some ([], [])
  | argument :: rest =>
    match Argument.ofText argument with
    | .word _ | .endOfOptions => some ([], argument :: rest)
    | form =>
      match option? known form with
      | none => none
      | some (option, some value) =>
        (readOptions? known rest).map fun (options, rest) => ((option, value) :: options, rest)
      | some (option, none) =>
        match rest with
        | [] => none
        | value :: rest =>
          match Argument.ofText value with
          | .word value =>
            (readOptions? known rest).map fun (options, rest) => ((option, value) :: options, rest)
          | _ => none

/-- Whether no option is given twice. -/
def areDistinct (options : Options) : Bool :=
  (options.map (·.1)).Nodup

/-! ## Values -/

/-- A path; it must not be empty. -/
def path? (text : List Char) : Option String :=
  if text.isEmpty then none else some (String.ofList text)

/-- A natural number of at most 64 bits, which a plus sign may precede. -/
def count? (text : List Char) : Option Nat :=
  let digits := match text with
    | '+' :: rest => rest
    | text => text
  Digits.numberBelow? 10 UInt64.size digits

/-- The type of structures: a whole number, with or without a sign, that fits a byte. -/
def type? (text : List Char) : Option UInt8 :=
  let magnitude (limit : Nat) (digits : List Char) : Option UInt8 :=
    (Digits.numberBelow? 10 limit digits).map UInt8.ofNat
  match text with
  | '-' :: rest => magnitude 1 rest
  | '+' :: rest => magnitude 256 rest
  | text => magnitude 256 text

/-- The value of an option that may be missing: `none` if it is there and cannot be read. -/
def optional? {α : Type} (options : Options) (name : OptionName) (read : List Char → Option α) :
    Option (Option α) :=
  match options.lookup name with
  | none => some none
  | some text => (read text).map some

/-! ## Command lines -/

/-- The command of the given name, with its arguments. -/
def command? (name : List Char) (arguments : List (List Char)) : Option Command := do
  let known : List OptionName := if name = "list".toList then [.type] else []
  let (options, rest) ← readOptions? known arguments
  if !(rest.isEmpty || rest == [['-', '-']]) || !areDistinct options then none else
  if name = "status".toList then return .status
  else if name = "inventory".toList then return .inventory
  else if name = "memory".toList then return .memory
  else if name = "list".toList then
    let text ← options.lookup .type
    return .list (← type? text)
  else none

/-- What the arguments ask for; `none` if they are no command line. -/
def Invocation.parse? (arguments : List String) : Option Invocation := do
  let (options, rest) ← readOptions? [.config, .store, .debounce] (arguments.map String.toList)
  if !areDistinct options then none else
  let config ← optional? options .config path?
  let store ← optional? options .store path?
  let debounce ← optional? options .debounce count?
  match rest with
  | [] => none
  | name :: arguments => return ⟨config, store, debounce, ← command? name arguments⟩

end ManagedRegion.CommandLine
