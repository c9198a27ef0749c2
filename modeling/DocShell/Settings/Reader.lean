import DocShell.Settings.Basic
import DocShell.Toml.Reader

/-!
# Settings from a file

A settings file has the tables `connection`, `console`, `display` and `logging`.  What
it does not mention keeps its default, and names that mean nothing here are passed
over, as long as the numbers under them are in range.  A value of the wrong type or out
of range makes the whole file invalid.

An array in the place of one of the tables lists its values in order, and a table
with the name of a choice and nothing in it is as good as the name.
-/

namespace DocShell.Settings

/-- The reading of one value, by name. -/
abbrev Reading (α : Type) : Type :=
  Toml → Except SettingsFailure α

/-- The failure of a value that is not of the form it should have. -/
def wrongForm {α : Type} (expected : String) : Except SettingsFailure α :=
  .error (.invalidFormat s!"expected {expected}")

/-- A string. -/
def readString : Reading String
  | .string s => .ok s
  | _ => wrongForm "a string"

/-- A boolean. -/
def readBool : Reading Bool
  | .boolean b => .ok b
  | _ => wrongForm "a boolean"

/-- A natural number below a bound. -/
def readNat (bound : Nat) : Reading Nat
  | .integer n => if 0 ≤ n ∧ n < bound then .ok n.toNat else wrongForm s!"a number below {bound}"
  | _ => wrongForm "an integer"

/-- The name of a choice. -/
def choice? : Toml → Option String
  | .string s => some s
  | .table _ [(name, .table _ [])] => some name
  | .table _ [(name, .array [])] => some name
  | _ => none

/-- One of several choices, by its exact name. -/
def readChoice {α : Type} (ofName? : String → Option α) : Reading α := fun value =>
  match (choice? value).bind ofName? with
  | some a => .ok a
  | none => wrongForm "the name of a choice"

/-- The value of a name, or what holds if it is not mentioned. -/
def readField {α : Type} (fields : Fields Toml) (name : String) (default : α)
    (read : Reading α) : Except SettingsFailure α :=
  match fields.get? name with
  | some value => read value
  | none => .ok default

/-- The entries of a table in which `names` have a meaning; the numbers under all other
names have to be in range. -/
def readEntries (names : List String) (entries : Fields Toml) :
    Except SettingsFailure (Fields Toml) :=
  if Toml.entriesSound (entries.filter fun entry => !names.contains entry.1) then
    .ok entries
  else
    wrongForm "a number in range"

/-- The values of a section by name, where `names` gives the order in which an array
lists them.  A date gives none. -/
def readSection (names : List String) : Reading (Fields Toml)
  | .table _ entries => readEntries names entries
  | .array items => .ok (names.zip items)
  | .tables rows => .ok (names.zip (rows.map (.table .header)))
  | .dateTime _ => .ok []
  | _ => wrongForm "a table"

/-- The section `connection`. -/
def readConnection (value : Toml) : Except SettingsFailure ConnectionSettings := do
  let fields ← readSection
    ["uri", "timeout", "max_pool_size", "min_pool_size", "idle_timeout", "app_name"] value
  let default : ConnectionSettings := {}
  return {
    uri := ← readField fields "uri" default.uri readString
    timeout := ← readField fields "timeout" default.timeout (readNat (Nat.pow 2 64))
    maxPoolSize := ← readField fields "max_pool_size" default.maxPoolSize (readNat (Nat.pow 2 32))
    minPoolSize := ← readField fields "min_pool_size" default.minPoolSize (readNat (Nat.pow 2 32))
    idleTimeout := ← readField fields "idle_timeout" default.idleTimeout (readNat (Nat.pow 2 64))
    appName := ← readField fields "app_name" default.appName readString }

/-- The section `console`. -/
def readConsole (value : Toml) : Except SettingsFailure ConsoleSettings := do
  let fields ← readSection ["read_only", "default_database"] value
  let default : ConsoleSettings := {}
  return {
    readOnly := ← readField fields "read_only" default.readOnly readBool
    defaultDatabase := ← readField fields "default_database" default.defaultDatabase
      fun value => (readString value).map some }

/-- The section `display`. -/
def readDisplay (value : Toml) : Except SettingsFailure DisplaySettings := do
  let fields ← readSection ["format", "color_output"] value
  let default : DisplaySettings := {}
  return {
    format := ← readField fields "format" default.format (readChoice OutputFormat.ofName?)
    colorOutput := ← readField fields "color_output" default.colorOutput readBool }

/-- The section `logging`. -/
def readLogging (value : Toml) : Except SettingsFailure LoggingSettings := do
  let fields ← readSection ["level", "timestamps"] value
  let default : LoggingSettings := {}
  return {
    level := ← readField fields "level" default.level (readChoice LogLevel.ofName?)
    timestamps := ← readField fields "timestamps" default.timestamps readBool }

/-- All sections of a file. -/
def readFields (fields : Fields Toml) : Except SettingsFailure Settings := do
  let fields ← readEntries ["connection", "console", "display", "logging"] fields
  return {
    connection := ← readField fields "connection" {} readConnection
    console := ← readField fields "console" {} readConsole
    display := ← readField fields "display" {} readDisplay
    logging := ← readField fields "logging" {} readLogging }

/-- The settings that a file holds.  The failure says what is wrong with it, and leaves out where
in the text that is. -/
def ofText (text : String) : Except SettingsFailure Settings :=
  match Toml.read? text.toList with
  | some fields => readFields fields
  | none => .error (.invalidFormat "bad syntax")

end DocShell.Settings
