import DocShell.Double.Basic
import DocShell.Fields

/-!
# Tables of settings

A settings file is a table: names with values, some of which are tables again.  Its
statements are entries, `server.level = 1`, headers, `[server.log]`, and rows,
`[[server.user]]`.  A header or row holds for the entries behind it, and every row adds
a table to an array of tables.

Every value may be given once only.  What a table still admits depends on how it
came about: a table that a header has opened is not opened again, one that dotted
names have made only grows by dotted names, and one in braces never grows.  Names that
lead into an array of tables lead into its last one.
-/

namespace DocShell

/-- How a table came about. -/
inductive Toml.Origin where
  /-- A header names it. -/
  | header
  /-- A header names a table inside it. -/
  | implied
  /-- A dotted name leads through it. -/
  | dotted
  /-- It is written in braces. -/
  | braces
  deriving DecidableEq, Repr, Inhabited

/-- A value of a settings file. -/
inductive Toml where
  | string (s : String)
  | integer (n : Int)
  /-- A number with a fraction or an exponent; none if no double is near to it. -/
  | float (x : Option Double)
  | boolean (b : Bool)
  /-- A date, a time of day or both, as it is written. -/
  | dateTime (text : String)
  | array (items : List Toml)
  | table (origin : Toml.Origin) (entries : List (String × Toml))
  /-- The tables of rows. -/
  | tables (rows : List (List (String × Toml)))
  deriving Repr, Inhabited

namespace Toml

/-- A statement of a settings file. -/
inductive Statement where
  | header (key : List String)
  | row (key : List String)
  | entry (key : List String) (value : Toml)
  deriving Repr, Inhabited

/-- Changes the last row of an array of tables. -/
def changeLast (change : Fields Toml → Option (Fields Toml)) :
    List (Fields Toml) → Option (List (Fields Toml))
  | [] => none
  | [row] => (change row).map fun row => [row]
  | row :: more => (changeLast change more).map (row :: ·)

/-- Gives a dotted name a value that it does not have yet.  The tables on the way
come from dotted names as well, except that a way may lead on from an implied one and
from a row. -/
def assign : List String → Toml → Fields Toml → Option (Fields Toml)
  | [], _, _ => none
  | [name], value, fields => if fields.contains name then none else some (fields.insert name value)
  | name :: next :: more, value, fields =>
    match fields.get? name with
    | none =>
      (assign (next :: more) value []).map fun inner => fields.insert name (.table .dotted inner)
    | some (.table .dotted inner) =>
      (assign (next :: more) value inner).map fun inner =>
        fields.insert name (.table .dotted inner)
    | some (.table .implied inner) =>
      if more.isEmpty then none
      else
        (assign (next :: more) value inner).map fun inner =>
          fields.insert name (.table .implied inner)
    | some (.tables rows) =>
      if more.isEmpty then none
      else
        (changeLast (assign (next :: more) value) rows).map fun rows =>
          fields.insert name (.tables rows)
    | some _ => none

/-- Changes what the names of a header lead to; the change sees what is there. -/
def reach (change : Option Toml → Option Toml) :
    List String → Fields Toml → Option (Fields Toml)
  | [], _ => none
  | [name], fields => (change (fields.get? name)).map fun value => fields.insert name value
  | name :: more, fields =>
    match fields.get? name with
    | none => (reach change more []).map fun inner => fields.insert name (.table .implied inner)
    | some (.table .braces _) => none
    | some (.table origin inner) =>
      (reach change more inner).map fun inner => fields.insert name (.table origin inner)
    | some (.tables rows) =>
      (changeLast (reach change more) rows).map fun rows => fields.insert name (.tables rows)
    | some _ => none

/-- Opens a table: a new one, or one that is only implied so far. -/
def openTable : Option Toml → Option Toml
  | none => some (.table .header [])
  | some (.table .implied inner) => some (.table .header inner)
  | some _ => none

/-- Adds an empty row. -/
def addRow : Option Toml → Option Toml
  | none => some (.tables [[]])
  | some (.tables rows) => some (.tables (rows ++ [[]]))
  | some _ => none

/-- Changes the table at the end of a way of names. -/
def within (change : Fields Toml → Option (Fields Toml)) :
    List String → Fields Toml → Option (Fields Toml)
  | [], fields => change fields
  | name :: more, fields =>
    match fields.get? name with
    | some (.table origin inner) =>
      (within change more inner).map fun inner => fields.insert name (.table origin inner)
    | some (.tables rows) =>
      (changeLast (within change more) rows).map fun rows => fields.insert name (.tables rows)
    | _ => none

/-- The table that statements make of one, where `current` is the header or row that
holds. -/
def build (current : List String) : List Statement → Fields Toml → Option (Fields Toml)
  | [], fields => some fields
  | .header key :: more, fields =>
    match reach openTable key fields with
    | some fields => build key more fields
    | none => none
  | .row key :: more, fields =>
    match reach addRow key fields with
    | some fields => build key more fields
    | none => none
  | .entry key value :: more, fields =>
    match within (assign key value) current fields with
    | some fields => build current more fields
    | none => none

/-- The table in braces with the given entries. -/
def inBraces (entries : List (List String × Toml)) : Option Toml :=
  (build [] (entries.map fun (key, value) => .entry key value) []).map (.table .braces)

/-! ## Numbers in range -/

/-- The integer fits into 128 bits, with a sign or without. -/
def fits128 (n : Int) : Bool :=
  -170141183460469231731687303715884105728 ≤ n &&
    n ≤ 340282366920938463463374607431768211455

mutual

/-- All numbers in a value are in range: integers fit into 128 bits, and a double is near
to every other number. -/
def isSound : Toml → Bool
  | .integer n => fits128 n
  | .float x => x.isSome
  | .array items => itemsSound items
  | .table _ entries => entriesSound entries
  | .tables rows => rowsSound rows
  | .string _ | .boolean _ | .dateTime _ => true

/-- All numbers in items are in range. -/
def itemsSound : List Toml → Bool
  | [] => true
  | item :: more => isSound item && itemsSound more

/-- All numbers in entries are in range. -/
def entriesSound : List (String × Toml) → Bool
  | [] => true
  | (_, value) :: more => isSound value && entriesSound more

/-- All numbers in rows are in range. -/
def rowsSound : List (List (String × Toml)) → Bool
  | [] => true
  | row :: more => entriesSound row && rowsSound more

end

end Toml

end DocShell
