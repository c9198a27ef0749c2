import DocShell.Double.Basic
import DocShell.Fields
import DocShell.Text.Numeral

/-!
# JSON values

A number is either an integer in the range of the signed and unsigned 64-bit
integers or a double.  The members of an object keep their order.
-/

namespace DocShell

/-- A JSON number. -/
inductive Json.Number where
  | int (n : Int)
  | float (x : Double)
  deriving DecidableEq, Repr, Inhabited

/-- A JSON value. -/
inductive Json where
  | null
  | bool (b : Bool)
  | number (n : Json.Number)
  | string (s : String)
  | array (items : List Json)
  | object (members : List (String × Json))
  deriving Repr, Inhabited

namespace Json

/-- The number as a signed 64-bit integer, if it is one. -/
def Number.toInt64? : Number → Option Int64
  | .int n => if Text.fitsInt64 n then some (Int64.ofInt n) else none
  | .float _ => none

/-- The double nearest to the number. -/
def Number.toDouble : Number → Double
  | .int n => Double.ofInt n
  | .float x => x

/-- The number for an integer. -/
def ofInt (n : Int) : Json :=
  .number (.int n)

/-- The number for a natural number. -/
def ofNat (n : Nat) : Json :=
  .number (.int n)

/-- The number for a finite double; JSON has no others, and null stands for them. -/
def ofDouble (x : Double) : Json :=
  if x.isFinite then .number (.float x) else .null

end Json

end DocShell
