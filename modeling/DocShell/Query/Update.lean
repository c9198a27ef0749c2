import DocShell.Failure.Query
import DocShell.Query.Filter
import DocShell.Query.Path

/-!
# Updates

An update is a document of operators, each with a document of paths and operands.
`$set` writes a value, `$unset` removes one, `$inc` adds a number.  Operators and
paths are applied in order, and each tells whether it changed the document.

A fault ends the update.  What was applied before it stays applied to the
document that `apply` gives back, so that callers can choose between the two.
-/

namespace DocShell.Update

/-- The sum of two numbers: an integer as long as 64 bits hold it, a double as
soon as one of the two is neither a 32-bit nor a 64-bit integer.  Two 32-bit
integers give a 64-bit one only when they must. -/
def addNumbers (a b : Value) : Value :=
  match a, b with
  | .int32 x, .int32 y => Value.ofInt (x.toInt + y.toInt)
  | _, _ =>
    match a.toInt?, b.toInt? with
    | some x, some y =>
      if Text.fitsInt64 (x + y) then .int64 (Int64.ofInt (x + y))
      else .double (a.toDouble.add b.toDouble)
    | _, _ => .double (a.toDouble.add b.toDouble)

/-- A document with the word whether it was changed. -/
abbrev Change : Type :=
  Document × Bool

/-- Writes a value at a path. -/
def setPath (doc : Document) (path : String) (value : Value) : Except QueryFailure Change :=
  match Path.set doc path value with
  | .error part => .error (.notDocument path part)
  | .ok updated =>
    let changed :=
      match Path.get? doc path with
      | some old => !old.same value
      | none => true
    .ok (updated, changed)

/-- Removes the value at a path. -/
def unsetPath (doc : Document) (path : String) : Change :=
  (Path.erase doc path, (Path.get? doc path).isSome)

/-- Adds a number to the one at a path; a missing one counts as nothing. -/
def increasePath (doc : Document) (path : String) (amount : Value) :
    Except QueryFailure Change :=
  if !amount.isNumber then
    .error (.increaseNotNumeric path)
  else
    match Path.get? doc path with
    | none => setPath doc path amount
    | some current =>
      if current.isNumber then setPath doc path (addNumbers current amount)
      else .error (.targetNotNumeric path)

/-- One operator on one path. -/
def applyPath (op : String) (doc : Document) (path : String) (operand : Value) :
    Except QueryFailure Change :=
  if path = "_id" then .error .immutableId
  else if op = "$set" then setPath doc path operand
  else if op = "$unset" then .ok (unsetPath doc path)
  else if op = "$inc" then increasePath doc path operand
  else .error (.unsupportedUpdate op)

/-- The document after as much of an update as went well, and whether it was
changed or what went wrong. -/
abbrev Outcome : Type :=
  Document × Except QueryFailure Bool

/-- One operator on its paths in order. -/
def applyPaths (op : String) : List (String × Value) → Document → Bool → Outcome
  | [], doc, changed => (doc, .ok changed)
  | (path, operand) :: more, doc, changed =>
    match applyPath op doc path operand with
    | .error failure => (doc, .error failure)
    | .ok (updated, now) => applyPaths op more updated (changed || now)

/-- Operators in order. -/
def applyOperators : List (String × Value) → Document → Bool → Outcome
  | [], doc, changed => (doc, .ok changed)
  | (op, operand) :: more, doc, changed =>
    match operand with
    | .document paths =>
      match applyPaths op paths doc changed with
      | (updated, .ok changed) => applyOperators more updated changed
      | (updated, .error failure) => (updated, .error failure)
    | _ => (doc, .error (.documentRequired op))

/-- Applies an update to a document. -/
def apply (update doc : Document) : Outcome :=
  if update.isEmpty || !update.all fun entry => Filter.isOperator entry.1 then
    (doc, .error .operatorsRequired)
  else
    applyOperators update doc false

end DocShell.Update
