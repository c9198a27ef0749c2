import DocShell.Call.Chain
import DocShell.Failure.Outcome
import DocShell.Failure.Usage
import DocShell.Text.Numeral

/-!
# Arguments of calls

What a call is given is checked before anything is asked of the store.  Each check
comes with a text that tells what is expected, which the failure repeats.
-/

namespace DocShell.Call

/-- The call is not given what it expects. -/
def invalid {α : Type} (call : Call) (expected : String) : Except UsageFailure α :=
  .error (.invalidArguments call.method expected)

/-- There are no more arguments than `most`. -/
def atMost (call : Call) (most : Nat) (expected : String) : Except UsageFailure Unit :=
  if call.arguments.length ≤ most then .ok () else call.invalid expected

/-- The document in a place; null counts as none. -/
def document? (call : Call) (place : Nat) (expected : String) :
    Except UsageFailure (Option Document) :=
  match call.arguments[place]? with
  | none | some .null => .ok none
  | some (.document fields) => .ok (some fields)
  | some _ => call.invalid expected

/-- The document in a place, which must be there. -/
def document (call : Call) (place : Nat) (expected : String) : Except UsageFailure Document :=
  match call.document? place expected with
  | .error failure => .error failure
  | .ok (some fields) => .ok fields
  | .ok none => call.invalid expected

/-- The integer that a value stands for, where the text of one will do. -/
def looseInteger? (value : Value) : Option Int :=
  match value with
  | .string s => Text.readInt64? (Text.trim s.toList)
  | value => value.integer?

/-- The integer in the first place. -/
def integer (call : Call) (expected : String) : Except UsageFailure Int :=
  match call.arguments.head?.bind looseInteger? with
  | some n => .ok n
  | none => call.invalid expected

/-- The documents of an array, if all its items are documents. -/
def documents? (items : List Value) : Option (List Document) :=
  items.mapM Value.document?

/-- The array of documents in the first place, where `accept` says which arrays will
do. -/
def documentArray (call : Call) (accept : List Document → Bool) (expected : String) :
    Except UsageFailure (List Document) :=
  match call.arguments.head? with
  | some (.array items) =>
    match (documents? items).filter accept with
    | some docs => .ok docs
    | none => call.invalid expected
  | _ => call.invalid expected

end DocShell.Call
