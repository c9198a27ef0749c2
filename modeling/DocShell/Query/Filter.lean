import DocShell.Failure.Query
import DocShell.Query.Path
import DocShell.Value.Order

/-!
# Filters

A filter is a document whose entries must all hold.  An entry is `$and`, `$or`
or `$nor` with an array of filters, or a path with a condition.  A condition is a
document of operators when its first name starts with `$`, and otherwise a value
that the field must equal.

A field that holds an array satisfies an equality or a range operator if one of
its items does; an array as the expected value is compared with the whole field.
A missing field equals null.

Entries, clauses and operators are tried in order, and the first one that decides
the outcome ends the search, so a fault behind it is not noticed.
-/

namespace DocShell.Filter

/-- The name of an operator. -/
def isOperator (name : String) : Bool :=
  name.toList.head? == some '$'

/-! ## Conditions on one field -/

/-- The field has the expected value. -/
def equals (field : Option Value) (expected : Value) : Bool :=
  match field with
  | none =>
    match expected with
    | .null => true
    | _ => false
  | some (.array items) =>
    match expected with
    | .array _ => (Value.array items).matching expected
    | _ => items.any fun item => item.matching expected
  | some value => value.matching expected

/-- The field, or one of its items, stands in an accepted order to the operand. -/
def compares (field : Option Value) (operand : Value) (accept : Ordering → Bool) : Bool :=
  let check := fun (value : Value) => value.comparable operand && accept (value.order operand)
  match field with
  | none => false
  | some (.array items) => items.any check
  | some value => check value

/-- The field equals one of the candidates. -/
def inSet (field : Option Value) (op : String) (operand : Value) : Except QueryFailure Bool :=
  match operand with
  | .array candidates => .ok (candidates.any fun candidate => equals field candidate)
  | _ => .error (.arrayRequired op)

/-- One operator with its operand. -/
def holdsOperator (field : Option Value) (op : String) (operand : Value) :
    Except QueryFailure Bool :=
  match op with
  | "$eq" => .ok (equals field operand)
  | "$ne" => .ok (!equals field operand)
  | "$gt" => .ok (compares field operand fun o => o == .gt)
  | "$gte" => .ok (compares field operand fun o => o != .lt)
  | "$lt" => .ok (compares field operand fun o => o == .lt)
  | "$lte" => .ok (compares field operand fun o => o != .gt)
  | "$in" => inSet field op operand
  | "$nin" => (inSet field op operand).map (!·)
  | "$exists" => .ok (field.isSome == operand.truthy)
  | _ => .error (.unsupportedOperator op)

/-- All operators of a condition. -/
def holdsOperators (field : Option Value) : List (String × Value) → Except QueryFailure Bool
  | [] => .ok true
  | (op, operand) :: more =>
    match holdsOperator field op operand with
    | .ok true => holdsOperators field more
    | outcome => outcome

/-- The operators of a condition, if it is a document of operators. -/
def operators? (condition : Value) : Option (List (String × Value)) :=
  match condition with
  | .document ((op, operand) :: more) =>
    if isOperator op then some ((op, operand) :: more) else none
  | _ => none

/-- The condition on one field. -/
def holdsField (field : Option Value) (condition : Value) : Except QueryFailure Bool :=
  match operators? condition with
  | some ops => holdsOperators field ops
  | none => .ok (equals field condition)

/-! ## Filters -/

/-- The entry names a connective. -/
def isConnective (key : String) : Bool :=
  key == "$and" || key == "$or" || key == "$nor"

/-- An entry that is not a connective. -/
def holdsPath (doc : Document) (key : String) (condition : Value) : Except QueryFailure Bool :=
  if isOperator key then .error (.unsupportedConnective key)
  else holdsField (Path.get? doc key) condition

/-- The clauses of a connective are documents, and there is one. -/
def checkClauses (op : String) (items : List Value) : Except QueryFailure Unit :=
  if items.isEmpty then .error (.clausesRequired op)
  else if items.all fun item => item.document?.isSome then .ok ()
  else .error (.clauseNotDocument op)

mutual

/-- The document satisfies all entries. -/
def holds (doc : Document) : List (String × Value) → Except QueryFailure Bool
  | [] => .ok true
  | (key, condition) :: more =>
    match holdsEntry doc key condition with
    | .ok true => holds doc more
    | outcome => outcome

/-- The document satisfies one entry. -/
def holdsEntry (doc : Document) (key : String) : Value → Except QueryFailure Bool
  | .array items =>
    if isConnective key then
      match checkClauses key items with
      | .error failure => .error failure
      | .ok _ =>
        if key == "$and" then holdsAll doc items
        else if key == "$or" then holdsAny doc items
        else (holdsAny doc items).map (!·)
    else
      holdsPath doc key (.array items)
  | condition =>
    if isConnective key then .error (.clausesRequired key) else holdsPath doc key condition

/-- The document satisfies every clause. -/
def holdsAll (doc : Document) : List Value → Except QueryFailure Bool
  | [] => .ok true
  | clause :: more =>
    match holdsClause doc clause with
    | .ok true => holdsAll doc more
    | outcome => outcome

/-- The document satisfies some clause. -/
def holdsAny (doc : Document) : List Value → Except QueryFailure Bool
  | [] => .ok false
  | clause :: more =>
    match holdsClause doc clause with
    | .ok false => holdsAny doc more
    | outcome => outcome

/-- The document satisfies a clause; one that is no document is satisfied by
none. -/
def holdsClause (doc : Document) : Value → Except QueryFailure Bool
  | .document entries => holds doc entries
  | _ => .ok false

end

/-- The documents that satisfy a filter, in order; the first fault counts. -/
def select (filter : Document) : List Document → Except QueryFailure (List Document)
  | [] => .ok []
  | doc :: more =>
    match holds doc filter with
    | .error failure => .error failure
    | .ok true => (select filter more).map (doc :: ·)
    | .ok false => select filter more

end DocShell.Filter
