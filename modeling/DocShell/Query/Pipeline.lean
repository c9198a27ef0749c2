import DocShell.Query.Filter
import DocShell.Query.Projection
import DocShell.Query.Sorting

/-!
# Pipelines

A pipeline is a row of stages, each a document with one operator, and each stage
works on the documents that the stage before it gives.
-/

namespace DocShell.Pipeline

/-- The document that a stage works with. -/
def stageDocument (name : String) (spec : Value) : Except QueryFailure Document :=
  match spec with
  | .document fields => .ok fields
  | _ => .error (.documentRequired name)

/-- The number of documents that a stage works with. -/
def stageCount (name : String) (spec : Value) : Except QueryFailure Nat :=
  match spec.integer? with
  | some n => if 0 ≤ n then .ok n.toNat else .error (.countRequired name)
  | none => .error (.countRequired name)

/-- The field that `$count` gives its number. -/
def countField? (spec : Value) : Option String :=
  match spec with
  | .string name => if name.isEmpty || Filter.isOperator name then none else some name
  | _ => none

/-- The number of the documents as one document, or nothing for no documents. -/
def count (field : String) (docs : List Document) : List Document :=
  if docs.isEmpty then [] else [[(field, Value.ofInt docs.length)]]

/-- One stage. -/
def runStage (name : String) (spec : Value) (docs : List Document) :
    Except QueryFailure (List Document) :=
  match name with
  | "$match" =>
    match stageDocument name spec with
    | .error failure => .error failure
    | .ok filter => Filter.select filter docs
  | "$sort" =>
    match stageDocument name spec with
    | .error failure => .error failure
    | .ok spec => Sorting.sort spec docs
  | "$skip" => (stageCount name spec).map fun n => docs.drop n
  | "$limit" =>
    match stageCount name spec with
    | .error failure => .error failure
    | .ok 0 => .error .limitNotPositive
    | .ok n => .ok (docs.take n)
  | "$project" =>
    match stageDocument name spec with
    | .error failure => .error failure
    | .ok projection => Projection.applyAll projection docs
  | "$count" =>
    match countField? spec with
    | some field => .ok (count field docs)
    | none => .error .countFieldRequired
  | _ => .error (.unsupportedStage name)

/-- The stages in order. -/
def run : List Document → List Document → Except QueryFailure (List Document)
  | [], docs => .ok docs
  | [(name, spec)] :: more, docs =>
    match runStage name spec docs with
    | .error failure => .error failure
    | .ok docs => run more docs
  | _ :: _, _ => .error .oneOperatorPerStage

end DocShell.Pipeline
