import DocShell.Value.Display

/-!
# What can be wrong with a query

Filters, sort specifications, projections, updates and pipelines are documents,
so most of what they ask for is only checked when they are applied.
-/

namespace DocShell

/-- Why a query cannot be applied. -/
inductive QueryFailure where
  /-- A key of a filter that starts with `$` and is not `$and`, `$or`, `$nor`. -/
  | unsupportedConnective (op : String)
  /-- An entry of `$and`, `$or` or `$nor` that is not a document. -/
  | clauseNotDocument (op : String)
  /-- `$and`, `$or` or `$nor` without a non-empty array. -/
  | clausesRequired (op : String)
  /-- An unknown operator on a field. -/
  | unsupportedOperator (op : String)
  /-- `$in` or `$nin` without an array. -/
  | arrayRequired (op : String)
  /-- A sort direction that is not 1 or -1. -/
  | invalidDirection (field : String) (direction : Value)
  /-- A projection that both names and leaves out fields. -/
  | mixedProjection
  /-- An update without operators, or with something that is none. -/
  | operatorsRequired
  /-- An operator or stage whose operand is not a document. -/
  | documentRequired (op : String)
  /-- An update of `_id`. -/
  | immutableId
  /-- An unknown operator of an update. -/
  | unsupportedUpdate (op : String)
  /-- `$inc` by something that is no number. -/
  | increaseNotNumeric (path : String)
  /-- `$inc` of something that is no number. -/
  | targetNotNumeric (path : String)
  /-- A path that leads through something that is no document. -/
  | notDocument (path part : String)
  /-- A stage with no operator or several. -/
  | oneOperatorPerStage
  /-- An unknown stage. -/
  | unsupportedStage (name : String)
  /-- `$skip` or `$limit` without a non-negative integer. -/
  | countRequired (name : String)
  /-- `$limit` of zero. -/
  | limitNotPositive
  /-- `$count` without a field name. -/
  | countFieldRequired
  deriving Repr, Inhabited

/-- The wording of a query failure. -/
def QueryFailure.message : QueryFailure → String
  | .unsupportedConnective op => s!"unsupported top-level operator {op}"
  | .clauseNotDocument op => s!"{op} entries must be documents"
  | .clausesRequired op => s!"{op} requires a non-empty array"
  | .unsupportedOperator op => s!"unsupported query operator {op}"
  | .arrayRequired op => s!"{op} requires an array"
  | .invalidDirection field direction =>
    s!"invalid sort direction for {field}: {direction.display}"
  | .mixedProjection => "cannot mix inclusion and exclusion in a projection"
  | .operatorsRequired => "update document requires atomic operators such as $set"
  | .documentRequired op => s!"{op} requires a document"
  | .immutableId => "the _id field is immutable"
  | .unsupportedUpdate op => s!"unsupported update operator {op}"
  | .increaseNotNumeric path => s!"$inc value for {path} must be numeric"
  | .targetNotNumeric path => s!"cannot apply $inc to non-numeric field {path}"
  | .notDocument path part => s!"cannot update {path}: {part} is not a document"
  | .oneOperatorPerStage => "each pipeline stage must have exactly one operator"
  | .unsupportedStage name => s!"unsupported pipeline stage {name}"
  | .countRequired name => s!"{name} requires a non-negative integer"
  | .limitNotPositive => "$limit must be positive"
  | .countFieldRequired => "$count requires a field name"

end DocShell
