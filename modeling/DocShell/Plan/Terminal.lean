import DocShell.Command
import DocShell.Plan.Refinement
import DocShell.Plan.Request

/-!
# Calls that stand alone

Every method other than `find` and those that refine its cursor makes a whole
command by itself.  Here its arguments become a request.
-/

namespace DocShell

namespace Call

/-- The methods that write. -/
def writes : List String :=
  ["insertOne", "insertMany", "updateOne", "updateMany", "deleteOne", "deleteMany"]

/-- The method of the call is one that writes. -/
def isWrite (call : Call) : Bool :=
  writes.contains call.method

end Call

namespace Request

/-- The document to look for. -/
def readFindOne (ns : Namespace) (call : Call) : Except UsageFailure Request :=
  (Cursor.readQuery call).map fun (filter, projection) => .findOne ns filter projection

/-- The documents to count. -/
def readCount (ns : Namespace) (call : Call) : Except UsageFailure Request :=
  match call.atMost 1 "an optional filter document" with
  | .error failure => .error failure
  | .ok _ => (call.document? 0 "a filter document").map fun filter => .count ns (filter.getD [])

/-- The path whose values are asked for; it must not be empty. -/
def readPath (call : Call) (expected : String) : Except UsageFailure String :=
  match call.arguments.head? with
  | some (.string path) => if path.isEmpty then call.invalid expected else .ok path
  | _ => call.invalid expected

/-- The path whose distinct values are asked for, and the documents to look at. -/
def readDistinct (ns : Namespace) (call : Call) : Except UsageFailure Request :=
  let expected := "a field name string and an optional filter document"
  match call.atMost 2 expected with
  | .error failure => .error failure
  | .ok _ =>
    match readPath call expected with
    | .error failure => .error failure
    | .ok path =>
      (call.document? 1 expected).map fun filter => .distinct ns path (filter.getD [])

/-- The stages of a pipeline, none of them empty. -/
def readAggregate (ns : Namespace) (call : Call) : Except UsageFailure Request :=
  let expected := "an array of pipeline stage documents"
  match call.atMost 1 expected with
  | .error failure => .error failure
  | .ok _ =>
    (call.documentArray (fun stages => stages.all fun stage => !stage.isEmpty) expected).map fun
      stages => .aggregate ns stages

/-- The document to insert. -/
def readInsertOne (ns : Namespace) (call : Call) : Except UsageFailure Request :=
  match call.atMost 1 "a single document" with
  | .error failure => .error failure
  | .ok _ => (call.document 0 "a single document").map fun doc => .insertOne ns doc

/-- The documents to insert, at least one. -/
def readInsertMany (ns : Namespace) (call : Call) : Except UsageFailure Request :=
  let expected := "a non-empty array of documents"
  match call.atMost 1 expected with
  | .error failure => .error failure
  | .ok _ =>
    (call.documentArray (fun docs => !docs.isEmpty) expected).map fun docs => .insertMany ns docs

/-- The documents to update, and how. -/
def readUpdate (ns : Namespace) (extent : Extent) (call : Call) : Except UsageFailure Request :=
  let expected := "a filter document and an update document"
  match call.atMost 2 expected with
  | .error failure => .error failure
  | .ok _ =>
    match call.document 0 expected with
    | .error failure => .error failure
    | .ok filter =>
      (call.document 1 expected).map fun update => .update ns extent filter update

/-- The documents to delete. -/
def readDelete (ns : Namespace) (extent : Extent) (call : Call) : Except UsageFailure Request :=
  match call.atMost 1 "a filter document" with
  | .error failure => .error failure
  | .ok _ => (call.document 0 "a filter document").map fun filter => .delete ns extent filter

/-- The request of a call that stands alone. -/
def ofCall (ns : Namespace) (call : Call) : Except UsageFailure Request :=
  match call.method with
  | "findOne" => readFindOne ns call
  | "countDocuments" => readCount ns call
  | "distinct" => readDistinct ns call
  | "aggregate" => readAggregate ns call
  | "insertOne" => readInsertOne ns call
  | "insertMany" => readInsertMany ns call
  | "updateOne" => readUpdate ns .first call
  | "updateMany" => readUpdate ns .all call
  | "deleteOne" => readDelete ns .first call
  | "deleteMany" => readDelete ns .all call
  | method => .error (.unsupportedMethod method Command.operations)

end Request

end DocShell
