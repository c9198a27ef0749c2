import DocShell.Store.Read
import DocShell.Store.Write
import DocShell.Value.Form

/-!
# Reports

What a command answers when it succeeds.  `Report.toJson` is the form in which
callers see it; `Report.returned` counts the documents or values that it shows,
and `Report.affected?` those that a write has touched.
-/

namespace DocShell

/-- The answer of a command. -/
inductive Report where
  | documents (docs : List Document)
  /-- The document that was looked for, if there is one. -/
  | document (doc : Option Document)
  | count (n : Nat)
  | values (values : List Value)
  | databases (databases : List DatabaseSummary)
  | collections (names : List String)
  | insertedOne (id : Value)
  | insertedMany (ids : List Value)
  | updated (count : UpdateCount)
  | deleted (n : Nat)
  /-- Another database is current from now on. -/
  | switched (database message : String)
  deriving Repr, Inhabited

namespace Report

/-- The number of documents or values that the report shows. -/
def returned : Report → Nat
  | .documents docs => docs.length
  | .document doc => doc.toList.length
  | .values found => found.length
  | _ => 0

/-- The number of documents that a write has touched; reads have none. -/
def affected? : Report → Option Nat
  | .insertedOne _ => some 1
  | .insertedMany ids => some ids.length
  | .updated total => some total.modified
  | .deleted n => some n
  | _ => none

/-- What a listing shows of a database. -/
def databaseJson (database : DatabaseSummary) : Json :=
  .object
    [("name", .string database.name), ("sizeOnDisk", Json.ofNat database.size),
      ("empty", .bool database.isEmpty)]

/-- The members that every write reports, with those of this one. -/
def acknowledged (members : List (String × Json)) : Json :=
  .object (("acknowledged", .bool true) :: members)

/-- The report as JSON. -/
def toJson : Report → Json
  | .documents docs =>
    .object
      [("documents", .array (docs.map Value.documentToJson)), ("count", Json.ofNat docs.length)]
  | .document (some doc) => Value.documentToJson doc
  | .document none => .null
  | .count n => Json.ofNat n
  | .values found => .array (found.map Value.toJson)
  | .databases found => .array (found.map databaseJson)
  | .collections names => .array (names.map .string)
  | .insertedOne id => acknowledged [("insertedId", .string id.idText)]
  | .insertedMany ids =>
    acknowledged
      [("insertedIds", .array (ids.map fun id => .string id.idText)),
        ("insertedCount", Json.ofNat ids.length)]
  | .updated total =>
    acknowledged
      [("matchedCount", Json.ofNat total.matched), ("modifiedCount", Json.ofNat total.modified)]
  | .deleted n => acknowledged [("deletedCount", Json.ofNat n)]
  | .switched database message =>
    .object [("database", .string database), ("message", .string message)]

end Report

end DocShell
