import DocShell.Query.Distinct
import DocShell.Query.Pipeline
import DocShell.Store.Basic
import DocShell.Value.Size

/-!
# Reading from the store

A cursor is a query that has not been run: a filter with an optional sorting, a
number of documents to skip, a limit and a projection, which take effect in that
order.  All reads select documents by `Filter.select`, and a collection that is
not there reads as an empty one.
-/

namespace DocShell

/-- A query over one collection. -/
structure Cursor where
  filter : Document := []
  sort : Option Document := none
  skip : Option Nat := none
  limit : Option Nat := none
  projection : Option Document := none
  deriving Repr, Inhabited

namespace Cursor

/-- The documents in the order that the cursor asks for. -/
def sorted (cursor : Cursor) (docs : List Document) : Except QueryFailure (List Document) :=
  match cursor.sort with
  | some spec => Sorting.sort spec docs
  | none => .ok docs

/-- The documents between the number to skip and the limit. -/
def window (cursor : Cursor) (docs : List Document) : List Document :=
  let rest := docs.drop (cursor.skip.getD 0)
  match cursor.limit with
  | some limit => rest.take limit
  | none => rest

/-- The documents as the cursor shows them. -/
def projected (cursor : Cursor) (docs : List Document) : Except QueryFailure (List Document) :=
  match cursor.projection with
  | some projection => Projection.applyAll projection docs
  | none => .ok docs

/-- The outcome of the query on a list of documents. -/
def run (cursor : Cursor) (docs : List Document) : Except QueryFailure (List Document) :=
  match Filter.select cursor.filter docs with
  | .error failure => .error failure
  | .ok selected =>
    match cursor.sorted selected with
    | .error failure => .error failure
    | .ok sorted => cursor.projected (cursor.window sorted)

/-- A limit of zero leaves no documents, whatever the collection holds. -/
def isExhausted (cursor : Cursor) : Bool :=
  cursor.limit == some 0

end Cursor

/-- What a listing says of a database: its name, the number of bytes that its
documents take, and whether it has none. -/
structure DatabaseSummary where
  name : String
  size : Nat
  isEmpty : Bool
  deriving DecidableEq, Repr, Inhabited

namespace Store

/-- The names in ascending order. -/
def sortedNames (names : List String) : List String :=
  names.mergeSort fun a b => a ≤ b

/-- The summary of a database. -/
def summary (name : String) (database : Database) : DatabaseSummary :=
  let docs := database.flatMap Prod.snd
  { name, size := docs.foldr (fun doc n => Value.documentSize doc + n) 0, isEmpty := docs.isEmpty }

/-- All databases, by name. -/
def listDatabases (store : Store) : List DatabaseSummary :=
  (sortedNames store.databases.keys).map fun name =>
    summary name ((store.databases.get? name).getD [])

/-- The collections of a database, by name. -/
def listCollections (store : Store) (database : String) : List String :=
  sortedNames ((store.databases.get? database).getD []).keys

/-- The documents that a cursor asks for. -/
def find (store : Store) (ns : Namespace) (cursor : Cursor) : Except QueryFailure (List Document) :=
  cursor.run (store.documents ns)

/-- The first document that satisfies a filter. -/
def findOne (store : Store) (ns : Namespace) (filter : Document) (projection : Option Document) :
    Except QueryFailure (Option Document) :=
  (store.find ns { filter, projection, limit := some 1 }).map List.head?

/-- The number of documents that satisfy a filter. -/
def count (store : Store) (ns : Namespace) (filter : Document) : Except QueryFailure Nat :=
  (Filter.select filter (store.documents ns)).map List.length

/-- The distinct values at a path of the documents that satisfy a filter. -/
def distinct (store : Store) (ns : Namespace) (path : String) (filter : Document) :
    Except QueryFailure (List Value) :=
  (Filter.select filter (store.documents ns)).map (Distinct.values path)

/-- The documents that a pipeline makes of a collection. -/
def aggregate (store : Store) (ns : Namespace) (stages : List Document) :
    Except QueryFailure (List Document) :=
  Pipeline.run stages (store.documents ns)

end Store

end DocShell
