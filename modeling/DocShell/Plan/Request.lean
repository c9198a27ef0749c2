import DocShell.Report

/-!
# Requests

A request is one thing that the store is asked for.  `Request.run` answers it;
only the requests that `Request.isWrite` names can change the store.
-/

namespace DocShell

/-- What the store is asked for. -/
inductive Request where
  | listDatabases
  | listCollections (database : String)
  /-- Whether there is such a database, in order to make it the current one. -/
  | useDatabase (name : String)
  | find (ns : Namespace) (cursor : Cursor)
  | findOne (ns : Namespace) (filter : Document) (projection : Option Document)
  | count (ns : Namespace) (filter : Document)
  | distinct (ns : Namespace) (path : String) (filter : Document)
  | aggregate (ns : Namespace) (stages : List Document)
  | insertOne (ns : Namespace) (doc : Document)
  | insertMany (ns : Namespace) (docs : List Document)
  | update (ns : Namespace) (extent : Extent) (filter change : Document)
  | delete (ns : Namespace) (extent : Extent) (filter : Document)
  deriving Repr, Inhabited

namespace Request

/-- The request can change the store. -/
def isWrite : Request → Bool
  | .insertOne .. | .insertMany .. | .update .. | .delete .. => true
  | _ => false

/-- The databases that listings leave out. -/
def hidden : List String :=
  ["admin", "local", "config"]

/-- The answer to the question whether there is a database. -/
def useReport (store : Store) (name : String) : Except Failure Report :=
  if store.listDatabases.any fun database => database.name == name then
    .ok (.switched name s!"switched to db {name}")
  else
    .error (.usage (.unknownDatabase name))

/-- A failure of a query, as a failure of the command. -/
def queried (outcome : Except QueryFailure Report) : Except Failure Report :=
  outcome.mapError fun failure => .store (.query failure)

/-- Answers a request. -/
def run (store : Store) : Request → Store × Except Failure Report
  | .listDatabases =>
    let databases := store.listDatabases.filter fun database => !hidden.contains database.name
    (store, .ok (.databases databases))
  | .listCollections database => (store, .ok (.collections (store.listCollections database)))
  | .useDatabase name => (store, useReport store name)
  | .find ns cursor => (store, queried ((store.find ns cursor).map .documents))
  | .findOne ns filter projection =>
    (store, queried ((store.findOne ns filter projection).map .document))
  | .count ns filter => (store, queried ((store.count ns filter).map .count))
  | .distinct ns path filter => (store, queried ((store.distinct ns path filter).map .values))
  | .aggregate ns stages => (store, queried ((store.aggregate ns stages).map .documents))
  | .insertOne ns doc =>
    let (store, outcome) := store.insertOne ns doc
    (store, (outcome.map .insertedOne).mapError .store)
  | .insertMany ns docs =>
    let (store, outcome) := store.insertMany ns docs
    (store, (outcome.map .insertedMany).mapError .store)
  | .update ns extent filter change =>
    let (store, outcome) := store.update ns extent filter change
    (store, queried (outcome.map .updated))
  | .delete ns extent filter =>
    let (store, outcome) := store.delete ns extent filter
    (store, queried (outcome.map .deleted))

end Request

end DocShell
