import DocShell.Failure.Basic
import DocShell.Query.Update
import DocShell.Store.Basic

/-!
# Writing to the store

An insertion goes through for all its documents or for none: it fails if the id of
one of them is taken, by a stored document or by an earlier one of the same
insertion.  The collection is there afterwards in either case.

An update changes documents one after the other.  If it fails at one of them, that
one and those behind it stay as they were, and the changes before it remain.  A
deletion first finds what to delete and fails without any effect.
-/

namespace DocShell

/-- Whether a write goes for the first document that satisfies its filter or for
all of them. -/
inductive Extent where
  | first
  | all
  deriving DecidableEq, Repr, Inhabited

/-- The number of documents that an update found and the number that it changed. -/
structure UpdateCount where
  matched : Nat := 0
  modified : Nat := 0
  deriving DecidableEq, Repr, Inhabited

/-- One more document found, and changed or not. -/
def UpdateCount.add (count : UpdateCount) (changed : Bool) : UpdateCount :=
  { matched := count.matched + 1, modified := count.modified + changed.toNat }

namespace Store

/-! ## Insertion -/

/-- The first id that equals a taken one or an earlier one. -/
def clash? (taken : List Value) : List Value → Option Value
  | [] => none
  | id :: more =>
    if taken.any fun other => other.same id then some id else clash? (taken ++ [id]) more

/-- Inserts documents that have ids; the answer lists the ids. -/
def insertIdentified (store : Store) (ns : Namespace) (docs : List Document) :
    Store × Except StoreFailure (List Value) :=
  let stored := store.documents ns
  let ids := docs.filterMap idOf?
  match clash? (stored.filterMap idOf?) ids with
  | some id => (store.put ns stored, .error (.duplicateKey ns id))
  | none => (store.put ns (stored ++ docs), .ok ids)

/-- Inserts documents; those without an id are given one.  The ids that a failed
insertion has taken go back to their source. -/
def insertMany (store : Store) (ns : Namespace) (docs : List Document) :
    Store × Except StoreFailure (List Value) :=
  let (docs, ids) := withIds store.ids docs
  match insertIdentified store ns docs with
  | (after, .ok inserted) => ({ after with ids }, .ok inserted)
  | (after, .error failure) => (after, .error failure)

/-- Inserts one document; the answer is its id. -/
def insertOne (store : Store) (ns : Namespace) (doc : Document) :
    Store × Except StoreFailure Value :=
  let (store, outcome) := store.insertMany ns [doc]
  (store, outcome.map fun ids => ids.headD .null)

/-! ## Update -/

/-- The documents after an update, and how many it found and changed. -/
def updateDocuments (extent : Extent) (filter update : Document) :
    List Document → List Document × Except QueryFailure UpdateCount
  | [] => ([], .ok {})
  | doc :: more =>
    match Filter.holds doc filter with
    | .error failure => (doc :: more, .error failure)
    | .ok false =>
      let (rest, outcome) := updateDocuments extent filter update more
      (doc :: rest, outcome)
    | .ok true =>
      match Update.apply update doc with
      | (_, .error failure) => (doc :: more, .error failure)
      | (updated, .ok changed) =>
        let kept := if changed then updated else doc
        match extent with
        | .first => (kept :: more, .ok (UpdateCount.add {} changed))
        | .all =>
          let (rest, outcome) := updateDocuments extent filter update more
          (kept :: rest, outcome.map fun count => count.add changed)

/-- Updates the documents that satisfy a filter. -/
def update (store : Store) (ns : Namespace) (extent : Extent) (filter update : Document) :
    Store × Except QueryFailure UpdateCount :=
  match store.collection? ns with
  | none => (store, .ok {})
  | some docs =>
    let (docs, outcome) := updateDocuments extent filter update docs
    (store.put ns docs, outcome)

/-! ## Deletion -/

/-- The places of the documents to delete, from the front to the back, where the first
document stands at `place`. -/
def doomed (extent : Extent) (filter : Document) (place : Nat) :
    List Document → Except QueryFailure (List Nat)
  | [] => .ok []
  | doc :: more =>
    match Filter.holds doc filter with
    | .error failure => .error failure
    | .ok false => doomed extent filter (place + 1) more
    | .ok true =>
      match extent with
      | .first => .ok [place]
      | .all => (doomed extent filter (place + 1) more).map (place :: ·)

/-- Removes the documents at the given places, the last one first, so that the places in
front of it stay valid. -/
def removeAt (places : List Nat) (docs : List Document) : List Document :=
  places.foldr (fun place docs => docs.eraseIdx place) docs

/-- Deletes the documents that satisfy a filter; the answer is their number. -/
def delete (store : Store) (ns : Namespace) (extent : Extent) (filter : Document) :
    Store × Except QueryFailure Nat :=
  match store.collection? ns with
  | none => (store, .ok 0)
  | some docs =>
    match doomed extent filter 0 docs with
    | .error failure => (store, .error failure)
    | .ok places => (store.put ns (removeAt places docs), .ok places.length)

end Store

end DocShell
