import DocShell.Namespace
import DocShell.Value.Basic

/-!
# The store

A store holds databases, a database holds collections, and a collection is a list
of documents in the order in which they were inserted.  A database or collection
comes into being when it is first written to.  The store also carries the source
of the ids that documents without one are given.

`Store.collection?` is the view that everything else is stated with:
`Store.put` changes it at one namespace and nowhere else.
-/

namespace DocShell

/-- The collections of a database. -/
abbrev Database : Type :=
  Fields (List Document)

/-- Databases, and the source of fresh ids. -/
structure Store where
  databases : Fields Database := []
  ids : ObjectId.Source := default
  deriving Repr, Inhabited

namespace Store

/-- The documents of a collection, if the collection is there. -/
def collection? (store : Store) (ns : Namespace) : Option (List Document) :=
  (store.databases.get? ns.database).bind fun database => database.get? ns.collection

/-- The documents of a collection; a missing one has none. -/
def documents (store : Store) (ns : Namespace) : List Document :=
  (store.collection? ns).getD []

/-- The store with the given documents in a collection, which is created if it is
not there. -/
def put (store : Store) (ns : Namespace) (docs : List Document) : Store :=
  let database := (store.databases.get? ns.database).getD []
  { store with databases := store.databases.insert ns.database (database.insert ns.collection docs) }

@[simp] theorem ids_put (store : Store) (ns : Namespace) (docs : List Document) :
    (store.put ns docs).ids = store.ids := rfl

theorem collection?_put (store : Store) (ns other : Namespace) (docs : List Document) :
    (store.put ns docs).collection? other =
      if ns = other then some docs else store.collection? other := by
  obtain ⟨database, collection⟩ := ns
  obtain ⟨database', collection'⟩ := other
  by_cases hdatabase : database = database'
  · subst hdatabase
    by_cases hcollection : collection = collection'
    · simp [put, collection?, Fields.get?_insert, hcollection]
    · cases hfound : store.databases.get? database <;>
        simp [put, collection?, Fields.get?_insert, hcollection, hfound]
  · simp [put, collection?, Fields.get?_insert, hdatabase]

theorem documents_put (store : Store) (ns other : Namespace) (docs : List Document) :
    (store.put ns docs).documents other = if ns = other then docs else store.documents other := by
  unfold documents
  rw [collection?_put]
  split <;> rfl

/-! ## Ids -/

/-- The id of a document, if it has one. -/
def idOf? (doc : Document) : Option Value :=
  doc.get? "_id"

/-- The document with an id in front, unless it has one already. -/
def withId (id : ObjectId) (doc : Document) : Document :=
  if (idOf? doc).isSome then doc else ("_id", .objectId id) :: doc

/-- The documents with ids, and the source after those that were needed. -/
def withIds (source : ObjectId.Source) : List Document → List Document × ObjectId.Source
  | [] => ([], source)
  | doc :: more =>
    let after := if (idOf? doc).isSome then source else source.advance
    let (rest, last) := withIds after more
    (withId source.next doc :: rest, last)

/-- Adds documents to a collection as they are, except that those without an id are
given one. -/
def seed (store : Store) (ns : Namespace) (docs : List Document) : Store :=
  let (docs, ids) := withIds store.ids docs
  { store.put ns (store.documents ns ++ docs) with ids }

end Store

end DocShell
