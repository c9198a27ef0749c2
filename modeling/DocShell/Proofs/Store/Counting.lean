import DocShell.Proofs.Store.Identity

/-!
# How many documents a write adds and takes away

The answers to writes carry numbers.  Here they are compared with the length of the
collection before and after: `Store.Accounts` says that one collection has gained and lost
as many documents as told, and that the others hold what they held.

An insertion answers with one id for each document (`length_of_insertMany`), an update
leaves every document in its place, and a deletion leaves a part of the collection.
-/

namespace DocShell.Store

/-- One collection has gained and lost so many documents, and no other has changed. -/
structure Accounts (before after : Store) (ns : Namespace) (inserted deleted : Nat) : Prop where
  length_eq :
    (after.documents ns).length + deleted = (before.documents ns).length + inserted
  others : ∀ other, other ≠ ns → after.documents other = before.documents other

variable {store : Store} {ns : Namespace} {docs : List Document}

theorem accounts_refl (store : Store) (ns : Namespace) : Accounts store store ns 0 0 :=
  ⟨rfl, fun _ _ => rfl⟩

theorem accounts_put {inserted deleted : Nat}
    (hlength : docs.length + deleted = (store.documents ns).length + inserted) :
    Accounts store (store.put ns docs) ns inserted deleted := by
  refine ⟨?_, ?_⟩
  · rw [documents_put, if_pos rfl]
    exact hlength
  · intro other hother
    rw [documents_put, if_neg (Ne.symm hother)]

/-- The length of any collection, by whether it is the one that was written to. -/
theorem Accounts.length_add {before after : Store} {inserted deleted : Nat}
    (haccounts : Accounts before after ns inserted deleted) (other : Namespace) :
    (after.documents other).length + (if ns = other then deleted else 0) =
      (before.documents other).length + if ns = other then inserted else 0 := by
  by_cases hns : ns = other
  · subst hns
    simpa using haccounts.length_eq
  · simp only [if_neg hns, haccounts.others other (Ne.symm hns)]

/-! ### Insertion -/

theorem length_withIds (source : ObjectId.Source) (docs : List Document) :
    (withIds source docs).1.length = docs.length := by
  induction docs generalizing source with
  | nil => rfl
  | cons doc more ih => simp [withIds, ih]

/-- An insertion answers with as many ids as it was given documents, and the collection has
grown by that number. -/
theorem accounts_insertMany {ids : List Value} (hids : (store.insertMany ns docs).2 = .ok ids) :
    ids.length = docs.length ∧ Accounts store (store.insertMany ns docs).1 ns ids.length 0 := by
  rw [insertMany_eq] at hids ⊢
  split at hids
  · simp at hids
  · cases hids
    have hall : ((withIds store.ids docs).1.filterMap idOf?).length =
        (withIds store.ids docs).1.length :=
      List.filterMap_length_eq_length.mpr fun doc hdoc => isSome_idOf?_of_mem_withIds hdoc
    have hput : Accounts store (store.put ns (store.documents ns ++ (withIds store.ids docs).1))
        ns (withIds store.ids docs).1.length 0 :=
      accounts_put (by rw [List.length_append, Nat.add_zero])
    rw [hall]
    exact ⟨length_withIds store.ids docs, hput.length_eq, hput.others⟩

theorem accounts_insertMany_of_error {failure : StoreFailure}
    (hfailure : (store.insertMany ns docs).2 = .error failure) :
    Accounts store (store.insertMany ns docs).1 ns 0 0 := by
  rw [insertMany_of_error hfailure]
  exact accounts_put rfl

theorem accounts_insertOne {doc : Document} {id : Value}
    (hid : (store.insertOne ns doc).2 = .ok id) :
    Accounts store (store.insertOne ns doc).1 ns 1 0 := by
  cases hids : (store.insertMany ns [doc]).2 with
  | error failure => simp [insertOne, hids, Except.map] at hid
  | ok ids =>
      obtain ⟨hlength, haccounts⟩ := accounts_insertMany hids
      rw [hlength] at haccounts
      exact haccounts

theorem accounts_insertOne_of_error {doc : Document} {failure : StoreFailure}
    (hfailure : (store.insertOne ns doc).2 = .error failure) :
    Accounts store (store.insertOne ns doc).1 ns 0 0 := by
  cases hids : (store.insertMany ns [doc]).2 with
  | error reason => exact accounts_insertMany_of_error hids
  | ok ids => simp [insertOne, hids, Except.map] at hfailure

/-! ### Update and deletion -/

/-- An update changes the documents of its collection in their places, whether it goes
through or fails on the way. -/
theorem accounts_update (store : Store) (ns : Namespace) (extent : Extent)
    (filter change : Document) :
    Accounts store (store.update ns extent filter change).1 ns 0 0 := by
  refine ⟨?_, ?_⟩
  · have hlength := (forall₂_update store ns extent filter change).length_eq
    rw [hlength]
  · intro other hother
    unfold update
    split
    · rfl
    · rw [documents_put, if_neg (Ne.symm hother)]

theorem accounts_delete {extent : Extent} {filter : Document} {n : Nat}
    (hn : (store.delete ns extent filter).2 = .ok n) :
    Accounts store (store.delete ns extent filter).1 ns 0 n := by
  rw [delete_eq] at hn ⊢
  cases hdocs : store.collection? ns with
  | none =>
      simp only [hdocs, Except.ok.injEq] at hn ⊢
      subst hn
      exact accounts_refl store ns
  | some docs =>
      cases hkept : keptDocuments extent filter docs with
      | error failure => simp [hdocs, hkept] at hn
      | ok kept =>
          simp only [hdocs, hkept, Except.ok.injEq] at hn ⊢
          have hle := (sublist_of_keptDocuments hkept).length_le
          refine accounts_put ?_
          rw [documents_of_collection? hdocs]
          omega

theorem accounts_delete_of_error {extent : Extent} {filter : Document} {failure : QueryFailure}
    (hfailure : (store.delete ns extent filter).2 = .error failure) :
    Accounts store (store.delete ns extent filter).1 ns 0 0 := by
  have hstore : (store.delete ns extent filter).1 = store := by
    unfold delete at hfailure ⊢
    split
    · rfl
    · split
      · rfl
      · simp_all
  rw [hstore]
  exact accounts_refl store ns

end DocShell.Store
