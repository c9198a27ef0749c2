/-!
# Named fields in order

Objects and documents are lists of named entries whose order is kept.  A name
stands once: `insert` replaces the value of a name in its place and puts a new
name at the end, and `ofList` builds the fields by inserting one entry after the
other, so that of a repeated name the first place and the last value remain.
-/

namespace DocShell

/-- Named entries in the order in which the names first came. -/
abbrev Fields (α : Type) : Type :=
  List (String × α)

namespace Fields

variable {α : Type}

/-- The value of a name. -/
def get? : Fields α → String → Option α
  | [], _ => none
  | (name, value) :: rest, key => if name = key then some value else get? rest key

/-- The name has a value. -/
def contains (fields : Fields α) (key : String) : Bool :=
  (fields.get? key).isSome

/-- The names, in order. -/
def keys (fields : Fields α) : List String :=
  fields.map Prod.fst

/-- Gives a name a value: in its place if the name is there, else at the end. -/
def insert : Fields α → String → α → Fields α
  | [], key, value => [(key, value)]
  | (name, old) :: rest, key, value =>
    if name = key then (name, value) :: rest else (name, old) :: insert rest key value

/-- The fields without a name; the order of the others is kept. -/
def erase (fields : Fields α) (key : String) : Fields α :=
  fields.filter fun entry => entry.1 ≠ key

/-- The fields that the entries give when they are inserted in order. -/
def ofList (entries : List (String × α)) : Fields α :=
  entries.foldl (fun fields entry => fields.insert entry.1 entry.2) []

@[simp] theorem get?_nil (key : String) : get? ([] : Fields α) key = none := rfl

theorem get?_insert (fields : Fields α) (key other : String) (value : α) :
    (fields.insert key value).get? other =
      if key = other then some value else fields.get? other := by
  induction fields with
  | nil => simp [insert, get?]
  | cons entry rest ih =>
      obtain ⟨name, old⟩ := entry
      by_cases hname : name = key
      · subst hname
        by_cases hother : name = other <;> simp [insert, get?, hother]
      · by_cases hother : name = other
        · subst hother
          simp [insert, get?, hname, Ne.symm hname]
        · simp [insert, get?, hname, hother, ih]

theorem get?_insert_self (fields : Fields α) (key : String) (value : α) :
    (fields.insert key value).get? key = some value := by
  rw [get?_insert, if_pos rfl]

theorem get?_erase (fields : Fields α) (key other : String) :
    (fields.erase key).get? other = if key = other then none else fields.get? other := by
  induction fields with
  | nil => simp [erase]
  | cons entry rest ih =>
      obtain ⟨name, old⟩ := entry
      simp only [erase] at ih ⊢
      by_cases hname : name = key
      · subst hname
        by_cases hother : name = other <;> simp_all [get?]
      · by_cases hother : name = other
        · subst hother
          simp [get?, hname, Ne.symm hname]
        · simp_all [get?]

theorem get?_eq_none_iff {fields : Fields α} {key : String} :
    fields.get? key = none ↔ key ∉ fields.keys := by
  induction fields with
  | nil => simp [keys]
  | cons entry rest ih =>
      obtain ⟨name, old⟩ := entry
      by_cases hname : name = key
      · simp [get?, keys, hname]
      · simpa [get?, keys, hname, Ne.symm hname] using ih

theorem mem_of_get? {fields : Fields α} {key : String} {value : α}
    (hget : fields.get? key = some value) : (key, value) ∈ fields := by
  induction fields with
  | nil => simp at hget
  | cons entry rest ih =>
      obtain ⟨name, old⟩ := entry
      by_cases hname : name = key
      · subst hname
        simp only [get?, if_true, Option.some.injEq] at hget
        simp [hget]
      · exact List.mem_cons_of_mem _ (ih (by simpa [get?, hname] using hget))

theorem get?_of_mem {fields : Fields α} {key : String} {value : α} (hkeys : fields.keys.Nodup)
    (hmem : (key, value) ∈ fields) : fields.get? key = some value := by
  induction fields with
  | nil => simp at hmem
  | cons entry rest ih =>
      obtain ⟨name, old⟩ := entry
      simp only [keys, List.map_cons, List.nodup_cons] at hkeys
      rcases List.mem_cons.mp hmem with heq | hmem
      · cases heq
        simp [get?]
      · have hne : name ≠ key := by
          rintro rfl
          exact hkeys.1 (List.mem_map.mpr ⟨_, hmem, rfl⟩)
        simpa [get?, hne] using ih hkeys.2 hmem

/-- A name that is there is given its own value without any change. -/
theorem insert_of_get? {fields : Fields α} {key : String} {value : α}
    (hget : fields.get? key = some value) : fields.insert key value = fields := by
  induction fields with
  | nil => simp at hget
  | cons entry rest ih =>
      obtain ⟨name, old⟩ := entry
      by_cases hname : name = key
      · simp only [get?, hname, if_true, Option.some.injEq] at hget
        simp [insert, hname, hget]
      · rw [insert, if_neg hname, ih (by simpa [get?, hname] using hget)]

theorem insert_insert (fields : Fields α) (key : String) (first second : α) :
    (fields.insert key first).insert key second = fields.insert key second := by
  induction fields with
  | nil => simp [insert]
  | cons entry rest ih =>
      obtain ⟨name, old⟩ := entry
      by_cases hname : name = key <;> simp [insert, hname, ih]

/-- A name that is not there is erased without any change. -/
theorem erase_of_get?_eq_none {fields : Fields α} {key : String} (hget : fields.get? key = none) :
    fields.erase key = fields := by
  refine List.filter_eq_self.mpr fun entry hentry => ?_
  have hkey := get?_eq_none_iff.mp hget
  have hne : entry.1 ≠ key := fun heq => hkey (heq ▸ List.mem_map.mpr ⟨entry, hentry, rfl⟩)
  simpa using hne

theorem keys_insert (fields : Fields α) (key : String) (value : α) :
    (fields.insert key value).keys =
      if key ∈ fields.keys then fields.keys else fields.keys ++ [key] := by
  induction fields with
  | nil => simp [insert, keys]
  | cons entry rest ih =>
      obtain ⟨name, old⟩ := entry
      by_cases hname : name = key
      · simp [insert, keys, hname]
      · simp only [keys] at ih ⊢
        by_cases hkey : key ∈ rest.map Prod.fst <;>
          simp [insert, hname, ih, hkey, Ne.symm hname]

theorem nodup_keys_insert {fields : Fields α} (hkeys : fields.keys.Nodup) (key : String)
    (value : α) : (fields.insert key value).keys.Nodup := by
  rw [keys_insert]
  split
  · exact hkeys
  · next hkey =>
      rw [List.nodup_append]
      exact ⟨hkeys, by simp, fun name hname other hother => by
        rw [List.mem_singleton] at hother
        rintro rfl
        exact hkey (hother ▸ hname)⟩

theorem mem_insert {fields : Fields α} {key : String} {value : α} {entry : String × α}
    (hmem : entry ∈ fields.insert key value) : entry ∈ fields ∨ entry = (key, value) := by
  induction fields with
  | nil => exact Or.inr (by simpa [insert] using hmem)
  | cons first rest ih =>
      obtain ⟨name, old⟩ := first
      by_cases hname : name = key
      · rw [insert, if_pos hname, List.mem_cons] at hmem
        rcases hmem with rfl | hmem
        · exact Or.inr (by rw [hname])
        · exact Or.inl (List.mem_cons_of_mem _ hmem)
      · rw [insert, if_neg hname, List.mem_cons] at hmem
        rcases hmem with rfl | hmem
        · exact Or.inl (List.mem_cons_self ..)
        · exact (ih hmem).imp_left (List.mem_cons_of_mem _)

theorem insert_of_not_mem {fields : Fields α} {key : String} (hkey : key ∉ fields.keys)
    (value : α) : fields.insert key value = fields ++ [(key, value)] := by
  induction fields with
  | nil => rfl
  | cons entry rest ih =>
      obtain ⟨name, old⟩ := entry
      simp only [keys, List.map_cons, List.mem_cons, not_or] at hkey
      rw [insert, if_neg (Ne.symm hkey.1), ih hkey.2, List.cons_append]

/-- Entries whose names differ are their own fields. -/
theorem ofList_of_nodup {entries : List (String × α)} (hkeys : (entries.map Prod.fst).Nodup) :
    ofList entries = entries := by
  -- Inserting goes on from the entries in front, whose names differ from the others too.
  have hfold : ∀ front : Fields α, ((front ++ entries).map Prod.fst).Nodup →
      entries.foldl (fun fields entry => fields.insert entry.1 entry.2) front =
        front ++ entries := by
    clear hkeys
    induction entries with
    | nil => simp
    | cons entry rest ih =>
        intro front hnodup
        have hfresh : entry.1 ∉ front.keys := by
          simp only [List.map_append, List.map_cons, List.nodup_append, List.mem_cons] at hnodup
          exact fun hmem => hnodup.2.2 entry.1 hmem entry.1 (Or.inl rfl) rfl
        rw [List.foldl_cons, insert_of_not_mem hfresh, ih]
        · simp
        · simpa using hnodup
  exact hfold [] hkeys

end Fields

end DocShell
