import DocShell.Value.Basic
import Mathlib.Data.List.Nodup
import Mathlib.Data.List.Perm.Subperm

/-!
# Equality of well-formed values

`Value.same` compares two documents by looking every field of the first up in the
second.  That this is symmetric is not a matter of shape: it holds because a document
has every name once, so that a document with as many names as another, all of them
found there, has the other's names altogether.

* `Value.WellFormed`: no name stands twice, at any depth;
* `Value.same_symm`: equality of content is symmetric on well-formed values;
* `Value.same_trans`: it is transitive on all values;
* `Value.same_self`: a well-formed value equals itself unless there is a NaN in it;
* `Value.same_document_iff`: documents are the same if they read alike under every name.
-/

namespace DocShell

theorem Double.same_comm (x y : Double) : x.same y = y.same x := by
  unfold Double.same
  rw [Bool.and_comm (!x.isNaN), Bool.and_comm x.isZero, BEq.comm (a := x)]

theorem Double.same_trans {x y z : Double} (hxy : x.same y = true) (hyz : y.same z = true) :
    x.same z = true := by
  simp only [Double.same, Bool.and_eq_true, Bool.or_eq_true, Bool.not_eq_true', beq_iff_eq]
    at hxy hyz ⊢
  refine ⟨⟨hxy.1.1, hyz.1.2⟩, ?_⟩
  rcases hxy.2 with rfl | hzero
  · exact hyz.2
  · rcases hyz.2 with rfl | hzero'
    · exact Or.inr hzero
    · exact Or.inr ⟨hzero.1, hzero'.2⟩

namespace Value

mutual

/-- No name stands twice, in the value itself or in a value inside. -/
def WellFormed : Value → Prop
  | .document fields | .javaScriptWithScope _ fields =>
    (Fields.keys fields).Nodup ∧ FieldsWellFormed fields
  | .array items => ItemsWellFormed items
  | _ => True

/-- All items are well formed. -/
def ItemsWellFormed : List Value → Prop
  | [] => True
  | item :: more => WellFormed item ∧ ItemsWellFormed more

/-- The values of all fields are well formed. -/
def FieldsWellFormed : List (String × Value) → Prop
  | [] => True
  | (_, value) :: more => WellFormed value ∧ FieldsWellFormed more

end

theorem fieldsWellFormed_iff {fields : List (String × Value)} :
    FieldsWellFormed fields ↔ ∀ entry ∈ fields, entry.2.WellFormed := by
  induction fields with
  | nil => simp [FieldsWellFormed]
  | cons entry more ih => simp [FieldsWellFormed, ih]

theorem wellFormed_of_mem {fields : List (String × Value)} (hfields : FieldsWellFormed fields)
    {entry : String × Value} (hentry : entry ∈ fields) : entry.2.WellFormed :=
  fieldsWellFormed_iff.mp hfields entry hentry

theorem itemsWellFormed_iff {items : List Value} :
    ItemsWellFormed items ↔ ∀ item ∈ items, item.WellFormed := by
  induction items with
  | nil => simp [ItemsWellFormed]
  | cons item more ih => simp [ItemsWellFormed, ih]

theorem wellFormed_of_isNumber {value : Value} (hnumber : value.isNumber = true) :
    value.WellFormed := by
  cases value <;> trivial

/-! ### Fields that agree -/

theorem sameFields_iff {fields other : List (String × Value)} :
    sameFields fields other = true ↔
      ∀ entry ∈ fields, ∃ value, Fields.get? other entry.1 = some value ∧
        entry.2.same value = true := by
  induction fields with
  | nil => simp [sameFields]
  | cons entry more ih =>
      obtain ⟨name, value⟩ := entry
      cases hget : Fields.get? other name <;> simp [sameFields, hget, ih]

/-- Two sets of names of one size, of which one is part of the other, are the same. -/
theorem keys_subset_of_sameFields {fields other : List (String × Value)}
    (hkeys : (Fields.keys fields).Nodup) (hlength : fields.length = other.length)
    (hsame : sameFields fields other = true) : Fields.keys other ⊆ Fields.keys fields := by
  have hsubset : Fields.keys fields ⊆ Fields.keys other := by
    intro name hname
    obtain ⟨entry, hentry, rfl⟩ := List.mem_map.mp hname
    obtain ⟨value, hget, -⟩ := sameFields_iff.mp hsame entry hentry
    exact List.mem_map.mpr ⟨_, Fields.mem_of_get? hget, rfl⟩
  have hperm : (Fields.keys fields).Perm (Fields.keys other) :=
    (hkeys.subperm hsubset).perm_of_length_le (by simp [Fields.keys, hlength])
  exact hperm.symm.subset

/-- Fields that agree one way agree the other way, if their values do. -/
theorem sameFields_symm {fields other : List (String × Value)}
    (hkeys : (Fields.keys fields).Nodup) (hother : (Fields.keys other).Nodup)
    (hlength : fields.length = other.length)
    (hvalues : ∀ entry ∈ fields, ∀ entry' ∈ other,
      entry.2.same entry'.2 = true → entry'.2.same entry.2 = true)
    (hsame : sameFields fields other = true) : sameFields other fields = true := by
  rw [sameFields_iff]
  intro entry' hentry'
  -- The name of the entry stands in the other fields too, and what is found there is equal.
  have hname : entry'.1 ∈ Fields.keys fields :=
    keys_subset_of_sameFields hkeys hlength hsame (List.mem_map.mpr ⟨entry', hentry', rfl⟩)
  obtain ⟨entry, hentry, heq⟩ := List.mem_map.mp hname
  obtain ⟨value, hget, hvalue⟩ := sameFields_iff.mp hsame entry hentry
  rw [heq, Fields.get?_of_mem hother hentry', Option.some.injEq] at hget
  subst hget
  exact ⟨entry.2, Fields.get?_of_mem hkeys (heq ▸ hentry),
    hvalues entry hentry entry' hentry' hvalue⟩

/-- The type has parts or is that of doubles, so that two of its values may be the same
without being equal. -/
def isLoose : Value → Bool
  | .double _ | .document _ | .array _ | .javaScriptWithScope _ _ => true
  | _ => false

theorem eq_of_same {a b : Value} (ha : a.isLoose = false) (hsame : a.same b = true) : a = b := by
  unfold same at hsame
  split at hsame <;> simp_all [isLoose]

/-! ### Symmetry -/

mutual

/-- Equality of content is symmetric. -/
theorem same_symm (a b : Value) (ha : a.WellFormed) (hb : b.WellFormed)
    (hsame : a.same b = true) : b.same a = true := by
  cases a with
  | document fields =>
      cases b with
      | document other =>
          simp only [same, Bool.and_eq_true, beq_iff_eq] at hsame ⊢
          exact ⟨hsame.1.symm, sameFields_symm ha.1 hb.1 hsame.1
            (sameValues_symm fields other ha.2 hb.2) hsame.2⟩
      | _ => simp [same] at hsame
  | javaScriptWithScope code scope =>
      cases b with
      | javaScriptWithScope code' other =>
          simp only [same, Bool.and_eq_true, beq_iff_eq] at hsame ⊢
          exact ⟨⟨hsame.1.1.symm, hsame.1.2.symm⟩, sameFields_symm ha.1 hb.1 hsame.1.2
            (sameValues_symm scope other ha.2 hb.2) hsame.2⟩
      | _ => simp [same] at hsame
  | array items =>
      cases b with
      | array other => exact sameItems_symm items other ha hb hsame
      | _ => simp [same] at hsame
  | double x =>
      cases b with
      | double y => rwa [same, Double.same_comm] at hsame
      | _ => simp [same] at hsame
  | _ =>
      obtain rfl := eq_of_same rfl hsame
      exact hsame

theorem sameItems_symm (items other : List Value) (hitems : ItemsWellFormed items)
    (hother : ItemsWellFormed other) (hsame : sameItems items other = true) :
    sameItems other items = true := by
  cases items with
  | nil => cases other <;> simp_all [sameItems]
  | cons item more =>
      cases other with
      | nil => simp [sameItems] at hsame
      | cons item' more' =>
          simp only [sameItems, Bool.and_eq_true] at hsame ⊢
          exact ⟨same_symm item item' hitems.1 hother.1 hsame.1,
            sameItems_symm more more' hitems.2 hother.2 hsame.2⟩

theorem sameValues_symm (fields other : List (String × Value)) (hfields : FieldsWellFormed fields)
    (hother : FieldsWellFormed other) :
    ∀ entry ∈ fields, ∀ entry' ∈ other,
      entry.2.same entry'.2 = true → entry'.2.same entry.2 = true := by
  cases fields with
  | nil => simp
  | cons first more =>
      obtain ⟨name, value⟩ := first
      intro entry hentry entry' hentry' hsame
      rcases List.mem_cons.mp hentry with rfl | hentry
      · exact same_symm value entry'.2 hfields.1 (wellFormed_of_mem hother hentry') hsame
      · exact sameValues_symm more other hfields.2 hother entry hentry entry' hentry' hsame

end

/-! ### Transitivity -/

/-- What the first fields have is found in the second ones, and so in the third ones, if
their values may be compared in two steps. -/
theorem sameFields_trans {fields other third : List (String × Value)}
    (hvalues : ∀ entry ∈ fields, ∀ b c, entry.2.same b = true → b.same c = true →
      entry.2.same c = true)
    (hsame : sameFields fields other = true) (hsame' : sameFields other third = true) :
    sameFields fields third = true := by
  rw [sameFields_iff] at hsame hsame' ⊢
  intro entry hentry
  obtain ⟨b, hb, hab⟩ := hsame entry hentry
  obtain ⟨c, hc, hbc⟩ := hsame' _ (Fields.mem_of_get? hb)
  exact ⟨c, hc, hvalues entry hentry b c hab hbc⟩

mutual

/-- Equality of content is transitive. -/
theorem same_trans (a b c : Value) (hab : a.same b = true) (hbc : b.same c = true) :
    a.same c = true := by
  cases a with
  | document fields =>
      cases b with
      | document other =>
          cases c with
          | document third =>
              simp only [same, Bool.and_eq_true, beq_iff_eq] at hab hbc ⊢
              exact ⟨hab.1.trans hbc.1, sameFields_trans (sameValues_trans fields) hab.2 hbc.2⟩
          | _ => simp [same] at hbc
      | _ => simp [same] at hab
  | javaScriptWithScope code scope =>
      cases b with
      | javaScriptWithScope code' other =>
          cases c with
          | javaScriptWithScope code'' third =>
              simp only [same, Bool.and_eq_true, beq_iff_eq] at hab hbc ⊢
              exact ⟨⟨hab.1.1.trans hbc.1.1, hab.1.2.trans hbc.1.2⟩,
                sameFields_trans (sameValues_trans scope) hab.2 hbc.2⟩
          | _ => simp [same] at hbc
      | _ => simp [same] at hab
  | array items =>
      cases b with
      | array other =>
          cases c with
          | array third => exact sameItems_trans items other third hab hbc
          | _ => simp [same] at hbc
      | _ => simp [same] at hab
  | double x =>
      cases b with
      | double y =>
          cases c with
          | double z => exact Double.same_trans hab hbc
          | _ => simp [same] at hbc
      | _ => simp [same] at hab
  | _ =>
      obtain rfl := eq_of_same rfl hab
      exact hbc

theorem sameItems_trans (items other third : List Value) (hsame : sameItems items other = true)
    (hsame' : sameItems other third = true) : sameItems items third = true := by
  cases items with
  | nil => cases other <;> simp_all [sameItems]
  | cons item more =>
      cases other with
      | nil => simp [sameItems] at hsame
      | cons item' more' =>
          cases third with
          | nil => simp [sameItems] at hsame'
          | cons item'' more'' =>
              simp only [sameItems, Bool.and_eq_true] at hsame hsame' ⊢
              exact ⟨same_trans item item' item'' hsame.1 hsame'.1,
                sameItems_trans more more' more'' hsame.2 hsame'.2⟩

theorem sameValues_trans (fields : List (String × Value)) :
    ∀ entry ∈ fields, ∀ b c, entry.2.same b = true → b.same c = true →
      entry.2.same c = true := by
  cases fields with
  | nil => simp
  | cons first more =>
      obtain ⟨name, value⟩ := first
      intro entry hentry b c hab hbc
      rcases List.mem_cons.mp hentry with rfl | hentry
      · exact same_trans value b c hab hbc
      · exact sameValues_trans more entry hentry b c hab hbc

end

/-! ### Values that equal themselves -/

mutual

/-- Neither the value nor a value inside is a double that is not a number. -/
def NaNFree : Value → Prop
  | .double x => x.isNaN = false
  | .document fields | .javaScriptWithScope _ fields => FieldsNaNFree fields
  | .array items => ItemsNaNFree items
  | _ => True

/-- No item has a NaN. -/
def ItemsNaNFree : List Value → Prop
  | [] => True
  | item :: more => NaNFree item ∧ ItemsNaNFree more

/-- The value of no field has a NaN. -/
def FieldsNaNFree : List (String × Value) → Prop
  | [] => True
  | (_, value) :: more => NaNFree value ∧ FieldsNaNFree more

end

theorem naNFree_of_mem {fields : List (String × Value)} (hfields : FieldsNaNFree fields)
    {entry : String × Value} (hentry : entry ∈ fields) : entry.2.NaNFree := by
  induction fields with
  | nil => cases hentry
  | cons first more ih =>
      rcases List.mem_cons.mp hentry with rfl | hmem
      · exact hfields.1
      · exact ih hfields.2 hmem

theorem sameFields_self {fields : List (String × Value)} (hkeys : (Fields.keys fields).Nodup)
    (hvalues : ∀ entry ∈ fields, entry.2.same entry.2 = true) :
    sameFields fields fields = true :=
  sameFields_iff.mpr fun entry hentry =>
    ⟨entry.2, Fields.get?_of_mem hkeys hentry, hvalues entry hentry⟩

mutual

/-- A value without a NaN equals itself. -/
theorem same_self (a : Value) (ha : a.WellFormed) (hnan : a.NaNFree) : a.same a = true := by
  cases a with
  | document fields =>
      simp only [same, beq_self_eq_true, Bool.true_and]
      exact sameFields_self ha.1 (sameValues_self fields ha.2 hnan)
  | javaScriptWithScope code scope =>
      simp only [same, beq_self_eq_true, Bool.true_and]
      exact sameFields_self ha.1 (sameValues_self scope ha.2 hnan)
  | array items => exact sameItems_self items ha hnan
  | double x =>
      have hx : x.isNaN = false := hnan
      simp [same, Double.same, hx]
  | _ => simp [same]

theorem sameItems_self (items : List Value) (hitems : ItemsWellFormed items)
    (hnan : ItemsNaNFree items) : sameItems items items = true := by
  cases items with
  | nil => rfl
  | cons item more =>
      simp only [sameItems, Bool.and_eq_true]
      exact ⟨same_self item hitems.1 hnan.1, sameItems_self more hitems.2 hnan.2⟩

theorem sameValues_self (fields : List (String × Value)) (hfields : FieldsWellFormed fields)
    (hnan : FieldsNaNFree fields) : ∀ entry ∈ fields, entry.2.same entry.2 = true := by
  cases fields with
  | nil => simp
  | cons first more =>
      obtain ⟨name, value⟩ := first
      intro entry hentry
      rcases List.mem_cons.mp hentry with rfl | hentry
      · exact same_self value hfields.1 hnan.1
      · exact sameValues_self more hfields.2 hnan.2 entry hentry

end

/-! ### Documents, read by name -/

/-- Nothing was read twice, or two values of the same content. -/
def Alike (a b : Option Value) : Prop :=
  Option.Rel (fun x y => x.same y = true) a b

theorem Alike.eq_none_iff {a b : Option Value} (halike : Alike a b) : a = none ↔ b = none := by
  cases halike <;> simp

theorem Alike.exists_same {a : Value} {b : Option Value} (halike : Alike (some a) b) :
    ∃ value, b = some value ∧ a.same value = true := by
  cases halike with
  | some hsame => exact ⟨_, rfl, hsame⟩

/-- Two documents are the same exactly if they read alike under every name. -/
theorem same_document_iff {doc doc' : Document} (hdoc : (Value.document doc).WellFormed)
    (hdoc' : (Value.document doc').WellFormed) :
    (Value.document doc).same (.document doc') = true ↔
      ∀ key, Alike (doc.get? key) (doc'.get? key) := by
  simp only [same, Bool.and_eq_true, beq_iff_eq]
  constructor
  · rintro ⟨hlength, hsame⟩ key
    cases hget : doc.get? key with
    | none =>
        have hkey := Fields.get?_eq_none_iff.mp hget
        have hnone : doc'.get? key = none := Fields.get?_eq_none_iff.mpr fun hmem =>
          hkey (keys_subset_of_sameFields hdoc.1 hlength hsame hmem)
        rw [hnone]
        exact .none
    | some value =>
        obtain ⟨value', hget', hvalue⟩ := sameFields_iff.mp hsame _ (Fields.mem_of_get? hget)
        rw [hget']
        exact .some hvalue
  · intro halike
    constructor
    · have hperm : doc.keys.Perm doc'.keys :=
        (List.perm_ext_iff_of_nodup hdoc.1 hdoc'.1).mpr fun key => by
          rw [← not_iff_not, ← Fields.get?_eq_none_iff, ← Fields.get?_eq_none_iff]
          exact (halike key).eq_none_iff
      simpa [Fields.keys] using hperm.length_eq
    · rw [sameFields_iff]
      intro entry hentry
      have hread := halike entry.1
      rw [Fields.get?_of_mem hdoc.1 hentry] at hread
      exact hread.exists_same

end Value

end DocShell
