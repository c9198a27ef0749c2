import DocShell.Proofs.Value.RoundTrip
import Mathlib.Data.List.Forall2

/-!
# What becomes of wrappers

`Value.ofExtended` takes every wrapper away and keeps all else as it stands: a value is read at
its place, an array keeps its length, and an object that is no wrapper keeps its keys
(`wrappers_unfolded`).  Where the only wrappers are those of object ids, `Value.ofLiteral` reads
the same (`readers_agree`).

## Strategy

A wrapper is read as a whole; arrays and other objects are read part by part.

* The parts that are read on their own are the value's `Json.inner`, and each stands where what
  it becomes stands in `Value.inner` (`kept_forall₂_inner`).
* A place further inside is a row of such steps (`part?`), so that what holds of one step holds
  at all places (`rel_part?`).
* A value fails by itself, as a wrapper, or for one of its parts (`ofExtended_eq_error_iff`);
  hence by induction on its size some wrapper inside is refused (`exists_refused`).
-/

namespace DocShell

/-- The names that tell a wrapper. -/
def Value.tellingNames : List String :=
  ["$date", "$oid", "$numberInt", "$numberLong", "$numberDouble", "$numberDecimal"]

/-- Some name of the fields tells a wrapper, whatever else they hold. -/
def Fields.IsWrapper {α : Type} (fields : Fields α) : Prop :=
  ∃ name ∈ Value.tellingNames, name ∈ fields.keys

instance {α : Type} (fields : Fields α) : Decidable fields.IsWrapper :=
  inferInstanceAs (Decidable (∃ name ∈ Value.tellingNames, name ∈ fields.keys))

/-- The values inside of a JSON value that are read on their own: the items of an array and
the members of an object that is no wrapper. -/
def Json.inner : Json → List Json
  | .array items => items
  | .object members => if Fields.IsWrapper members then [] else members.map Prod.snd
  | .null | .bool _ | .number _ | .string _ => []

/-- The values inside of a value: items, fields, and the scope of a code. -/
def Value.inner : Value → List Value
  | .array items => items
  | .document fields => fields.map Prod.snd
  | .javaScriptWithScope _ scope => [.document scope]
  | _ => []

/-! ## Places inside of values -/

/-- The part at a place.  Each number counts the values inside of the part that is reached so
far. -/
def part? {α : Type} (inner : α → List α) (whole : α) : List Nat → Option α
  | [] => some whole
  | i :: place =>
    match (inner whole)[i]? with
    | some part => part? inner part place
    | none => none

/-- What passes from two wholes to what stands inside of them holds at every place. -/
theorem rel_part? {α β : Type} {inner : α → List α} {inner' : β → List β} {R : α → β → Prop}
    (hstep : ∀ {x y}, R x y → List.Forall₂ R (inner x) (inner' y)) {x : α} {y : β} (hxy : R x y)
    (place : List Nat) : Option.Rel R (part? inner x place) (part? inner' y place) := by
  induction place generalizing x y with
  | nil => exact .some hxy
  | cons i place ih =>
      have hparts := List.forall₂_iff_get.mp (hstep hxy)
      simp only [part?]
      by_cases hi : i < (inner x).length
      · have hi' : i < (inner' y).length := hparts.1 ▸ hi
        rw [List.getElem?_eq_getElem hi, List.getElem?_eq_getElem hi']
        exact ih (hparts.2 i hi hi')
      · have hi' : ¬ i < (inner' y).length := hparts.1 ▸ hi
        rw [List.getElem?_eq_none (by omega), List.getElem?_eq_none (by omega)]
        exact .none

theorem sizeOf_lt_of_mem_inner {v part : Json} (hpart : part ∈ v.inner) :
    sizeOf part < sizeOf v := by
  cases v with
  | array items =>
      have hlt : sizeOf part < sizeOf items := List.sizeOf_lt_of_mem hpart
      simp only [Json.array.sizeOf_spec]
      omega
  | object members =>
      simp only [Json.inner] at hpart
      split at hpart
      · simp at hpart
      · obtain ⟨⟨name, member⟩, hmember, rfl⟩ := List.mem_map.mp hpart
        have hlt := List.sizeOf_lt_of_mem hmember
        simp only [Prod.mk.sizeOf_spec, Json.object.sizeOf_spec] at hlt ⊢
        omega
  | _ => simp [Json.inner] at hpart

namespace Value

variable {v : Json} {value : Value} {items : List Json} {members : Fields Json}
  {values : List Value} {fields : Document}

/-! ## Wrappers -/

/-- There is nothing inside of the value, and it is no document. -/
def IsLeaf (value : Value) : Prop :=
  value.inner = [] ∧ value.document? = none

theorem isLeaf_ofNumber (n : Json.Number) : IsLeaf (ofNumber n) := by
  rw [ofNumber]
  cases n.toInt64? with
  | none => exact ⟨rfl, rfl⟩
  | some i =>
      simp only [ofInt]
      split <;> exact ⟨rfl, rfl⟩

/-- The wrappers of one name: whatever is wrapped, it is a leaf. -/
theorem wrapper_of_get? {α : Type} {name : String} {inside : Json} {wrap : α → Value}
    (payload : Except ParseFailure α) (hname : name ∈ tellingNames)
    (hget : members.get? name = some inside) (hwrap : ∀ x, IsLeaf (wrap x)) :
    members.IsWrapper ∧ ∀ found, (payload.map fun x => some (wrap x)) = .ok found →
      ∃ value, found = some value ∧ IsLeaf value := by
  refine ⟨⟨name, hname, List.mem_map.mpr ⟨_, Fields.mem_of_get? hget, rfl⟩⟩, ?_⟩
  intro found hfound
  obtain ⟨x, -, rfl⟩ := Outcome.map_eq_ok_iff.mp hfound
  exact ⟨_, rfl, hwrap x⟩

/-- An object that is no wrapper stands for nothing, and a wrapper for a leaf unless it is
refused. -/
theorem ofWrapper_cases (members : Fields Json) :
    (¬ members.IsWrapper ∧ ofWrapper members = .ok none) ∨
      (members.IsWrapper ∧ ∀ found, ofWrapper members = .ok found →
        ∃ value, found = some value ∧ IsLeaf value) := by
  rw [ofWrapper]
  cases hdate : members.get? "$date" with
  | some _ => exact .inr (wrapper_of_get? _ (by decide) hdate fun _ => ⟨rfl, rfl⟩)
  | none =>
  cases hid : members.get? "$oid" with
  | some _ => exact .inr (wrapper_of_get? _ (by decide) hid fun _ => ⟨rfl, rfl⟩)
  | none =>
  cases hint : members.get? "$numberInt" with
  | some _ => exact .inr (wrapper_of_get? _ (by decide) hint fun _ => ⟨rfl, rfl⟩)
  | none =>
  cases hlong : members.get? "$numberLong" with
  | some _ => exact .inr (wrapper_of_get? _ (by decide) hlong fun _ => ⟨rfl, rfl⟩)
  | none =>
  cases hdouble : members.get? "$numberDouble" with
  | some _ => exact .inr (wrapper_of_get? _ (by decide) hdouble fun _ => ⟨rfl, rfl⟩)
  | none =>
  cases hdecimal : members.get? "$numberDecimal" with
  | some _ => exact .inr (wrapper_of_get? _ (by decide) hdecimal fun _ => ⟨rfl, rfl⟩)
  | none =>
      refine .inl ⟨?_, rfl⟩
      rintro ⟨name, hname, hkey⟩
      refine Fields.get?_eq_none_iff.mp ?_ hkey
      simp only [tellingNames, List.mem_cons, List.not_mem_nil, or_false] at hname
      rcases hname with rfl | rfl | rfl | rfl | rfl | rfl <;> assumption

theorem ofWrapper_of_plain (hplain : ¬ members.IsWrapper) : ofWrapper members = .ok none := by
  obtain ⟨-, hnone⟩ | ⟨hwrapper, -⟩ := ofWrapper_cases members
  · exact hnone
  · exact absurd hwrapper hplain

/-! ## One step down -/

theorem ofExtendedItems_eq_ok_iff :
    ofExtendedItems items = .ok values ↔
      List.Forall₂ (fun item value => ofExtended item = .ok value) items values := by
  induction items generalizing values with
  | nil => simp [ofExtendedItems, eq_comm]
  | cons item more ih =>
      rw [List.forall₂_cons_left_iff, ofExtendedItems]
      cases hitem : ofExtended item with
      | error failure => simp
      | ok value =>
          simp only [Outcome.map_eq_ok_iff, ih, Except.ok.injEq, exists_and_left]
          simp [eq_comm]

theorem ofExtendedItems_eq_error_iff :
    (∃ failure, ofExtendedItems items = .error failure) ↔
      ∃ item ∈ items, ∃ failure, ofExtended item = .error failure := by
  induction items with
  | nil => simp [ofExtendedItems]
  | cons item more ih =>
      rw [ofExtendedItems]
      cases hitem : ofExtended item with
      | error failure => simp [hitem]
      | ok value => simp [hitem, Outcome.map_eq_error, ih]

/-- Members are read like items, and keep their keys. -/
theorem ofExtendedMembers_eq (members : Fields Json) :
    ofExtendedMembers members =
      (ofExtendedItems (members.map Prod.snd)).map fun values => members.keys.zip values := by
  induction members with
  | nil => rfl
  | cons entry more ih =>
      obtain ⟨name, member⟩ := entry
      rw [ofExtendedMembers, List.map_cons, ofExtendedItems, ih]
      cases ofExtended member with
      | error failure => rfl
      | ok value =>
          cases ofExtendedItems (more.map Prod.snd) <;> rfl

theorem ofExtended_of_plain (hplain : ¬ members.IsWrapper) :
    ofExtended (.object members) =
      (ofExtendedItems (members.map Prod.snd)).map fun values =>
        .document (members.keys.zip values) := by
  rw [ofExtended, ofWrapper_of_plain hplain]
  simp only [ofExtendedMembers_eq]
  cases ofExtendedItems (members.map Prod.snd) <;> rfl

theorem ofExtended_of_wrapper (hwrapper : members.IsWrapper) :
    (∃ failure, ofWrapper members = .error failure ∧
        ofExtended (.object members) = .error failure) ∨
      ∃ value, ofWrapper members = .ok (some value) ∧ IsLeaf value ∧
        ofExtended (.object members) = .ok value := by
  obtain ⟨hplain, -⟩ | ⟨-, hleaf⟩ := ofWrapper_cases members
  · exact absurd hwrapper hplain
  · rw [ofExtended]
    cases hread : ofWrapper members with
    | error failure => exact .inl ⟨failure, rfl, rfl⟩
    | ok found =>
        obtain ⟨value, rfl, hvalue⟩ := hleaf found hread
        exact .inr ⟨value, rfl, hvalue, rfl⟩

/-- What is kept of a value when it is read, but for what stands inside of it. -/
inductive Kept : Json → Value → Prop
  | null : Kept .null .null
  | boolean (b : Bool) : Kept (.bool b) (.boolean b)
  | number (n : Json.Number) : Kept (.number n) (ofNumber n)
  | string (s : String) : Kept (.string s) (.string s)
  | array {items : List Json} {values : List Value} (hlength : values.length = items.length) :
      Kept (.array items) (.array values)
  | document {members : Fields Json} {fields : Document} (hplain : ¬ fields.IsWrapper)
      (hkeys : fields.keys = members.keys) : Kept (.object members) (.document fields)
  | wrapper {members : Fields Json} {value : Value}
      (hvalue : ofWrapper members = .ok (some value)) (hleaf : IsLeaf value) :
      Kept (.object members) value

/-- The value is what is read, and what can be kept of the other is kept. -/
structure Reads (v : Json) (value : Value) : Prop where
  read : ofExtended v = .ok value
  kept : Kept v value

/-- One step down, everything stands where it stood. -/
theorem kept_forall₂_inner (hread : ofExtended v = .ok value) :
    Kept v value ∧
      List.Forall₂ (fun part value => ofExtended part = .ok value) v.inner value.inner := by
  cases v with
  | number n =>
      obtain rfl : ofNumber n = value := by simpa [ofExtended] using hread
      refine ⟨.number n, ?_⟩
      rw [(isLeaf_ofNumber n).1]
      exact .nil
  | null | bool b | string s =>
      rw [ofExtended] at hread
      cases hread
      exact ⟨by constructor, .nil⟩
  | array items =>
      rw [ofExtended, Outcome.map_eq_ok_iff] at hread
      obtain ⟨values, hvalues, rfl⟩ := hread
      have hparts := ofExtendedItems_eq_ok_iff.mp hvalues
      exact ⟨.array hparts.length_eq.symm, hparts⟩
  | object members =>
      by_cases hwrapper : Fields.IsWrapper members
      · obtain ⟨failure, -, hfails⟩ | ⟨found, hfound, hleaf, hreads⟩ :=
          ofExtended_of_wrapper hwrapper
        · rw [hfails] at hread
          cases hread
        · obtain rfl : found = value := by simpa [hreads] using hread
          refine ⟨.wrapper hfound hleaf, ?_⟩
          rw [Json.inner, if_pos hwrapper, hleaf.1]
          exact .nil
      · rw [ofExtended_of_plain hwrapper, Outcome.map_eq_ok_iff] at hread
        obtain ⟨values, hvalues, rfl⟩ := hread
        have hparts := ofExtendedItems_eq_ok_iff.mp hvalues
        have hlength : (Fields.keys members).length = values.length := by
          simpa [Fields.keys] using hparts.length_eq
        have hkeys : Fields.keys ((Fields.keys members).zip values) = Fields.keys members :=
          List.map_fst_zip (Nat.le_of_eq hlength)
        refine ⟨.document ?_ hkeys, ?_⟩
        · rwa [Fields.IsWrapper, hkeys]
        · rw [Json.inner, if_neg hwrapper, inner,
            List.map_snd_zip (Nat.le_of_eq hlength.symm)]
          exact hparts

/-- A value fails by itself, as a wrapper, or for what stands inside of it. -/
theorem ofExtended_eq_error_iff :
    (∃ failure, ofExtended v = .error failure) ↔
      (∃ members failure, v = .object members ∧ ofWrapper members = .error failure) ∨
        ∃ part ∈ v.inner, ∃ failure, ofExtended part = .error failure := by
  cases v with
  | null | bool b | number n | string s => simp [ofExtended, Json.inner]
  | array items =>
      rw [ofExtended, Outcome.map_eq_error_iff, ofExtendedItems_eq_error_iff]
      simp [Json.inner]
  | object members =>
      by_cases hwrapper : Fields.IsWrapper members
      · obtain ⟨failure, hrefused, hfails⟩ | ⟨value, hfound, -, hreads⟩ :=
          ofExtended_of_wrapper hwrapper
        · simp [hrefused, hfails]
        · simp [hfound, hreads, Json.inner, hwrapper]
      · rw [ofExtended_of_plain hwrapper, Outcome.map_eq_error_iff, ofExtendedItems_eq_error_iff]
        simp [Json.inner, hwrapper, ofWrapper_of_plain hwrapper]

/-! ## All places -/

theorem Reads.inner (hreads : Reads v value) : List.Forall₂ Reads v.inner value.inner :=
  (kept_forall₂_inner hreads.read).2.imp fun _ _ hread => ⟨hread, (kept_forall₂_inner hread).1⟩

theorem Kept.plain (hkept : Kept v value) (hfields : value.document? = some fields) :
    ¬ fields.IsWrapper := by
  cases hkept with
  | document hplain _ =>
      cases hfields
      exact hplain
  | number n =>
      rw [(isLeaf_ofNumber n).2] at hfields
      cases hfields
  | wrapper _ hleaf =>
      rw [hleaf.2] at hfields
      cases hfields
  | null | boolean b | string s | array hlength => cases hfields

theorem exists_refused (v : Json) (hfails : ∃ failure, ofExtended v = .error failure) :
    ∃ place members failure, part? Json.inner v place = some (.object members) ∧
      ofWrapper members = .error failure := by
  obtain ⟨members, failure, rfl, hrefused⟩ | ⟨part, hpart, hfails⟩ :=
    ofExtended_eq_error_iff.mp hfails
  · exact ⟨[], members, failure, rfl, hrefused⟩
  · have hlt := sizeOf_lt_of_mem_inner hpart
    obtain ⟨place, members, failure, hplace, hrefused⟩ := exists_refused part hfails
    obtain ⟨i, hi⟩ := List.mem_iff_getElem?.mp hpart
    exact ⟨i :: place, members, failure, by rw [part?, hi]; exact hplace, hrefused⟩
termination_by sizeOf v

theorem fails_of_refused {place : List Nat} {failure : ParseFailure}
    (hplace : part? Json.inner v place = some (.object members))
    (hrefused : ofWrapper members = .error failure) :
    ∃ failure, ofExtended v = .error failure := by
  induction place generalizing v with
  | nil =>
      obtain rfl := Option.some.inj hplace
      exact ofExtended_eq_error_iff.mpr (.inl ⟨members, failure, rfl, hrefused⟩)
  | cons i place ih =>
      rw [part?] at hplace
      split at hplace
      · next part hpart =>
          exact ofExtended_eq_error_iff.mpr
            (.inr ⟨part, List.mem_of_getElem? hpart, ih hplace⟩)
      · cases hplace

/-- **Reading takes away the wrappers and nothing else.**  In what is read no document has a
name that tells a wrapper.  It has something at exactly the places where the value has something
outside of wrappers, and at each place it is what that part is read as: arrays stay as long as
they were, and objects that are no wrappers keep their keys in order.  Reading fails exactly if
some wrapper at such a place is refused. -/
theorem wrappers_unfolded (v : Json) :
    (∀ value, ofExtended v = .ok value →
        (∀ place fields, part? Value.inner value place = some (.document fields) →
          ¬ Fields.IsWrapper fields) ∧
        ∀ place, Option.Rel Reads (part? Json.inner v place) (part? Value.inner value place)) ∧
      ((∃ failure, ofExtended v = .error failure) ↔
        ∃ place members failure, part? Json.inner v place = some (.object members) ∧
          ofWrapper members = .error failure) := by
  refine ⟨fun value hread => ?_, exists_refused v, ?_⟩
  · have hall := rel_part? Reads.inner ⟨hread, (kept_forall₂_inner hread).1⟩
    refine ⟨fun place fields hfields => ?_, hall⟩
    have hplace := hall place
    rw [hfields] at hplace
    generalize part? Json.inner v place = part at hplace
    cases hplace with
    | some hreads => exact hreads.kept.plain rfl
  · rintro ⟨place, members, failure, hplace, hrefused⟩
    exact fails_of_refused hplace hrefused

/-- Of several names that tell a wrapper one counts, and what else it holds is gone.  A wrapper
that is refused makes the whole value fail at any depth. -/
theorem wrappers_unfolded_nested :
    let value : Value := .array [.document [("at", .dateTime 7), ("n", .array [])], .int64 5]
    (∀ place fields, part? Value.inner value place = some (.document fields) →
        ¬ Fields.IsWrapper fields) ∧
      ∃ failure,
        ofExtended (.array [.object [("a", .array [.null, .object [("$oid", .null)]])]]) =
          .error failure := by
  intro value
  constructor
  · refine ((wrappers_unfolded (.array
      [.object [("at", .object [("$oid", .null), ("$date", .number (.int 7))]),
          ("n", .array [])],
        .object [("$numberLong", .string " 5 "), ("more", .object [("a", .null)])]])).1 _ ?_).1
    rfl
  · exact (wrappers_unfolded _).2.mpr ⟨[0, 0, 1], [("$oid", .null)], _, rfl, rfl⟩

/-! ## Both readers -/

/-- All wrappers among the values are those of object ids, and nothing else stands beside the
ids. -/
def WrapOnlyIds (parts : List Json) : Prop :=
  ∀ members, .object members ∈ parts → Fields.IsWrapper members →
    ∃ text, members = [("$oid", .string text)]

theorem WrapOnlyIds.append {front back : List Json} (hids : WrapOnlyIds (front ++ back)) :
    WrapOnlyIds front ∧ WrapOnlyIds back :=
  ⟨fun members hmem => hids members (List.mem_append_left back hmem),
    fun members hmem => hids members (List.mem_append_right front hmem)⟩

theorem WrapOnlyIds.tail {part : Json} {parts : List Json} (hids : WrapOnlyIds (part :: parts)) :
    WrapOnlyIds parts :=
  fun members hmem => hids members (List.mem_cons_of_mem _ hmem)

theorem ofExtended_idWrapper (text : String) :
    ofExtended (.object [("$oid", .string text)]) =
      ofLiteral (.object [("$oid", .string text)]) := by
  rw [ofExtended, ofLiteral]
  cases hread : readObjectId text <;> simp [ofWrapper, Fields.get?, idPayload, hread, Except.map]

mutual

theorem ofExtended_eq_ofLiteral : (v : Json) → WrapOnlyIds v.parts → ofExtended v = ofLiteral v
  | .null, _ | .bool _, _ | .number _, _ | .string _, _ => by rw [ofExtended, ofLiteral]
  | .array items, hids => by
      rw [ofExtended, ofLiteral, ofExtendedItems_eq_ofLiteralItems items hids.tail]
  | .object members, hids => by
      by_cases hwrapper : Fields.IsWrapper members
      · obtain ⟨text, rfl⟩ := hids members (List.mem_cons_self ..) hwrapper
        exact ofExtended_idWrapper text
      · have hother : ∀ text, members ≠ [("$oid", .string text)] := by
          rintro text rfl
          exact hwrapper ⟨"$oid", by decide, by simp [Fields.keys]⟩
        rw [ofExtended, ofWrapper_of_plain hwrapper, Literal.Tree.ofLiteral_object hother]
        simp only [ofExtendedMembers_eq_ofLiteralMembers members hids.tail]

theorem ofExtendedItems_eq_ofLiteralItems : (items : List Json) →
    WrapOnlyIds (Json.partsOfItems items) → ofExtendedItems items = ofLiteralItems items
  | [], _ => by rw [ofExtendedItems, ofLiteralItems]
  | item :: more, hids => by
      rw [ofExtendedItems, ofLiteralItems, ofExtended_eq_ofLiteral item hids.append.1,
        ofExtendedItems_eq_ofLiteralItems more hids.append.2]

theorem ofExtendedMembers_eq_ofLiteralMembers : (members : List (String × Json)) →
    WrapOnlyIds (Json.partsOfMembers members) →
    ofExtendedMembers members = ofLiteralMembers members
  | [], _ => by rw [ofExtendedMembers, ofLiteralMembers]
  | (name, member) :: more, hids => by
      rw [ofExtendedMembers, ofLiteralMembers, ofExtended_eq_ofLiteral member hids.append.1,
        ofExtendedMembers_eq_ofLiteralMembers more hids.append.2]

end

/-- **The two readers agree where only ids are wrapped.**  If every object in a value with a name
that tells a wrapper consists of `$oid` and a text, both readers give the same value or the
same failure. -/
theorem readers_agree {v : Json}
    (hids : ∀ members, .object members ∈ v.parts → Fields.IsWrapper members →
      ∃ text, members = [("$oid", .string text)]) :
    ofExtended v = ofLiteral v :=
  ofExtended_eq_ofLiteral v hids

/-- Both readers find the same id that is none, behind one that is one. -/
theorem readers_agree_refused :
    ofExtended (.array
        [.object [("$oid", .string "65a1b2c3d4e5f60718293a4b")],
          .object [("owner", .object [("$oid", .string "nobody")])]]) =
      .error (.invalidObjectId "nobody") := by
  rw [readers_agree]
  · rfl
  · simp [Json.parts, Json.partsOfItems, Json.partsOfMembers, Fields.IsWrapper, tellingNames,
      Fields.keys]

end Value

end DocShell
