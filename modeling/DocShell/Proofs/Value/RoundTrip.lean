import DocShell.Failure.Outcome
import DocShell.Proofs.Literal.Tree
import DocShell.Value.Plain

/-!
# JSON that is stored and shown again

A JSON value becomes a stored value by `Value.ofLiteral` and is shown by `Value.toJson`.
Nothing is lost on the way: numbers come back exactly, strings, keys and their order as
they were.  Only the wrappers of object ids are shown as the ids themselves, in small
letters (`Json.withPlainIds`), and a wrapper around a text that is no id is refused.
-/

namespace DocShell

namespace Json

/-! ## What is in a value -/

mutual

/-- The value itself and all values inside of it. -/
def parts : Json → List Json
  | .array items => .array items :: partsOfItems items
  | .object members => .object members :: partsOfMembers members
  | leaf => [leaf]

/-- The items and all values inside of them. -/
def partsOfItems : List Json → List Json
  | [] => []
  | item :: more => item.parts ++ partsOfItems more

/-- The values of members and all values inside of them. -/
def partsOfMembers : List (String × Json) → List Json
  | [] => []
  | (_, item) :: more => item.parts ++ partsOfMembers more

end

mutual

/-- The value with ids in small letters in the places of their wrappers. -/
def withPlainIds : Json → Json
  | .array items => .array (itemsWithPlainIds items)
  | .object [("$oid", .string text)] => .string (String.ofList (Text.lowercase text.toList))
  | .object members => .object (membersWithPlainIds members)
  | leaf => leaf

/-- The items with plain ids. -/
def itemsWithPlainIds : List Json → List Json
  | [] => []
  | item :: more => item.withPlainIds :: itemsWithPlainIds more

/-- The members with plain ids, under their keys. -/
def membersWithPlainIds : List (String × Json) → List (String × Json)
  | [] => []
  | (name, item) :: more => (name, item.withPlainIds) :: membersWithPlainIds more

end

/-- The numbers that JSON has: integers of 64 bits, with a sign or without one, and
finite doubles. -/
def Number.IsLegal : Number → Prop
  | .int n => -9223372036854775808 ≤ n ∧ n < 18446744073709551616
  | .float x => x.isFinite = true

/-- An object that consists of the key `$oid` with a text. -/
def idWrapper (text : String) : Json :=
  .object [("$oid", .string text)]

theorem withPlainIds_object {members : List (String × Json)}
    (hwrapper : ∀ text, members ≠ [("$oid", .string text)]) :
    withPlainIds (.object members) = .object (membersWithPlainIds members) := by
  rw [withPlainIds]
  exact fun text => hwrapper text

theorem idWrapper_mem_partsOfObject {text : String} {members : List (String × Json)}
    (hwrapper : ∀ text, members ≠ [("$oid", .string text)]) :
    idWrapper text ∈ parts (.object members) ↔ idWrapper text ∈ partsOfMembers members := by
  simp [parts, idWrapper, Ne.symm (hwrapper text)]

end Json

namespace Value

open Literal (isHexId idOf)

/-! ## Numbers -/

theorem toJson_ofInt {n : Int} (hfits : Text.fitsInt64 n = true) :
    (ofInt n).toJson = .number (.int n) := by
  unfold ofInt
  split
  · next hsmall =>
      rw [toJson, Text.toInt_ofInt32 hsmall]
      rfl
  · rw [toJson, Text.toInt_ofInt64 hfits]
    rfl

/-- A number is shown as it was written, unless it is an integer that only an unsigned
type holds. -/
theorem toJson_ofNumber {n : Json.Number} (hlegal : n.IsLegal)
    (hsmall : ∀ i, n = .int i → i ≤ 9223372036854775807) :
    (ofNumber n).toJson = .number n := by
  cases n with
  | int i =>
      have hfits : Text.fitsInt64 i = true :=
        Text.fitsInt64_iff.mpr ⟨hlegal.1, Int.lt_add_one_iff.mpr (hsmall i rfl)⟩
      rw [ofNumber, Json.Number.toInt64?, if_pos hfits]
      simp only [Text.toInt_ofInt64 hfits]
      exact toJson_ofInt hfits
  | float x =>
      have hfinite : x.isFinite = true := hlegal
      rw [ofNumber, Json.Number.toInt64?]
      simp only [Json.Number.toDouble, toJson]
      rw [Json.ofDouble, if_pos hfinite]

/-! ## Failures -/

/-- Some of the values is a wrapper of a text that is no id. -/
def HoldBadId (parts : List Json) : Prop :=
  ∃ text, Json.idWrapper text ∈ parts ∧ isHexId text = false

theorem holdBadId_append {front back : List Json} :
    HoldBadId (front ++ back) ↔ HoldBadId front ∨ HoldBadId back := by
  unfold HoldBadId
  simp only [List.mem_append, or_and_right, exists_or]

mutual

/-- Decoding fails where a wrapper holds a text that is no id, and nowhere else. -/
theorem ofLiteral_eq_error_iff : (v : Json) →
    ((∃ failure, ofLiteral v = .error failure) ↔ HoldBadId v.parts)
  | .null | .bool _ | .number _ | .string _ => by
      simp [ofLiteral, HoldBadId, Json.parts, Json.idWrapper]
  | .array items => by
      rw [ofLiteral, Outcome.map_eq_error_iff, ofLiteralItems_eq_error_iff items]
      simp [HoldBadId, Json.parts, Json.idWrapper]
  | .object members => by
      by_cases hwrapper : ∃ text, members = [("$oid", .string text)]
      · obtain ⟨text, rfl⟩ := hwrapper
        have hparts : HoldBadId (Json.parts (.object [("$oid", .string text)])) ↔
            isHexId text = false := by
          simp [HoldBadId, Json.parts, Json.partsOfMembers, Json.idWrapper]
        rw [ofLiteral, Outcome.map_eq_error_iff, Literal.readObjectId_eq, hparts]
        cases isHexId text <;> simp
      · rw [not_exists] at hwrapper
        rw [Literal.Tree.ofLiteral_object hwrapper, Outcome.map_eq_error_iff,
          ofLiteralMembers_eq_error_iff members]
        simp only [HoldBadId, Json.idWrapper_mem_partsOfObject hwrapper]

theorem ofLiteralItems_eq_error_iff : (items : List Json) →
    ((∃ failure, ofLiteralItems items = .error failure) ↔ HoldBadId (Json.partsOfItems items))
  | [] => by simp [ofLiteralItems, HoldBadId, Json.partsOfItems]
  | item :: more => by
      rw [Literal.Tree.ofLiteralItems_cons, Outcome.bind_map_eq_error_iff,
        ofLiteral_eq_error_iff item, ofLiteralItems_eq_error_iff more, Json.partsOfItems,
        holdBadId_append]

theorem ofLiteralMembers_eq_error_iff : (members : List (String × Json)) →
    ((∃ failure, ofLiteralMembers members = .error failure) ↔
      HoldBadId (Json.partsOfMembers members))
  | [] => by simp [ofLiteralMembers, HoldBadId, Json.partsOfMembers]
  | (name, item) :: more => by
      rw [Literal.Tree.ofLiteralMembers_cons, Outcome.bind_map_eq_error_iff,
        ofLiteral_eq_error_iff item, ofLiteralMembers_eq_error_iff more, Json.partsOfMembers,
        holdBadId_append]

end

/-! ## What is shown -/

/-- All numbers among the values are shown as they are. -/
def ShowNumbers (parts : List Json) : Prop :=
  ∀ n, .number n ∈ parts → (ofNumber n).toJson = .number n

theorem showNumbers_append {front back : List Json} (hshow : ShowNumbers (front ++ back)) :
    ShowNumbers front ∧ ShowNumbers back :=
  ⟨fun n hn => hshow n (List.mem_append_left back hn),
    fun n hn => hshow n (List.mem_append_right front hn)⟩

mutual

/-- What is decoded is shown as it was written, but for the ids. -/
theorem toJson_of_ofLiteral_eq_ok {value : Value} : (v : Json) → ShowNumbers v.parts →
    ofLiteral v = .ok value → value.toJson = v.withPlainIds
  | .null, _, hvalue | .bool _, _, hvalue | .string _, _, hvalue => by
      rw [ofLiteral] at hvalue
      cases hvalue
      rfl
  | .number n, hshow, hvalue => by
      rw [ofLiteral] at hvalue
      cases hvalue
      exact hshow n (by simp [Json.parts])
  | .array items, hshow, hvalue => by
      rw [ofLiteral, Outcome.map_eq_ok_iff] at hvalue
      obtain ⟨values, hvalues, rfl⟩ := hvalue
      have hitems : ShowNumbers (Json.partsOfItems items) :=
        fun n hn => hshow n (List.mem_cons_of_mem _ hn)
      rw [toJson, itemsToJson_of_ofLiteralItems_eq_ok items hitems hvalues]
      rfl
  | .object members, hshow, hvalue => by
      by_cases hwrapper : ∃ text, members = [("$oid", .string text)]
      · obtain ⟨text, rfl⟩ := hwrapper
        rw [ofLiteral, Literal.readObjectId_eq] at hvalue
        cases hid : isHexId text with
        | false => simp [hid, Except.map] at hvalue
        | true =>
            simp only [hid, if_true, Except.map, Except.ok.injEq] at hvalue
            rw [← hvalue, toJson, Literal.hex_idOf hid]
            rfl
      · rw [not_exists] at hwrapper
        rw [Literal.Tree.ofLiteral_object hwrapper, Outcome.map_eq_ok_iff] at hvalue
        obtain ⟨fields, hfields, rfl⟩ := hvalue
        have hmembers : ShowNumbers (Json.partsOfMembers members) :=
          fun n hn => hshow n (List.mem_cons_of_mem _ hn)
        rw [toJson, fieldsToJson_of_ofLiteralMembers_eq_ok members hmembers hfields,
          Json.withPlainIds_object hwrapper]

theorem itemsToJson_of_ofLiteralItems_eq_ok {values : List Value} : (items : List Json) →
    ShowNumbers (Json.partsOfItems items) → ofLiteralItems items = .ok values →
    itemsToJson values = Json.itemsWithPlainIds items
  | [], _, hvalues => by
      rw [ofLiteralItems] at hvalues
      cases hvalues
      rfl
  | item :: more, hshow, hvalues => by
      obtain ⟨hitem, hmore⟩ := showNumbers_append hshow
      rw [Literal.Tree.ofLiteralItems_cons, Outcome.bind_map_eq_ok_iff] at hvalues
      obtain ⟨value, rest, hvalue, hrest, rfl⟩ := hvalues
      rw [itemsToJson, Json.itemsWithPlainIds, toJson_of_ofLiteral_eq_ok item hitem hvalue,
        itemsToJson_of_ofLiteralItems_eq_ok more hmore hrest]

theorem fieldsToJson_of_ofLiteralMembers_eq_ok {fields : List (String × Value)} :
    (members : List (String × Json)) → ShowNumbers (Json.partsOfMembers members) →
    ofLiteralMembers members = .ok fields →
    fieldsToJson fields = Json.membersWithPlainIds members
  | [], _, hfields => by
      rw [ofLiteralMembers] at hfields
      cases hfields
      rfl
  | (name, item) :: more, hshow, hfields => by
      obtain ⟨hitem, hmore⟩ := showNumbers_append hshow
      rw [Literal.Tree.ofLiteralMembers_cons, Outcome.bind_map_eq_ok_iff] at hfields
      obtain ⟨value, rest, hvalue, hrest, rfl⟩ := hfields
      rw [fieldsToJson, Json.membersWithPlainIds, toJson_of_ofLiteral_eq_ok item hitem hvalue,
        fieldsToJson_of_ofLiteralMembers_eq_ok more hmore hrest]

end

/-- **What is stored is shown as it was written.**  Decoding a JSON value fails exactly
if some object in it is a wrapper of a text that is no id.  Otherwise the decoded value is
shown as the value itself, with the ids in small letters in the places of their wrappers. -/
theorem toJson_ofLiteral {v : Json} (hlegal : ∀ n, .number n ∈ v.parts → n.IsLegal)
    (hsmall : ∀ i, .number (.int i) ∈ v.parts → i ≤ 9223372036854775807) :
    ((∃ failure, ofLiteral v = .error failure) ↔
        ∃ text, Json.idWrapper text ∈ v.parts ∧ isHexId text = false) ∧
      ∀ value, ofLiteral v = .ok value → value.toJson = v.withPlainIds := by
  have hshow : ShowNumbers v.parts := by
    intro n hn
    refine toJson_ofNumber (hlegal n hn) fun i hi => hsmall i ?_
    rw [← hi]
    exact hn
  exact ⟨ofLiteral_eq_error_iff v, fun value hvalue => toJson_of_ofLiteral_eq_ok v hshow hvalue⟩

/-- Objects that only look like wrappers are kept, and integers and doubles keep apart. -/
theorem toJson_ofLiteral_lookalikes :
    (ofLiteral (.array
        [.object [("$oid", .string "65A1B2C3D4E5F60718293A4B")],
          .object [("$oid", .string "no id"), ("n", .number (.int 2147483648))],
          .object [("$oid", .object [("$oid", .string "ffffffffffffffffffffffff")])],
          .number (.float (Double.zero true))])).map toJson =
      .ok (.array
        [.string "65a1b2c3d4e5f60718293a4b",
          .object [("$oid", .string "no id"), ("n", .number (.int 2147483648))],
          .object [("$oid", .string "ffffffffffffffffffffffff")],
          .number (.float (Double.zero true))]) := by
  generalize hv : (Json.array _) = v
  have hnumbers : ∀ n, .number n ∈ v.parts →
      n = .int 2147483648 ∨ n = .float (Double.zero true) := by
    subst hv
    simp [Json.parts, Json.partsOfItems, Json.partsOfMembers]
  have hlegal : ∀ n, .number n ∈ v.parts → n.IsLegal := by
    intro n hn
    rcases hnumbers n hn with rfl | rfl
    · exact ⟨by decide, by decide⟩
    · rfl
  have hsmall : ∀ i, .number (.int i) ∈ v.parts → i ≤ 9223372036854775807 := by
    intro i hi
    rcases hnumbers _ hi with heq | heq
    · rw [Json.Number.int.inj heq]
      decide
    · cases heq
  have hshown := toJson_ofLiteral hlegal hsmall
  cases hread : ofLiteral v with
  | error failure =>
      refine absurd (hshown.1.mp ⟨failure, hread⟩) ?_
      subst hv
      have hids : isHexId "65A1B2C3D4E5F60718293A4B" = true ∧
          isHexId "ffffffffffffffffffffffff" = true := by decide
      simp [Json.parts, Json.partsOfItems, Json.partsOfMembers, Json.idWrapper, hids]
  | ok value =>
      rw [Except.map, hshown.2 value hread, ← hv]
      rfl

end Value

end DocShell
