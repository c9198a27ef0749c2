import DocShell.Proofs.Json.Completeness
import DocShell.Text.Pieces
import DocShell.Value.Extended
import Mathlib.Tactic.IntervalCases

/-!
# What literals mean

A `Tree` is a value as the writer of a literal thinks of it: object ids are leaves of
their own, and an id is any text that was put between the quotes, so it need not be
one.  `Tree.toJson` is the same value with its ids in wrappers, and `Tree.outcome` says
what decoding has to give: the stored value, or the failure of the first text, in the
order of writing, that is not an object id.

`Value.ofLiteral` gives just that for every tree in which no object looks like a
wrapper.  What the leaves become is said beside them: an id has the digits of its text
in small letters (`hex_idOf`), and a whole number the narrower of two types that holds it
(`ofInt_eq_int32_iff`, `ofInt_eq_int64_iff`).
-/

namespace DocShell.Literal

/-- A value as it is meant in a literal. -/
inductive Tree where
  | null
  | bool (b : Bool)
  | int (n : Int64)
  | string (s : String)
  | objectId (content : String)
  | array (items : List Tree)
  | object (members : List (String × Tree))

namespace Tree

mutual

/-- The tree as JSON, with the ids in wrappers. -/
def toJson : Tree → Json
  | .null => .null
  | .bool b => .bool b
  | .int n => .number (.int n.toInt)
  | .string s => .string s
  | .objectId content => .object [("$oid", .string content)]
  | .array items => .array (toJsonItems items)
  | .object members => .object (toJsonMembers members)

/-- The items as JSON. -/
def toJsonItems : List Tree → List Json
  | [] => []
  | item :: more => item.toJson :: toJsonItems more

/-- The members as JSON. -/
def toJsonMembers : List (String × Tree) → List (String × Json)
  | [] => []
  | (name, item) :: more => (name, item.toJson) :: toJsonMembers more

end

mutual

/-- How many arrays and objects stand around the deepest leaf. -/
def depth : Tree → Nat
  | .array items => depthOfItems items + 1
  | .object members => depthOfMembers members + 1
  | _ => 0

/-- The greatest depth of an item. -/
def depthOfItems : List Tree → Nat
  | [] => 0
  | item :: more => max item.depth (depthOfItems more)

/-- The greatest depth of the value of a member. -/
def depthOfMembers : List (String × Tree) → Nat
  | [] => 0
  | (_, item) :: more => max item.depth (depthOfMembers more)

end

mutual

/-- No object consists of the key `$oid` with a string. -/
def isPlain : Tree → Bool
  | .array items => isPlainItems items
  | .object [("$oid", .string _)] => false
  | .object members => isPlainMembers members
  | _ => true

/-- No object in the items looks like a wrapper. -/
def isPlainItems : List Tree → Bool
  | [] => true
  | item :: more => item.isPlain && isPlainItems more

/-- No object in the members looks like a wrapper. -/
def isPlainMembers : List (String × Tree) → Bool
  | [] => true
  | (_, item) :: more => item.isPlain && isPlainMembers more

end

mutual

/-- The contents of the ids, in the order in which they are written. -/
def ids : Tree → List String
  | .objectId content => [content]
  | .array items => idsOfItems items
  | .object members => idsOfMembers members
  | _ => []

/-- The contents of the ids in the items. -/
def idsOfItems : List Tree → List String
  | [] => []
  | item :: more => item.ids ++ idsOfItems more

/-- The contents of the ids in the members. -/
def idsOfMembers : List (String × Tree) → List String
  | [] => []
  | (_, item) :: more => item.ids ++ idsOfMembers more

end

end Tree

/-! ## Texts of object ids -/

/-- A figure, or a letter from `a` to `f` in either case. -/
def isHexDigit (c : Char) : Bool :=
  c.isDigit || ('a' ≤ c && c ≤ 'f') || ('A' ≤ c && c ≤ 'F')

/-- The text is a row of 24 hexadecimal digits. -/
def isHexId (text : String) : Bool :=
  text.toList.length == 24 && text.toList.all isHexDigit

/-- The object id with the digits of a text. -/
def idOf (text : String) : ObjectId :=
  (ObjectId.read? text.toList).getD default

theorem digit?_of_isHexDigit {c : Char} (hc : isHexDigit c = true) :
    ∃ d, ObjectId.digit? c = some d := by
  have hvalue : ∃ n, Text.hexValue? c = some n ∧ n < 16 := by
    simp only [isHexDigit, Char.isDigit, Bool.or_eq_true, Bool.and_eq_true, decide_eq_true_eq,
      ge_iff_le, Char.le_def, UInt32.le_iff_toNat_le, Char.toNat_val, Char.reduceToNat] at hc
    simp only [Text.hexValue?, Char.isDigit, Bool.and_eq_true, decide_eq_true_eq, ge_iff_le,
      Char.le_def, UInt32.le_iff_toNat_le, Char.toNat_val, Char.reduceToNat]
    split
    · exact ⟨_, rfl, by omega⟩
    · split
      · exact ⟨_, rfl, by omega⟩
      · rw [if_pos (by omega)]
        exact ⟨_, rfl, by omega⟩
  obtain ⟨n, hvalue, hn⟩ := hvalue
  exact ⟨⟨n, hn⟩, by rw [ObjectId.digit?, hvalue]; exact dif_pos hn⟩

theorem digit?_of_not_isHexDigit {c : Char} (hc : isHexDigit c = false) :
    ObjectId.digit? c = none := by
  simp only [isHexDigit, Bool.or_eq_false_iff] at hc
  simp [ObjectId.digit?, Text.hexValue?, hc]

theorem mapM_digit?_of_all {text : List Char} (hall : text.all isHexDigit = true) :
    ∃ digits, text.mapM ObjectId.digit? = some digits ∧ digits.length = text.length := by
  induction text with
  | nil => exact ⟨[], rfl, rfl⟩
  | cons c text ih =>
      simp only [List.all_cons, Bool.and_eq_true] at hall
      obtain ⟨d, hd⟩ := digit?_of_isHexDigit hall.1
      obtain ⟨digits, hdigits, hlength⟩ := ih hall.2
      refine ⟨d :: digits, ?_, by simp [hlength]⟩
      simp [List.mapM_cons, hd, hdigits]

theorem mapM_digit?_of_not_all {text : List Char} (hall : text.all isHexDigit = false) :
    text.mapM ObjectId.digit? = none := by
  induction text with
  | nil => contradiction
  | cons c text ih =>
      cases hc : isHexDigit c with
      | false => simp [List.mapM_cons, digit?_of_not_isHexDigit hc]
      | true =>
          have htext : text.all isHexDigit = false := by simpa [hc] using hall
          obtain ⟨d, hd⟩ := digit?_of_isHexDigit hc
          simp [List.mapM_cons, hd, ih htext]

/-- **Exactly the rows of 24 hexadecimal digits are object ids.** -/
theorem readObjectId_eq (text : String) :
    Value.readObjectId text =
      if isHexId text then .ok (idOf text) else .error (.invalidObjectId text) := by
  have hread : (ObjectId.read? text.toList).isSome = isHexId text := by
    cases hall : text.toList.all isHexDigit with
    | false => simp [ObjectId.read?, isHexId, mapM_digit?_of_not_all hall, hall]
    | true =>
        obtain ⟨digits, hdigits, hlength⟩ := mapM_digit?_of_all hall
        rw [ObjectId.read?, hdigits, isHexId, hall, ← hlength]
        by_cases hcount : digits.length = 24 <;> simp [ObjectId.ofDigits?, hcount]
  rw [Value.readObjectId, idOf, ← hread]
  cases ObjectId.read? text.toList <;> rfl

/-- The hexadecimal digits. -/
def hexDigits : List Char :=
  "0123456789abcdefABCDEF".toList

theorem mem_hexDigits {c : Char} (hc : isHexDigit c = true) : c ∈ hexDigits := by
  have hcode : c = Char.ofNat c.toNat := (Char.ofNat_toNat c).symm
  simp only [isHexDigit, Char.isDigit, Bool.or_eq_true, Bool.and_eq_true, decide_eq_true_eq,
    ge_iff_le, Char.le_def, UInt32.le_iff_toNat_le, Char.toNat_val, Char.reduceToNat] at hc
  generalize c.toNat = n at hc hcode
  subst hcode
  rcases hc with (⟨hlow, hhigh⟩ | ⟨hlow, hhigh⟩) | ⟨hlow, hhigh⟩ <;> interval_cases n <;> decide

theorem digitChar_of_isHexDigit {c : Char} (hc : isHexDigit c = true) :
    (ObjectId.digit? c).map ObjectId.digitChar = some c.toLower := by
  have hall : (hexDigits.all fun c =>
      (ObjectId.digit? c).map ObjectId.digitChar == some c.toLower) = true := by decide
  exact beq_iff_eq.mp (List.all_eq_true.mp hall c (mem_hexDigits hc))

theorem map_digitChar {text : List Char} (hall : text.all isHexDigit = true)
    {digits : List (Fin 16)} (hdigits : text.mapM ObjectId.digit? = some digits) :
    digits.map ObjectId.digitChar = Text.lowercase text := by
  induction text generalizing digits with
  | nil =>
      obtain rfl : digits = [] := by simpa using hdigits.symm
      rfl
  | cons c text ih =>
      simp only [List.all_cons, Bool.and_eq_true] at hall
      obtain ⟨d, hd, hlower⟩ := Option.map_eq_some_iff.mp (digitChar_of_isHexDigit hall.1)
      obtain ⟨more, hmore, -⟩ := mapM_digit?_of_all hall.2
      obtain rfl : digits = d :: more := by
        simpa [List.mapM_cons, hd, hmore] using hdigits.symm
      rw [List.map_cons, hlower, ih hall.2 hmore]
      rfl

/-- An id is shown with the digits of its text in small letters. -/
theorem hex_idOf {text : String} (htext : isHexId text = true) :
    (idOf text).hex = String.ofList (Text.lowercase text.toList) := by
  simp only [isHexId, Bool.and_eq_true, beq_iff_eq] at htext
  obtain ⟨digits, hdigits, hlength⟩ := mapM_digit?_of_all htext.2
  have hcount : digits.length = 24 := hlength.trans htext.1
  have hid : idOf text = ⟨digits, hcount⟩ := by
    simp [idOf, ObjectId.read?, hdigits, ObjectId.ofDigits?, hcount]
  rw [hid, ObjectId.hex, map_digitChar htext.2 hdigits]

/-! ## Whole numbers -/

/-- A number is stored with 32 bits exactly if it has no more. -/
theorem ofInt_eq_int32_iff {n : Int} {k : Int32} : Value.ofInt n = .int32 k ↔ k.toInt = n := by
  unfold Value.ofInt
  constructor
  · split
    · next hshort =>
        rintro ⟨⟩
        exact Text.toInt_ofInt32 hshort
    · nofun
  · rintro rfl
    rw [if_pos (Text.fitsInt32_toInt k), Int32.ofInt_toInt]

/-- All other numbers of 64 bits are stored with 64. -/
theorem ofInt_eq_int64_iff {n k : Int64} :
    Value.ofInt n.toInt = .int64 k ↔ k = n ∧ (n.toInt < -2147483648 ∨ 2147483648 ≤ n.toInt) := by
  have hlong : Text.fitsInt32 n.toInt = false ↔
      n.toInt < -2147483648 ∨ 2147483648 ≤ n.toInt := by
    rw [← Bool.not_eq_true, Text.fitsInt32_iff]
    omega
  rw [← hlong, Value.ofInt, Int64.ofInt_toInt]
  cases Text.fitsInt32 n.toInt <;> simp [eq_comm]

namespace Tree

/-! ## Decoding -/

mutual

/-- The stored value that a tree means. -/
def value : Tree → Value
  | .null => .null
  | .bool b => .boolean b
  | .int n => .ofInt n.toInt
  | .string s => .string s
  | .objectId content => .objectId (idOf content)
  | .array items => .array (valueOfItems items)
  | .object members => .document (valueOfMembers members)

/-- The stored values of items. -/
def valueOfItems : List Tree → List Value
  | [] => []
  | item :: more => item.value :: valueOfItems more

/-- The stored values of members, under their keys. -/
def valueOfMembers : List (String × Tree) → List (String × Value)
  | [] => []
  | (name, item) :: more => (name, item.value) :: valueOfMembers more

end

/-- The result, if all texts are object ids, and else the failure of the first that is
none. -/
def checked {α : Type} (ids : List String) (result : α) : Except ParseFailure α :=
  match ids.find? fun text => !isHexId text with
  | none => .ok result
  | some text => .error (.invalidObjectId text)

/-- What decoding the tree has to give. -/
def outcome (t : Tree) : Except ParseFailure Value :=
  checked t.ids t.value

theorem checked_map {α β : Type} (ids : List String) (result : α) (f : α → β) :
    (checked ids result).map f = checked ids (f result) := by
  unfold checked
  split <;> rfl

/-- Checking one part after the other is checking the whole. -/
theorem checked_append {α β γ : Type} (front back : List String) (x : α) (y : β)
    (f : α → β → γ) :
    ((checked front x).bind fun x => (checked back y).map (f x)) =
      checked (front ++ back) (f x y) := by
  unfold checked
  rw [List.find?_append]
  cases front.find? fun text => !isHexId text with
  | some text => rfl
  | none =>
      cases hback : back.find? fun text => !isHexId text <;> rfl

theorem ofNumber_int64 (n : Int64) : Value.ofNumber (.int n.toInt) = .ofInt n.toInt := by
  have hint : Json.Number.toInt64? (.int n.toInt) = some n := by
    rw [Json.Number.toInt64?, if_pos (Text.fitsInt64_toInt n), Int64.ofInt_toInt]
  rw [Value.ofNumber, hint]

/-- Only a string becomes a string, so no plain object turns into a wrapper. -/
theorem toJsonMembers_ne_wrapper {members : List (String × Tree)}
    (hplain : isPlain (.object members) = true) :
    isPlainMembers members = true ∧
      ∀ text, toJsonMembers members ≠ [("$oid", .string text)] := by
  refine ⟨?_, ?_⟩
  · unfold isPlain at hplain
    split at hplain <;> simp_all
  · intro text hwrapper
    match members with
    | [] => simp [toJsonMembers] at hwrapper
    | (name, item) :: [] =>
        cases item <;> simp [toJsonMembers, toJson] at hwrapper
        obtain ⟨rfl, -⟩ := hwrapper
        simp [isPlain] at hplain
    | (_, _) :: (_, _) :: _ => simp [toJsonMembers] at hwrapper

theorem ofLiteralItems_cons (item : Json) (more : List Json) :
    Value.ofLiteralItems (item :: more) = (Value.ofLiteral item).bind fun value =>
      (Value.ofLiteralItems more).map (value :: ·) := by
  rw [Value.ofLiteralItems]
  cases Value.ofLiteral item <;> rfl

theorem ofLiteralMembers_cons (name : String) (item : Json) (more : List (String × Json)) :
    Value.ofLiteralMembers ((name, item) :: more) = (Value.ofLiteral item).bind fun value =>
      (Value.ofLiteralMembers more).map ((name, value) :: ·) := by
  rw [Value.ofLiteralMembers]
  cases Value.ofLiteral item <;> rfl

theorem ofLiteral_object {members : List (String × Json)}
    (hwrapper : ∀ text, members ≠ [("$oid", .string text)]) :
    Value.ofLiteral (.object members) = (Value.ofLiteralMembers members).map .document := by
  rw [Value.ofLiteral]
  exact fun text => hwrapper text

mutual

/-- **Decoding gives what the tree means.** -/
theorem ofLiteral_toJson : (t : Tree) → t.isPlain = true →
    Value.ofLiteral t.toJson = t.outcome
  | .null, _ => by rw [toJson, Value.ofLiteral]; rfl
  | .bool b, _ => by rw [toJson, Value.ofLiteral]; rfl
  | .int n, _ => by rw [toJson, Value.ofLiteral, ofNumber_int64]; rfl
  | .string s, _ => by rw [toJson, Value.ofLiteral]; rfl
  | .objectId content, _ => by
      rw [toJson, Value.ofLiteral, readObjectId_eq, outcome, ids, checked, List.find?_singleton]
      cases isHexId content <;> rfl
  | .array items, hplain => by
      rw [toJson, Value.ofLiteral, ofLiteralItems_toJson items hplain, checked_map]
      rfl
  | .object members, hplain => by
      obtain ⟨hmembers, hwrapper⟩ := toJsonMembers_ne_wrapper hplain
      rw [toJson, ofLiteral_object hwrapper, ofLiteralMembers_toJson members hmembers, checked_map]
      rfl

theorem ofLiteralItems_toJson : (items : List Tree) → isPlainItems items = true →
    Value.ofLiteralItems (toJsonItems items) = checked (idsOfItems items) (valueOfItems items)
  | [], _ => by rw [toJsonItems, Value.ofLiteralItems]; rfl
  | item :: more, hplain => by
      simp only [isPlainItems, Bool.and_eq_true] at hplain
      rw [toJsonItems, ofLiteralItems_cons, ofLiteral_toJson item hplain.1,
        ofLiteralItems_toJson more hplain.2]
      exact checked_append item.ids (idsOfItems more) item.value (valueOfItems more) (· :: ·)

theorem ofLiteralMembers_toJson : (members : List (String × Tree)) →
    isPlainMembers members = true → Value.ofLiteralMembers (toJsonMembers members) =
      checked (idsOfMembers members) (valueOfMembers members)
  | [], _ => by rw [toJsonMembers, Value.ofLiteralMembers]; rfl
  | (name, item) :: more, hplain => by
      simp only [isPlainMembers, Bool.and_eq_true] at hplain
      rw [toJsonMembers, ofLiteralMembers_cons, ofLiteral_toJson item hplain.1,
        ofLiteralMembers_toJson more hplain.2]
      exact checked_append item.ids (idsOfMembers more) item.value (valueOfMembers more)
        fun value fields => (name, value) :: fields

end

mutual

/-- The wrapper of an id is one object more. -/
theorem depth_toJson_le : (t : Tree) → t.toJson.depth ≤ t.depth + 1
  | .null | .bool _ | .int _ | .string _ => Nat.zero_le _
  | .objectId _ => Nat.le_refl _
  | .array items => Nat.succ_le_succ (depthOfItems_toJson_le items)
  | .object members => Nat.succ_le_succ (depthOfMembers_toJson_le members)

theorem depthOfItems_toJson_le : (items : List Tree) →
    Json.depthOfItems (toJsonItems items) ≤ depthOfItems items + 1
  | [] => Nat.zero_le _
  | item :: more => by
      have hitem := depth_toJson_le item
      have hmore := depthOfItems_toJson_le more
      simp only [toJsonItems, Json.depthOfItems, depthOfItems]
      omega

theorem depthOfMembers_toJson_le : (members : List (String × Tree)) →
    Json.depthOfMembers (toJsonMembers members) ≤ depthOfMembers members + 1
  | [] => Nat.zero_le _
  | (_, item) :: more => by
      have hitem := depth_toJson_le item
      have hmore := depthOfMembers_toJson_le more
      simp only [toJsonMembers, Json.depthOfMembers, depthOfMembers]
      omega

end

end Tree

end DocShell.Literal
