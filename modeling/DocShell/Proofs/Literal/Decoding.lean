import DocShell.Call.Argument
import DocShell.Proofs.Literal.Balance
import DocShell.Proofs.Literal.Normalization
import DocShell.Proofs.Literal.Tree

/-!
# Relaxed literals decode to what they mean

An argument passes three readers that know nothing of each other: the scan for
brackets, the pass that makes JSON of it, and the JSON reader.  Here their lemmas are
put together: every relaxed writing of a tree is read as what the tree means.

The first character decides the way.  Arrays, objects and strings go through all three
readers; the constants are recognized as they stand; a number is read as JSON at once;
a call of the object id constructor is no JSON and goes through the pass.
-/

namespace DocShell.Argument

open Literal (IsGap Style Written WrittenMember)

/-- The JSON reader finds the written value behind the pass. -/
theorem read_normalize {value : Json} {text : List Char} (hwritten : Written .relaxed value text)
    (hdepth : value.depth ≤ Json.maxDepth) : Json.read (Literal.normalize text) = .ok value := by
  obtain ⟨written, hstrict, hpass⟩ :=
    Literal.normalize_written hwritten Literal.isGap_nil Literal.isGap_nil
  have hread := Json.read_written hstrict Literal.isGap_nil Literal.isGap_nil hdepth
  simp only [List.nil_append, List.append_nil] at hpass hread
  rw [hpass, hread]

theorem readContainer_written {value : Json} {text : List Char}
    (hwritten : Written .relaxed value text) (hdepth : value.depth ≤ Json.maxDepth) :
    readContainer text = Value.ofLiteral value := by
  rw [readContainer, Literal.checkBalanced_written hwritten]
  simp only [Literal.read, Json.ofText, read_normalize hwritten hdepth]
  rfl

theorem readString_written {s : String} {text : List Char}
    (hwritten : Written .relaxed (.string s) text) : readString text = .ok (.string s) := by
  rw [readString, Literal.checkBalanced_written hwritten]
  simp only [read_normalize hwritten (Nat.zero_le _)]

/-- A text that is none of the constants is a number or a call. -/
theorem readScalar_eq {c : Char} (more : List Char) (hc : c ∉ ['t', 'f', 'n']) :
    readScalar (c :: more) =
      match Json.read (c :: more) with
      | .ok (.number n) => .ok (Value.ofNumber n)
      | _ =>
        if (Text.behind? Literal.objectIdName (c :: more)).isSome then readObjectIdCall (c :: more)
        else invalid (c :: more)
          "expected an object, array, string, number, boolean, null or ObjectId(...)" := by
  simp only [List.mem_cons, List.not_mem_nil, or_false, not_or] at hc
  have hne : ∀ d rest, c ≠ d → (c :: more == d :: rest) = false := by
    intro d rest hd
    simp [hd]
  have htrue : (c :: more == "true".toList) = false := hne 't' _ hc.1
  have hfalse : (c :: more == "false".toList) = false := hne 'f' _ hc.2.1
  have hnull : (c :: more == "null".toList) = false := hne 'n' _ hc.2.2
  rw [readScalar, htrue, hfalse, hnull]
  rfl

theorem readScalar_number {n : Int} {c : Char} {more : List Char}
    (hwritten : Written .json (.number (.int n)) (c :: more)) (hc : c ∉ ['t', 'f', 'n']) :
    readScalar (c :: more) = .ok (Value.ofNumber (.int n)) := by
  have hread := Json.read_written hwritten Literal.isGap_nil Literal.isGap_nil (Nat.zero_le _)
  simp only [List.nil_append, List.append_nil] at hread
  rw [readScalar_eq more hc, hread]

theorem readScalar_call {value : Json} {text : List Char} (behind : List Char)
    (hwritten : Written .relaxed value text) (hname : text = Literal.objectIdName ++ behind)
    (hdepth : value.depth ≤ Json.maxDepth) : readScalar text = Value.ofLiteral value := by
  obtain ⟨more, hcons⟩ : ∃ more, text = 'O' :: more := ⟨_, hname⟩
  have hbehind : (Text.behind? Literal.objectIdName text).isSome = true := by
    rw [Text.behind?_eq_some_iff.mpr hname]
    rfl
  have hnot : Json.read text =
      Json.failNext .expectedValue text := by
    rw [hcons]
    rfl
  have hcall : readObjectIdCall text = Value.ofLiteral value := by
    rw [readObjectIdCall, read_normalize hwritten hdepth]
  rw [hcons] at hbehind hnot hcall ⊢
  rw [readScalar_eq more (by decide), hnot, if_pos hbehind, hcall]
  rfl

/-- Gaps around a writing are trimmed, and nothing else is. -/
theorem trim_written {value : Json} {lead text trail : List Char}
    (hwritten : Written .relaxed value text) (hlead : IsGap lead) (htrail : IsGap trail) :
    Text.trim (lead ++ (text ++ trail)) = text := by
  obtain ⟨c, more, htext, hopens⟩ := hwritten.head
  exact Text.trim_append (fun d hd => Literal.isBlank_of_isSpace (hlead d hd))
    (fun d hd => Literal.isBlank_of_isSpace (htrail d hd)) ⟨c, more, htext, hopens.isBlank_eq⟩
    hwritten.last

theorem readTrimmed_int {n : Int} {c : Char} {more : List Char}
    (hwritten : Written .json (.number (.int n)) (c :: more)) (hc : c = '-' ∨ c.isDigit = true) :
    startsContainer (c :: more) = false ∧ startsString (c :: more) = false ∧
      readScalar (c :: more) = .ok (Value.ofNumber (.int n)) := by
  have hne : c ∉ ['{', '[', '"', '\'', 't', 'f', 'n'] := by
    intro hmem
    simp only [List.mem_cons, List.not_mem_nil, or_false] at hmem
    rcases hmem with rfl | rfl | rfl | rfl | rfl | rfl | rfl <;>
      rcases hc with hc | hc <;> simp at hc
  simp only [List.mem_cons, List.not_mem_nil, or_false, not_or] at hne
  refine ⟨?_, ?_, readScalar_number hwritten (by simp [hne])⟩
  · unfold startsContainer
    split <;> simp_all
  · simp [startsString, Text.isQuote, hne]

/-- **A relaxed writing is read as the JSON that it writes.** -/
theorem read_written {value : Json} {lead text trail : List Char}
    (hwritten : Written .relaxed value text) (hlead : IsGap lead) (htrail : IsGap trail)
    (hdepth : value.depth ≤ Json.maxDepth) :
    read (lead ++ (text ++ trail)) = Value.ofLiteral value := by
  rw [read, trim_written hwritten hlead htrail]
  -- The whole writing is kept: the readers take it again from its first character.
  have hwhole := hwritten
  cases hwritten with
  | null => rfl
  | yes => rfl
  | no => rfl
  | @int n hlow hhigh =>
      have hstrict : Written .json (.number (.int n)) (Text.intDigits n) := .int hlow hhigh
      cases hdigits : Text.intDigits n with
      | nil => exact absurd hdigits (Literal.intDigits_ne_nil n)
      | cons c more =>
          have hc : c ∈ Text.intDigits n := by
            rw [hdigits]
            exact List.mem_cons_self
          rw [hdigits] at hstrict
          obtain ⟨hcontainer, hstring, hread⟩ :=
            readTrimmed_int hstrict (Literal.mem_intDigits hc)
          rw [hcontainer, hstring, hread]
          rfl
  | string hquote _ =>
      rcases hquote.eq_or with rfl | rfl
      · exact readString_written hwhole
      · exact readString_written hwhole
  | emptyArray | array | emptyObject | object => exact readContainer_written hwhole hdepth
  | call => exact readScalar_call _ hwhole rfl hdepth

/-- **Relaxed literals decode to what they were written for**: to the stored value of
the tree if all its ids are rows of 24 hexadecimal digits, and else to the failure of
the first that is none.  This holds for every way of writing the tree. -/
theorem read_relaxed {t : Literal.Tree} {lead text trail : List Char}
    (hplain : t.isPlain = true) (hdepth : t.depth < Json.maxDepth)
    (hwritten : Written .relaxed t.toJson text) (hlead : IsGap lead) (htrail : IsGap trail) :
    read (lead ++ (text ++ trail)) = t.outcome := by
  have hjson : t.toJson.depth ≤ Json.maxDepth :=
    Nat.le_trans t.depth_toJson_le hdepth
  rw [read_written hwritten hlead htrail hjson, t.ofLiteral_toJson hplain]

theorem read_relaxed_mixed :
    read (" \x7b $or: ['it\\'s', \"\x7bb: 1\x7d\", -1], ".toList ++
        "_id : ObjectId( 'ffffffffffffffffffffffff')\x7d".toList) =
      .ok (.document
        [("$or", .array [.string "it's", .string "\x7bb: 1\x7d", .int32 (-1)]),
          ("_id", .objectId ⟨List.replicate 24 15, rfl⟩)]) := by
  have hspace : IsGap [' '] := by simp [IsGap, Json.isSpace]
  have hsingle : Written .relaxed (.string "it's") _ :=
    .string (Or.inr ⟨rfl, rfl⟩) (.raw (by decide) (by decide) (by decide)
      (.raw (by decide) (by decide) (by decide) (.apostrophe rfl
        (Literal.spells_raw '\'' (show ∀ c ∈ ['s'], _ by simp)))))
  have hdouble : Written .relaxed (.string "\x7bb: 1\x7d") _ :=
    .string (Or.inl rfl)
      (Literal.spells_raw '"' (show ∀ c ∈ ['{', 'b', ':', ' ', '1', '}'], _ by simp))
  have hint : Written .relaxed (.number (.int (-1))) ['-', '1'] := .int (by decide) (by decide)
  have harray := Written.array (.more Literal.isGap_nil hsingle Literal.isGap_nil
    (.more hspace hdouble Literal.isGap_nil (.last hspace hint Literal.isGap_nil)))
  have hcall := Written.call (Eq.refl Style.relaxed) (show Text.isQuote '\'' = true by decide)
    (show ∀ c ∈ List.replicate 24 'f', _ by simp [Text.isQuote]) Literal.isGap_nil hspace
    Literal.isGap_nil
  have hor : WrittenMember .relaxed ("$or", _) _ :=
    .mk (.bare rfl rfl (List.all_eq_true.mp rfl)) Literal.isGap_nil hspace harray
  have hid : WrittenMember .relaxed ("_id", _) _ :=
    .mk (.bare rfl rfl (List.all_eq_true.mp rfl)) hspace hspace hcall
  have hwritten := Written.object (by decide) (.more hspace hor Literal.isGap_nil
    (.last hspace hid Literal.isGap_nil))
  let t : Literal.Tree := .object
    [("$or", .array [.string "it's", .string "\x7bb: 1\x7d", .int (-1)]),
      ("_id", .objectId "ffffffffffffffffffffffff")]
  have hread := read_relaxed (t := t) (by decide) (by decide) hwritten hspace Literal.isGap_nil
  have houtcome : t.outcome = .ok (.document
      [("$or", .array [.string "it's", .string "\x7bb: 1\x7d", .int32 (-1)]),
        ("_id", .objectId ⟨List.replicate 24 15, rfl⟩)]) := by rfl
  rw [houtcome] at hread
  exact hread

end DocShell.Argument
