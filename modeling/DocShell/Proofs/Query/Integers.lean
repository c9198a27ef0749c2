import DocShell.Proofs.Query.Distinct
import DocShell.Proofs.Query.Ranges
import DocShell.Proofs.Value.Quantity

/-!
# Integers in queries

Two integers are compared as the doubles nearest to them, whichever types they have.  The
order of values decides everything else: what an equality and a range operator select, and
what distinct takes for one value (`comparedAs_of_order`).  So queries tell two integers
apart exactly if `Double.nearest` does, which is so in any case if one of them has at most
53 binary digits.
-/

namespace DocShell.Value

open DocShell.Filter (holds isOperator single)

variable {a b : Value} {n m : Int}

/-! ### Integers as numbers -/

theorem order_of_toInt? (ha : a.toInt? = some n) (hb : b.toInt? = some m) :
    a.order b = compare (Double.nearest n) (Double.nearest m) := by
  obtain ⟨hnumber, hdouble, hn⟩ := double_of_toInt? ha
  obtain ⟨hnumber', hdouble', hm⟩ := double_of_toInt? hb
  calc a.order b = a.toDouble.order b.toDouble := order_of_isNumber hnumber hnumber'
    _ = (Double.ofInt n).order (Double.ofInt m) := by rw [hdouble, hdouble']
    _ = compare (Double.nearest n) (Double.nearest m) := Double.order_ofInt hn hm

/-- The values are compared as the integers `n` and `m`: by the order, by the equality and
the ranges of filters, and by distinct. -/
structure ComparedAs (a b : Value) (n m : Int) : Prop where
  order : a.order b = compare n m
  equality : ∀ doc path, isOperator path = false → Path.get? doc path = some a →
    holds doc [(path, b)] = .ok (decide (n = m))
  ranges : ∀ doc path, isOperator path = false → Path.get? doc path = some a →
    holds doc (single path "$gt" b) = .ok (decide (m < n)) ∧
      holds doc (single path "$gte" b) = .ok (decide (m ≤ n)) ∧
      holds doc (single path "$lt" b) = .ok (decide (n < m)) ∧
      holds doc (single path "$lte" b) = .ok (decide (n ≤ m))
  distinct : ∀ path docs, a ∈ Distinct.found path docs → b ∈ Distinct.found path docs →
    (Distinct.Merges path docs a b ↔ n = m)

/-! ### What follows from the order -/

/-- A field that holds one number meets what the order says of it. -/
theorem compares_of_isNumber (ha : a.isNumber = true) (hb : b.isNumber = true)
    (accept : Ordering → Bool) : Filter.compares (some a) b accept = accept (a.order b) := by
  have hcomparable : a.comparable b = true := by simp [comparable, ha, hb]
  cases a <;> first | simp [Filter.compares, hcomparable]; done | cases ha

theorem equals_of_isNumber (ha : a.isNumber = true) (hb : b.isNumber = true) :
    Filter.equals (some a) b = (a.order b == .eq) := by
  have hmatching : a.matching b = (a.order b == .eq) := by simp [matching, ha, hb]
  cases a <;> first | exact hmatching | cases ha

theorem merges_iff_of_isNumber {path : String} {docs : List Document} (ha : a.isNumber = true)
    (hb : b.isNumber = true) (hfound : a ∈ Distinct.found path docs) :
    Distinct.Merges path docs a b ↔ a.order b = .eq := by
  rw [order_of_isNumber ha hb, Int.compare_eq_eq]
  constructor
  · rintro ⟨value, -, hvalue, hvalue'⟩
    exact ((matching_iff_of_isNumber ha).mp hvalue).2.symm.trans
      ((matching_iff_of_isNumber hb).mp hvalue').2
  · intro hrank
    rcases Distinct.covers_values hfound with hkept | ⟨value, hkept, hvalue⟩
    · exact ⟨a, hkept, (matching_iff_of_isNumber ha).mpr ⟨ha, rfl⟩,
        (matching_iff_of_isNumber hb).mpr ⟨ha, hrank⟩⟩
    · obtain ⟨hnumber, hsame⟩ := (matching_iff_of_isNumber ha).mp hvalue
      exact ⟨value, hkept, hvalue,
        (matching_iff_of_isNumber hb).mpr ⟨hnumber, hsame.trans hrank⟩⟩

theorem operators?_of_isNumber (hb : b.isNumber = true) : Filter.operators? b = none := by
  cases b <;> first | rfl | cases hb

theorem comparedAs_of_order (ha : a.isNumber = true) (hb : b.isNumber = true)
    (horder : a.order b = compare n m) : ComparedAs a b n m := by
  have hrange : ∀ doc path (accept : Ordering → Bool), Path.get? doc path = some a →
      Filter.compares (Path.get? doc path) b accept = accept (compare n m) := by
    intro doc path accept hfield
    rw [hfield, compares_of_isNumber ha hb, horder]
  have hsingle : ∀ doc path op, isOperator path = false → op ∈ Filter.rangeOperators →
      holds doc (single path op b) = .ok (Filter.meets (Path.get? doc path) op b) := by
    intro doc path op hpath hop
    have hfree : ∀ op ∈ Filter.rangeOperators, op ∈ Filter.freeOperators := by decide
    exact Filter.holds_single doc hpath (Or.inl (hfree op hop))
  refine ⟨horder, fun doc path hpath hfield => ?_, fun doc path hpath hfield => ?_,
    fun path docs hfound _ => ?_⟩
  · rw [Filter.holds_field doc hpath, Filter.holdsField, operators?_of_isNumber hb, hfield,
      equals_of_isNumber ha hb, horder]
    rw [Except.ok.injEq, Bool.eq_iff_iff, beq_iff_eq, Int.compare_eq_eq, decide_eq_true_eq]
  · have hgt := hrange doc path (· == .gt) hfield
    have hgte := hrange doc path (· != .lt) hfield
    have hlt := hrange doc path (· == .lt) hfield
    have hlte := hrange doc path (· != .gt) hfield
    rw [hsingle doc path "$gt" hpath (by decide), hsingle doc path "$gte" hpath (by decide),
      hsingle doc path "$lt" hpath (by decide), hsingle doc path "$lte" hpath (by decide)]
    refine ⟨congrArg _ (hgt.trans ?_), congrArg _ (hgte.trans ?_), congrArg _ (hlt.trans ?_),
      congrArg _ (hlte.trans ?_)⟩
    all_goals
      rw [Bool.eq_iff_iff]
      simp [Int.compare_eq_gt, Int.compare_eq_lt]
  · rw [merges_iff_of_isNumber ha hb hfound, horder, Int.compare_eq_eq]

/-! ### Integers as doubles -/

/-- **Integers are compared as the doubles nearest to them.**  Order, equality, ranges and
distinct see them as those, and as what they are exactly if the two are equal whenever their
nearest ones are.  One of them with at most 53 binary digits is enough for that. -/
theorem integers_compared_as_doubles (ha : a.toInt? = some n) (hb : b.toInt? = some m) :
    ComparedAs a b (Double.nearest n) (Double.nearest m) ∧
      (ComparedAs a b n m ↔ (Double.nearest n = Double.nearest m → n = m)) ∧
      (n.natAbs < Nat.pow 2 53 ∨ m.natAbs < Nat.pow 2 53 → ComparedAs a b n m) := by
  have horder : a.order b = compare (Double.nearest n) (Double.nearest m) := order_of_toInt? ha hb
  have hnumber : a.isNumber = true := (double_of_toInt? ha).1
  have hnumber' : b.isNumber = true := (double_of_toInt? hb).1
  have hexact : ComparedAs a b n m ↔ (Double.nearest n = Double.nearest m → n = m) := by
    rw [← Double.compare_nearest_eq_iff, ← horder]
    exact ⟨ComparedAs.order, comparedAs_of_order hnumber hnumber'⟩
  refine ⟨comparedAs_of_order hnumber hnumber' horder, hexact, fun hshort => hexact.mpr ?_⟩
  intro heq
  rcases hshort with hn | hm
  · exact Double.eq_of_nearest_eq hn heq
  · exact (Double.eq_of_nearest_eq hm heq.symm).symm

/-- An integer with 54 binary digits beside a short one of the other type. -/
theorem integers_compared_as_doubles_short :
    (Value.int64 9007199254740993).toInt? = some 9007199254740993 ∧
      (Value.int32 7).toInt? = some 7 ∧
      ComparedAs (.int64 9007199254740993) (.int32 7) 9007199254740993 7 := by
  have hlong : (Value.int64 9007199254740993).toInt? = some 9007199254740993 := by decide
  have hshort : (Value.int32 7).toInt? = some 7 := by decide
  exact ⟨hlong, hshort, (integers_compared_as_doubles hlong hshort).2.2 (Or.inr (by decide))⟩

/-- Two integers beyond `2 ^ 53` that count as equal: a filter on the one finds the other,
and distinct keeps only the first one. -/
theorem neighbours_compared_as_one :
    let a : Value := .int64 9007199254740993
    let b : Value := .int64 9007199254740992
    ¬ ComparedAs a b 9007199254740993 9007199254740992 ∧
      a.order b = .eq ∧ holds [("p", a)] [("p", b)] = .ok true ∧
      holds [("p", a)] (single "p" "$gt" b) = .ok false ∧
      Distinct.values "p" [[("p", a)], [("p", b)]] = [a] := by
  intro a b
  have horder : a.order b = .eq := by decide +kernel
  have hmatching : a.matching b = true := by decide +kernel
  have hcompared : ComparedAs a b 9007199254740992 9007199254740992 :=
    comparedAs_of_order rfl rfl (horder.trans (Int.compare_eq_eq.mpr rfl).symm)
  have hpath : isOperator "p" = false := by decide
  have hequal := hcompared.equality [("p", a)] "p" hpath rfl
  have hgreater := (hcompared.ranges [("p", a)] "p" hpath rfl).1
  have hfound : Distinct.found "p" [[("p", a)], [("p", b)]] = [a, b] := rfl
  have hkept : [a, b].foldl Distinct.add [] = [a] := by
    have hfirst : Distinct.add [] a = [a] := rfl
    have hsecond : ([a].any fun other => other.matching b) = true := by
      rw [List.any_cons, hmatching, Bool.true_or]
    rw [List.foldl_cons, List.foldl_cons, List.foldl_nil, hfirst, Distinct.add, if_pos hsecond]
  refine ⟨fun hexact => ?_, horder, by simpa using hequal, by simpa using hgreater, ?_⟩
  · have hgt : a.order b = .gt := hexact.order.trans (Int.compare_eq_gt.mpr (by decide))
    rw [horder] at hgt
    cases hgt
  · calc Distinct.values "p" [[("p", a)], [("p", b)]]
        = ((Distinct.found "p" [[("p", a)], [("p", b)]]).foldl Distinct.add []).mergeSort
            fun x y => x.order y != .gt := rfl
      _ = [a].mergeSort fun x y => x.order y != .gt := by rw [hfound, hkept]
      _ = [a] := List.mergeSort_singleton a

end DocShell.Value
