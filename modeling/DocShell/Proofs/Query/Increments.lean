import DocShell.Proofs.Query.Steps

/-!
# Increases one after the other

An integer that is increased by integers stays an integer as long as 64 bits hold it, in
whichever of the two widths it is stored: a sum of two short integers takes the long type when it
must, and any other sum of integers is long from the start.  So along a run of increases the value
at the path is the exact sum of the amounts so far (`leadTo_total`), and the order of the
amounts shows in the width of what is stored at most.  The first sum that 64 bits do not hold is
stored as a double, and never as another integer.

A path that is missing counts as zero, provided that nothing on the way to it is in the way.
-/

namespace DocShell.Update

open DocShell.Path (segments BlockedAt)
open DocShell.Text (fitsInt64)

variable {doc updated : Document} {path : String} {a b amount : Value} {amounts : List Value}
  {n m start : Int} {changed : Bool}

/-! ### Sums of two integers -/

theorem toInt?_int64 (hfits : fitsInt64 n = true) :
    (Value.int64 (Int64.ofInt n)).toInt? = some n := by
  show some (Int64.ofInt n).toInt = some n
  rw [Text.toInt_ofInt64 hfits]

theorem toInt?_ofInt (hfits : fitsInt64 n = true) : (Value.ofInt n).toInt? = some n := by
  unfold Value.ofInt
  split
  · rename_i hshort
    show some (Int32.ofInt n).toInt = some n
    rw [Text.toInt_ofInt32 hshort]
  · exact toInt?_int64 hfits

theorem isNumber_of_toInt? (ha : a.toInt? = some n) : a.isNumber = true := by
  cases a <;> first | rfl | cases ha

/-- The sum of two short integers is never out of reach. -/
theorem fitsInt64_add_int32 (x y : Int32) : fitsInt64 (x.toInt + y.toInt) = true := by
  have hx := Text.fitsInt32_iff.mp (Text.fitsInt32_toInt x)
  have hy := Text.fitsInt32_iff.mp (Text.fitsInt32_toInt y)
  rw [Text.fitsInt64_iff]
  omega

/-- Either both integers are short, or their sum is a long integer or a double. -/
theorem addNumbers_cases (ha : a.toInt? = some n) (hb : b.toInt? = some m) :
    (fitsInt64 (n + m) = true ∧ addNumbers a b = Value.ofInt (n + m)) ∨
      addNumbers a b = if fitsInt64 (n + m) then .int64 (Int64.ofInt (n + m))
        else .double (a.toDouble.add b.toDouble) := by
  cases a with
  | int32 x =>
      cases ha
      cases b with
      | int32 y =>
          cases hb
          exact Or.inl ⟨fitsInt64_add_int32 x y, rfl⟩
      | int64 y =>
          cases hb
          exact Or.inr rfl
      | _ => cases hb
  | int64 x =>
      cases ha
      cases b with
      | int32 y =>
          cases hb
          exact Or.inr rfl
      | int64 y =>
          cases hb
          exact Or.inr rfl
      | _ => cases hb
  | _ => cases ha

theorem toInt?_addNumbers (ha : a.toInt? = some n) (hb : b.toInt? = some m)
    (hfits : fitsInt64 (n + m) = true) : (addNumbers a b).toInt? = some (n + m) := by
  obtain ⟨-, hsum⟩ | hsum := addNumbers_cases ha hb
  · rw [hsum, toInt?_ofInt hfits]
  · rw [hsum, if_pos hfits, toInt?_int64 hfits]

theorem addNumbers_of_not_fits (ha : a.toInt? = some n) (hb : b.toInt? = some m)
    (hfits : fitsInt64 (n + m) = false) :
    addNumbers a b = .double (a.toDouble.add b.toDouble) := by
  obtain ⟨hfits', -⟩ | hsum := addNumbers_cases ha hb
  · rw [hfits] at hfits'
    cases hfits'
  · rw [hsum, hfits]
    rfl

/-! ### One increase -/

/-- The update that increases the value at a path. -/
def increase (path : String) (amount : Value) : Document :=
  [("$inc", .document [(path, amount)])]

/-- The path holds a short or long integer, and it is `n`. -/
def Holds (doc : Document) (path : String) (n : Int) : Prop :=
  ∃ value, Path.get? doc path = some value ∧ value.toInt? = some n

/-- The path holds the integer, or it is missing, with nothing in the way, and counts as zero. -/
def Counts (doc : Document) (path : String) (n : Int) : Prop :=
  Holds doc path n ∨
    n = 0 ∧ Path.get? doc path = none ∧ ∀ part, ¬ BlockedAt (segments path) part doc

theorem apply_increase (hpath : path ≠ "_id") : apply (increase path amount) doc =
      (updated, .ok changed) ↔ increasePath doc path amount = .ok (updated, changed) := by
  have hupdate : IsUpdate (increase path amount) := by
    refine ⟨by simp [increase], fun entry hentry => ?_⟩
    rw [increase, List.mem_singleton] at hentry
    subst hentry
    have hop : Filter.isOperator "$inc" = true := by decide
    exact ⟨hop, _, rfl⟩
  have hstep : (Step.mk "$inc" path amount).apply doc = increasePath doc path amount := by
    simp [Step.apply, applyPath, hpath]
  rw [apply_eq_ok_iff, ← hstep]
  constructor
  · rintro ⟨-, hrun⟩
    cases hrun with
    | cons happly hmore =>
        cases hmore
        rw [Bool.or_false]
        exact happly
  · intro happly
    exact ⟨hupdate, Bool.or_false changed ▸ Run.cons happly (.nil updated)⟩

/-- Where nothing is in the way, an increase leaves what is decided for the value there. -/
theorem exists_apply_increase {old : Option Value} {value : Value} (hpath : path ≠ "_id")
    (hold : Path.get? doc path = old) (hincreased : increased path amount old = .ok value)
    (hfree : ∀ part, ¬ BlockedAt (segments path) part doc) :
    ∃ updated changed, apply (increase path amount) doc = (updated, .ok changed) ∧
      Path.get? updated path = some value := by
  cases hset : setPath doc path value with
  | error failure =>
      obtain ⟨part, -, hblocked⟩ := setPath_eq_error_iff.mp hset
      exact absurd hblocked (hfree part)
  | ok outcome =>
      obtain ⟨updated, changed⟩ := outcome
      refine ⟨updated, changed, (apply_increase hpath).mpr ?_, (writes_of_setPath hset).read⟩
      rw [increasePath_eq, hold, hincreased]
      exact hset

theorem increased_of_number (ha : a.isNumber = true) (hamount : amount.isNumber = true) :
    increased path amount (some a) = .ok (addNumbers a amount) := by
  simp [increased, ha, hamount]

theorem increased_of_missing (hamount : amount.isNumber = true) :
    increased path amount none = .ok amount := by
  simp [increased, hamount]

/-- One increase, as long as 64 bits hold the sum. -/
theorem Counts.increase (hcounts : Counts doc path n) (hpath : path ≠ "_id")
    (hamount : amount.toInt? = some m) (hfits : fitsInt64 (n + m) = true) :
    ∃ updated changed, apply (increase path amount) doc = (updated, .ok changed) ∧
      Holds updated path (n + m) := by
  have hnumber := isNumber_of_toInt? hamount
  obtain ⟨current, hcurrent, hn⟩ | ⟨rfl, hnone, hfree⟩ := hcounts
  · obtain ⟨updated, changed, happly, hread⟩ := exists_apply_increase hpath hcurrent
      (increased_of_number (isNumber_of_toInt? hn) hnumber)
      fun part => Path.not_blockedAt_of_getAt? hcurrent
    exact ⟨updated, changed, happly, _, hread, toInt?_addNumbers hn hamount hfits⟩
  · obtain ⟨updated, changed, happly, hread⟩ := exists_apply_increase hpath hnone
      (increased_of_missing hnumber) hfree
    exact ⟨updated, changed, happly, amount, hread, by rw [hamount, Int.zero_add]⟩

/-! ### Many increases -/

/-- Updates one after the other, up to one that fails. -/
def applyEach : List Document → Document → Except QueryFailure Document
  | [], doc => .ok doc
  | change :: more, doc =>
    match apply change doc with
    | (updated, .ok _) => applyEach more updated
    | (_, .error failure) => .error failure

/-- The exact sum of integers. -/
def total : List Value → Int
  | [] => 0
  | amount :: more => amount.toInt?.getD 0 + total more

/-- With what is there, the first amounts of the list never add up to more than 64 bits hold. -/
def SumsFit (start : Int) (amounts : List Value) : Prop :=
  ∀ front, front <+: amounts → fitsInt64 (start + total front) = true

theorem add_total_cons (hamount : amount.toInt? = some m) (start : Int) (amounts : List Value) :
    start + total (amount :: amounts) = start + m + total amounts := by
  rw [total, hamount, Option.getD_some, Int.add_assoc]

theorem total_perm {amounts' : List Value} (hperm : amounts.Perm amounts') :
    total amounts = total amounts' := by
  induction hperm with
  | nil => rfl
  | cons amount _ ih => rw [total, total, ih]
  | swap first second more => simp only [total, Int.add_left_comm]
  | trans _ _ ih ih' => exact ih.trans ih'

theorem SumsFit.first (hfits : SumsFit start amounts) : fitsInt64 start = true := by
  have hnone := hfits [] List.nil_prefix
  rwa [total, Int.add_zero] at hnone

theorem sumsFit_nil_iff : SumsFit start [] ↔ fitsInt64 start = true := by
  refine ⟨SumsFit.first, fun hfits front hfront => ?_⟩
  rw [List.prefix_nil.mp hfront, total, Int.add_zero, hfits]

theorem sumsFit_cons_iff (hamount : amount.toInt? = some m) :
    SumsFit start (amount :: amounts) ↔ fitsInt64 start = true ∧ SumsFit (start + m) amounts := by
  constructor
  · intro hfits
    refine ⟨hfits.first, fun front hfront => ?_⟩
    rw [← add_total_cons hamount]
    exact hfits (amount :: front) (List.cons_prefix_cons.mpr ⟨rfl, hfront⟩)
  · rintro ⟨hstart, hmore⟩ front hfront
    cases front with
    | nil => rw [total, Int.add_zero, hstart]
    | cons first front =>
        obtain ⟨rfl, hrest⟩ := List.cons_prefix_cons.mp hfront
        rw [add_total_cons hamount]
        exact hmore front hrest

/-- The increases all go through.  They leave the integer at the path, or there are none and the
document is as it was. -/
def LeadTo (doc : Document) (path : String) (amounts : List Value) (sum : Int) : Prop :=
  ∃ updated, applyEach (amounts.map (increase path)) doc = .ok updated ∧
    (Holds updated path sum ∨ amounts = [] ∧ updated = doc)

/-- Increases whose sums 64 bits hold lead to the exact sum. -/
theorem leadTo_total (hpath : path ≠ "_id") (hcounts : Counts doc path start)
    (hamounts : ∀ amount ∈ amounts, amount.toInt?.isSome) (hfits : SumsFit start amounts) :
    LeadTo doc path amounts (start + total amounts) := by
  induction amounts generalizing doc start with
  | nil => exact ⟨doc, rfl, Or.inr ⟨rfl, rfl⟩⟩
  | cons amount more ih =>
      rw [List.forall_mem_cons] at hamounts
      obtain ⟨m, hm⟩ := Option.isSome_iff_exists.mp hamounts.1
      obtain ⟨-, hmore⟩ := (sumsFit_cons_iff hm).mp hfits
      obtain ⟨between, changed, happly, hbetween⟩ := hcounts.increase hpath hm hmore.first
      obtain ⟨updated, heach, hholds⟩ := ih (Or.inl hbetween) hamounts.2 hmore
      refine ⟨updated, by simp only [List.map_cons, applyEach, happly, heach], Or.inl ?_⟩
      rw [add_total_cons hm]
      rcases hholds with hholds | ⟨rfl, rfl⟩
      · exact hholds
      · rwa [total, Int.add_zero]

/-- **Increases never wrap.**  A path other than `_id` that holds an integer, or is missing with
nothing in the way, and is increased by integers holds the exact sum in the end, provided that
no sum on the way is out of the reach of 64 bits; all increases go through, and amounts in
another order, if they also keep within reach, lead to the same integer.  A sum out of reach is
stored as a double. -/
theorem increments_exact (doc : Document) (path : String) (hpath : path ≠ "_id") :
    (∀ start amounts, Counts doc path start → (∀ amount ∈ amounts, amount.toInt?.isSome) →
        SumsFit start amounts →
        LeadTo doc path amounts (start + total amounts) ∧
          ∀ amounts', amounts.Perm amounts' → SumsFit start amounts' →
            LeadTo doc path amounts' (start + total amounts)) ∧
      ∀ current amount n m, Path.get? doc path = some current → current.toInt? = some n →
        amount.toInt? = some m → fitsInt64 (n + m) = false →
        ∃ updated changed, apply (increase path amount) doc = (updated, .ok changed) ∧
          Path.get? updated path = some (.double (current.toDouble.add amount.toDouble)) := by
  constructor
  · intro start amounts hcounts hamounts hfits
    refine ⟨leadTo_total hpath hcounts hamounts hfits, fun amounts' hperm hfits' => ?_⟩
    have hamounts' : ∀ amount ∈ amounts', amount.toInt?.isSome := fun amount hamount =>
      hamounts amount (hperm.mem_iff.mpr hamount)
    rw [total_perm hperm]
    exact leadTo_total hpath hcounts hamounts' hfits'
  · intro current amount n m hcurrent hn hm hfits
    have hincreased : increased path amount (some current) =
        .ok (.double (current.toDouble.add amount.toDouble)) := by
      rw [increased_of_number (isNumber_of_toInt? hn) (isNumber_of_toInt? hm),
        addNumbers_of_not_fits hn hm hfits]
    exact exists_apply_increase hpath hcurrent hincreased
      fun part => Path.not_blockedAt_of_getAt? hcurrent

/-- Beyond 32 bits and back in one order, never near the limit in the other, and a sum that 64
bits do not hold. -/
theorem increments_exact_at_limits :
    let doc : Document := [("a", .document [("n", .int32 2147483647),
      ("m", .int64 9223372036854775807)])]
    let amounts : List Value := [.int32 1, .int64 (-5)]
    let amounts' : List Value := [.int64 (-5), .int32 1]
    (LeadTo doc "a.n" amounts 2147483643 ∧ LeadTo doc "a.n" amounts' 2147483643) ∧
      ∃ updated changed, apply (increase "a.m" (.int32 1)) doc = (updated, .ok changed) ∧
        Path.get? updated "a.m" = some (.double (Double.ofInt 9223372036854775808)) := by
  intro doc amounts amounts'
  have hone : (Value.int32 1).toInt? = some 1 := by decide
  have hfive : (Value.int64 (-5)).toInt? = some (-5) := by decide
  have hshort : (Value.int32 2147483647).toInt? = some 2147483647 := by decide
  have hlong : (Value.int64 9223372036854775807).toInt? = some 9223372036854775807 := by decide
  have hholds : Holds doc "a.n" 2147483647 := ⟨_, rfl, hshort⟩
  have hfits : SumsFit 2147483647 amounts :=
    (sumsFit_cons_iff hone).mpr ⟨rfl, (sumsFit_cons_iff hfive).mpr ⟨rfl, sumsFit_nil_iff.mpr rfl⟩⟩
  have hfits' : SumsFit 2147483647 amounts' :=
    (sumsFit_cons_iff hfive).mpr ⟨rfl, (sumsFit_cons_iff hone).mpr ⟨rfl, sumsFit_nil_iff.mpr rfl⟩⟩
  have hintegers : ∀ amount ∈ amounts, amount.toInt?.isSome := by
    simp [amounts, hone, hfive]
  have htotal : 2147483647 + total amounts = 2147483643 := by
    simp [amounts, total, hone, hfive]
  obtain ⟨hfirst, hother⟩ := (increments_exact doc "a.n" (by decide)).1 2147483647 amounts
    (Or.inl hholds) hintegers hfits
  rw [htotal] at hfirst hother
  refine ⟨⟨hfirst, hother amounts' (.swap ..) hfits'⟩, ?_⟩
  have hsum := (increments_exact doc "a.m" (by decide)).2 (.int64 9223372036854775807) (.int32 1)
    9223372036854775807 1 rfl hlong hone rfl
  have hdouble : (Value.int64 9223372036854775807).toDouble.add (Value.int32 1).toDouble =
      Double.ofInt 9223372036854775808 := by decide +kernel
  rwa [hdouble] at hsum

end DocShell.Update
