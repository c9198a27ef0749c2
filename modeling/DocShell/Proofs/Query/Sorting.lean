import DocShell.Proofs.List.StableSort
import DocShell.Proofs.Value.Order
import DocShell.Query.Sorting
import Mathlib.Data.List.Forall2

/-!
# Sorting by a specification

A specification is read into keys, or refused for one of its directions; the keys are
compared one after the other.  `SortedBy` says what a sorted list is in terms of the
specification alone, without the keys.

## Strategy

* `keys_spec`: the keys stand for the entries one by one (`Key.Reads`), and reading fails
  exactly when some direction is none of the six in `directions`.
* `order_eq_eq_iff` and `mayPrecede_of_order`: the order by keys is the lexicographic one.
* Where no value at a key is a symbol, the order of each key is transitive
  (`transCmp_key`), and so is their composition (`transCmp_order`); the sort is then a
  stable one by `stablySorted_mergeSort_of_mem`.
-/

namespace DocShell.Sorting

/-! ### Directions and keys -/

/-- The values that stand for a direction: -1 for the descending one and else 1, as an
integer or a double. -/
def directions (descending : Bool) : List Value :=
  if descending then [.int32 (-1), .int64 (-1), .double (Double.ofInt (-1))]
  else [.int32 1, .int64 1, .double (Double.ofInt 1)]

/-- The value stands for a direction. -/
def IsDirection (direction : Value) : Prop :=
  ∃ descending, direction ∈ directions descending

/-- The key stands for the entry of a specification. -/
def Key.Reads (key : Key) (entry : String × Value) : Prop :=
  key.path = entry.1 ∧ entry.2 ∈ directions key.descending

theorem same_ofInt_iff {x : Double} {n : Int} (hn : n = 1 ∨ n = -1) :
    x.same (Double.ofInt n) = true ↔ x = Double.ofInt n := by
  have hnan : (Double.ofInt n).isNaN = false := by
    rcases hn with rfl | rfl <;> decide +kernel
  have hzero : (Double.ofInt n).isZero = false := by
    rcases hn with rfl | rfl <;> decide +kernel
  constructor
  · intro hsame
    simpa [Double.same, hnan, hzero] using (Bool.and_eq_true_iff.mp hsame).2
  · rintro rfl
    simp [Double.same, hnan]

theorem descending?_eq_some_iff {direction : Value} {descending : Bool} :
    descending? direction = some descending ↔ direction ∈ directions descending := by
  have hdouble := fun x : Double => same_ofInt_iff (x := x) (Or.inl rfl)
  have hdouble' := fun x : Double => same_ofInt_iff (x := x) (Or.inr rfl)
  have hapart : Double.ofInt 1 ≠ Double.ofInt (-1) := by decide +kernel
  cases descending with
  | false =>
      cases direction <;> simp [descending?, directions, hdouble, hdouble']
  | true =>
      cases direction <;> simp [descending?, directions, hdouble, hdouble']
      case int32 n => grind
      case int64 n => grind
      case double x => grind

theorem keys_spec (spec : Document) :
    (∃ keys', keys spec = .ok keys' ∧ List.Forall₂ Key.Reads keys' spec) ∨
      (∃ failure, keys spec = .error failure) ∧ ∃ entry ∈ spec, ¬ IsDirection entry.2 := by
  induction spec with
  | nil => exact Or.inl ⟨[], rfl, .nil⟩
  | cons entry more ih =>
      obtain ⟨path, direction⟩ := entry
      cases hread : descending? direction with
      | none =>
          refine Or.inr ⟨⟨_, by rw [keys, hread]⟩, _, List.mem_cons_self .., ?_⟩
          rintro ⟨descending, hmem⟩
          rw [descending?_eq_some_iff.mpr hmem] at hread
          cases hread
      | some descending =>
          rcases ih with ⟨rest, hrest, hreads⟩ | ⟨⟨failure, hfailure⟩, bad, hbad, hnot⟩
          · refine Or.inl ⟨⟨path, descending⟩ :: rest, ?_, .cons ?_ hreads⟩
            · rw [keys, hread, hrest]
              rfl
            · exact ⟨rfl, descending?_eq_some_iff.mp hread⟩
          · refine Or.inr ⟨⟨failure, ?_⟩, bad, List.mem_cons_of_mem _ hbad, hnot⟩
            rw [keys, hread, hfailure]
            rfl

theorem isDirection_of_reads {keys : List Key} {spec : Document}
    (hreads : List.Forall₂ Key.Reads keys spec) : ∀ entry ∈ spec, IsDirection entry.2 := by
  induction hreads with
  | nil => simp
  | cons hread _ ih => exact List.forall_mem_cons.mpr ⟨⟨_, hread.2⟩, ih⟩

theorem exists_entry_of_reads {keys : List Key} {spec : Document}
    (hreads : List.Forall₂ Key.Reads keys spec) :
    ∀ key ∈ keys, ∃ entry ∈ spec, key.path = entry.1 := by
  induction hreads with
  | nil => simp
  | cons hread _ ih =>
      intro key hkey
      rcases List.mem_cons.mp hkey with rfl | hkey
      · exact ⟨_, List.mem_cons_self .., hread.1⟩
      · obtain ⟨entry, hentry, hpath⟩ := ih key hkey
        exact ⟨entry, List.mem_cons_of_mem _ hentry, hpath⟩

/-! ### The lexicographic order -/

/-- The order of two documents by the values at a path. -/
def orderAt (path : String) (a b : Document) : Ordering :=
  orderFields (Path.get? a path) (Path.get? b path)

/-- The documents tie on every path of the specification. -/
def ties (spec : Document) (a b : Document) : Bool :=
  spec.all fun entry => orderAt entry.1 a b == .eq

/-- An order that documents in a row may have: none goes down, or up if the direction is
descending. -/
def InDirection (direction : Value) (o : Ordering) : Prop :=
  (direction ∈ directions false → o ≠ .gt) ∧ (direction ∈ directions true → o ≠ .lt)

/-- The first document may stand in front of the second: where they tie on some first
entries of the specification, the next one does not have them the other way round. -/
def MayPrecede (spec : Document) (a b : Document) : Prop :=
  ∀ front path direction back, spec = front ++ (path, direction) :: back →
    ties front a b = true → InDirection direction (orderAt path a b)

/-- The documents in the order of the specification, ties in their old order. -/
structure SortedBy (spec : Document) (docs sorted : List Document) : Prop where
  perm : sorted.Perm docs
  ordered : sorted.Pairwise (MayPrecede spec)
  stable : ∀ doc ∈ docs,
    sorted.filter (fun other => ties spec other doc) = docs.filter fun other => ties spec other doc

section Lexicographic

variable {keys : List Key} {spec : Document} {a b : Document}

theorem orderFields_swap (a b : Option Value) : orderFields b a = (orderFields a b).swap := by
  cases a <;> cases b
  case some.some x y => exact Value.order_swap x y
  all_goals rfl

theorem Key.order_eq (key : Key) (a b : Document) :
    key.order a b = if key.descending then orderAt key.path b a else orderAt key.path a b := by
  unfold Key.order orderAt
  rw [orderFields_swap (Path.get? a key.path)]

theorem Key.order_eq_eq_iff (key : Key) : key.order a b = .eq ↔ orderAt key.path a b = .eq := by
  rw [Key.order_eq, orderAt, orderAt, orderFields_swap (Path.get? a key.path)]
  cases orderFields (Path.get? a key.path) (Path.get? b key.path) <;> cases key.descending <;>
    simp

theorem Key.Reads.inDirection {key : Key} {path : String} {direction : Value}
    (hreads : key.Reads (path, direction)) (hle : key.order a b ≠ .gt) :
    InDirection direction (orderAt path a b) := by
  obtain ⟨rfl, hmem⟩ := hreads
  have hread := descending?_eq_some_iff.mpr hmem
  rw [Key.order_eq] at hle
  constructor
  · intro hascending
    have hkey : key.descending = false := by
      simpa [hread] using descending?_eq_some_iff.mpr hascending
    rwa [if_neg (by rw [hkey]; decide)] at hle
  · intro hdescending
    have hkey : key.descending = true := by
      simpa [hread] using descending?_eq_some_iff.mpr hdescending
    rw [if_pos hkey, orderAt, orderFields_swap (Path.get? a key.path)] at hle
    intro hlt
    exact hle (by rw [← orderAt, hlt]; rfl)

theorem order_eq_eq_iff (hreads : List.Forall₂ Key.Reads keys spec) :
    order keys a b = .eq ↔ ties spec a b = true := by
  induction hreads with
  | nil => simp [order, ties]
  | cons hread _ ih =>
      rw [order, Ordering.then_eq_eq, ih, Key.order_eq_eq_iff, hread.1]
      simp [ties]

theorem mayPrecede_of_order (hreads : List.Forall₂ Key.Reads keys spec)
    (hle : order keys a b ≠ .gt) : MayPrecede spec a b := by
  induction hreads with
  | nil =>
      intro front path direction back hspec
      simp at hspec
  | @cons key entry more _ hread _ ih =>
      intro front path direction back hspec hties
      cases front with
      | nil =>
          -- The first key is the deciding one.
          obtain ⟨rfl, -⟩ := List.cons_eq_cons.mp hspec
          refine hread.inDirection fun hgt => hle ?_
          rw [order, hgt]
          rfl
      | cons first front =>
          obtain ⟨rfl, hmore⟩ := List.cons_eq_cons.mp hspec
          simp only [ties, List.all_cons, Bool.and_eq_true, beq_iff_eq] at hties
          have hfirst : key.order a b = .eq := by
            rw [Key.order_eq_eq_iff, hread.1, hties.1]
          refine ih (fun hgt => hle ?_) front path direction back hmore hties.2
          rw [order, hfirst, hgt]
          rfl

theorem sortedBy_of_stablySorted {docs sorted : List Document}
    (hreads : List.Forall₂ Key.Reads keys spec) (hsorted : StablySorted (order keys) docs sorted) :
    SortedBy spec docs sorted := by
  have hties : ∀ a b, (order keys a b == .eq) = ties spec a b := by
    intro a b
    rw [Bool.eq_iff_iff, beq_iff_eq, order_eq_eq_iff hreads]
  refine { perm := hsorted.perm, ordered := ?_, stable := ?_ }
  · exact hsorted.ordered.imp fun hle => mayPrecede_of_order hreads hle
  · simpa only [hties] using hsorted.stable

end Lexicographic

/-! ### Transitivity -/

/-- The value, if there is one, is no symbol. -/
def NoSymbol (field : Option Value) : Prop :=
  ∀ s, field ≠ some (.symbol s)

theorem not_mixed_of_noSymbol {a b : Value} (ha : NoSymbol (some a)) (hb : NoSymbol (some b)) :
    ¬ Value.Mixed a b := by
  rintro ⟨s, t, ⟨-, rfl⟩ | ⟨rfl, -⟩⟩
  · exact hb t rfl
  · exact ha t rfl

theorem orderFields_isLE_trans {a b c : Option Value} (ha : NoSymbol a) (hb : NoSymbol b)
    (hc : NoSymbol c) (hab : (orderFields a b).isLE = true) (hbc : (orderFields b c).isLE = true) :
    (orderFields a c).isLE = true := by
  cases a with
  | none => cases c <;> rfl
  | some x =>
      cases b with
      | none => cases hab
      | some y =>
          cases c with
          | none => cases hbc
          | some z =>
              rw [orderFields, ← Ordering.ne_gt_iff_isLE] at hab hbc ⊢
              exact Value.order_trans (not_mixed_of_noSymbol ha hb) (not_mixed_of_noSymbol hb hc)
                (not_mixed_of_noSymbol ha hc) hab hbc

section Transitive

variable {P : Document → Prop}

theorem transCmp_key {key : Key} (hP : ∀ doc, P doc → NoSymbol (Path.get? doc key.path)) :
    Std.TransCmp fun a b : { doc // P doc } => key.order a b where
  eq_swap := by
    intro a b
    simp only [Key.order_eq, orderAt]
    split <;> exact orderFields_swap _ _
  isLE_trans := by
    intro a b c hab hbc
    simp only [Key.order_eq, orderAt] at hab hbc ⊢
    split at hab
    · rw [if_pos ‹_›] at hbc ⊢
      exact orderFields_isLE_trans (hP c c.2) (hP b b.2) (hP a a.2) hbc hab
    · rw [if_neg ‹_›] at hbc ⊢
      exact orderFields_isLE_trans (hP a a.2) (hP b b.2) (hP c c.2) hab hbc

theorem transCmp_order {keys : List Key}
    (hP : ∀ doc, P doc → ∀ key ∈ keys, NoSymbol (Path.get? doc key.path)) :
    Std.TransCmp fun a b : { doc // P doc } => order keys a b := by
  induction keys with
  | nil =>
      exact { eq_swap := fun {_ _} => rfl, isLE_trans := fun {_ _ _} _ _ => rfl }
  | cons key more ih =>
      have hkey : Std.TransCmp fun a b : { doc // P doc } => key.order a b :=
        transCmp_key fun doc hdoc => hP doc hdoc key (List.mem_cons_self ..)
      have hmore := ih fun doc hdoc key hkey => hP doc hdoc key (List.mem_cons_of_mem _ hkey)
      exact inferInstanceAs (Std.TransCmp (compareLex
        (fun a b : { doc // P doc } => key.order a b) fun a b => order more a b))

theorem stablySorted_byKeys {keys : List Key} {docs : List Document}
    (hdocs : ∀ doc ∈ docs, ∀ key ∈ keys, NoSymbol (Path.get? doc key.path)) :
    StablySorted (order keys) docs (byKeys keys docs) := by
  let P := fun doc : Document => ∀ key ∈ keys, NoSymbol (Path.get? doc key.path)
  have htrans : Std.TransCmp fun a b : { doc // P doc } => order keys a b :=
    transCmp_order fun _ hdoc => hdoc
  exact stablySorted_mergeSort_of_mem hdocs

end Transitive

/-! ### The outcome -/

theorem sortInPlace_of_keys {spec : Document} {keys' : List Key} (hkeys : keys spec = .ok keys')
    (docs : List Document) : sortInPlace spec docs = (byKeys keys' docs, .ok ()) := by
  rw [sortInPlace, hkeys]

theorem sortInPlace_of_failure {spec : Document} {failure : QueryFailure}
    (hkeys : keys spec = .error failure) (docs : List Document) :
    sortInPlace spec docs = (docs, .error failure) := by
  rw [sortInPlace, hkeys]

/-- **Sorting is stable and goes by all keys.**  It fails exactly when a direction of the
specification is none of 1 and -1, and then leaves the documents as they are.  Else, unless
a symbol stands at one of its paths, the documents are put into the order of the
specification and ties keep their order. -/
theorem sort_by_specification (spec : Document) (docs : List Document) :
    ((∃ failure, (sortInPlace spec docs).2 = .error failure) ↔
        ∃ entry ∈ spec, ¬ IsDirection entry.2) ∧
      (∀ failure, (sortInPlace spec docs).2 = .error failure →
        (sortInPlace spec docs).1 = docs) ∧
      ((∀ entry ∈ spec, IsDirection entry.2) →
        (∀ doc ∈ docs, ∀ entry ∈ spec, NoSymbol (Path.get? doc entry.1)) →
          SortedBy spec docs (sortInPlace spec docs).1) := by
  rcases keys_spec spec with ⟨keys', hkeys, hreads⟩ | ⟨⟨failure, hfailure⟩, hbad⟩
  · have hgood := isDirection_of_reads hreads
    rw [sortInPlace_of_keys hkeys]
    refine ⟨?_, ?_, fun _ hdocs => ?_⟩
    · simpa using hgood
    · simp
    · apply sortedBy_of_stablySorted hreads
      apply stablySorted_byKeys
      intro doc hdoc key hkey
      obtain ⟨entry, hentry, hpath⟩ := exists_entry_of_reads hreads key hkey
      rw [hpath]
      exact hdocs doc hdoc entry hentry
  · rw [sortInPlace_of_failure hfailure]
    refine ⟨⟨fun _ => hbad, fun _ => ⟨failure, rfl⟩⟩, fun _ _ => rfl, fun hgood => ?_⟩
    obtain ⟨entry, hentry, hnot⟩ := hbad
    exact absurd (hgood entry hentry) hnot

/-- Two keys with directions of different types, and a document that lacks one of them. -/
theorem sort_by_specification_two_keys :
    let spec : Document := [("age", .int64 (-1)), ("name", .int32 1)]
    let docs : List Document := [[("name", .string "b")], [("age", .int32 3), ("name", .null)]]
    (∀ entry ∈ spec, IsDirection entry.2) ∧ SortedBy spec docs (sortInPlace spec docs).1 := by
  intro spec docs
  have hdirections : ∀ entry ∈ spec, IsDirection entry.2 := by
    simp [spec, IsDirection, directions]
  have hfields : ∀ doc ∈ docs, ∀ entry ∈ spec, NoSymbol (Path.get? doc entry.1) := by
    intro doc hdoc entry hentry s
    simp only [docs, spec, List.mem_cons, List.not_mem_nil, or_false] at hdoc hentry
    rcases hdoc with rfl | rfl <;> rcases hentry with rfl | rfl <;> rintro ⟨⟩
  exact ⟨hdirections, (sort_by_specification spec docs).2.2 hdirections hfields⟩

end DocShell.Sorting
