import Mathlib.Data.List.Basic

/-!
# Stable sorting

`List.mergeSort` is known to sort, and to keep the order of ties, under an order that is
transitive on its whole type.  The orders of this library are transitive only on some of
their values, so the items that are sorted have to be among those: the sort is then the
image of a sort over the subtype (`stablySorted_mergeSort_of_mem`).

A stable sort has one outcome (`StablySorted.unique`), so two ways to sort agree as soon as
both sort stably: leaving items out before or after (`StablySorted.filter`), and sorting
twice or once by both orders (`StablySorted.again`).
-/

namespace DocShell

variable {α β : Type} {cmp second : α → α → Ordering} {items middle sorted other : List α}

/-- The items in the order `cmp`, and those that it takes for equal in their old order. -/
structure StablySorted (cmp : α → α → Ordering) (items sorted : List α) : Prop where
  perm : sorted.Perm items
  ordered : sorted.Pairwise fun a b => cmp a b ≠ .gt
  stable : ∀ item ∈ items,
    sorted.filter (fun other => cmp other item == .eq) =
      items.filter fun other => cmp other item == .eq

theorem StablySorted.map {f : β → α} {items sorted : List β}
    (hsorted : StablySorted (fun a b => cmp (f a) (f b)) items sorted) :
    StablySorted cmp (items.map f) (sorted.map f) := by
  refine { perm := hsorted.perm.map f, ordered := ?_, stable := ?_ }
  · rw [List.pairwise_map]
    exact hsorted.ordered
  · intro item hitem
    obtain ⟨original, horiginal, rfl⟩ := List.mem_map.mp hitem
    rw [List.filter_map, List.filter_map]
    exact congrArg (List.map f) (hsorted.stable original horiginal)

theorem stablySorted_mergeSort [Std.TransCmp cmp] (items : List α) :
    StablySorted cmp items (items.mergeSort fun a b => cmp a b != .gt) := by
  have htrans : ∀ a b c : α, (cmp a b != .gt) = true → (cmp b c != .gt) = true →
      (cmp a c != .gt) = true := by
    intro a b c hab hbc
    rw [bne_iff_ne, ne_eq, Ordering.ne_gt_iff_isLE] at hab hbc ⊢
    exact Std.TransCmp.isLE_trans hab hbc
  have htotal : ∀ a b : α, ((cmp a b != .gt) || (cmp b a != .gt)) = true := by
    intro a b
    have hswap : cmp b a = (cmp a b).swap := Std.OrientedCmp.eq_swap
    rw [hswap]
    cases cmp a b <;> rfl
  have hperm := List.mergeSort_perm items fun a b => cmp a b != .gt
  refine { perm := hperm, ordered := ?_, stable := ?_ }
  · exact (List.pairwise_mergeSort htrans htotal items).imp fun hle => bne_iff_ne.mp hle
  · intro item hitem
    let tied := fun other => cmp other item == .eq
    -- The tied items are in order among themselves, so they are a sublist of the outcome.
    have hpairs : (items.filter tied).Pairwise fun a b => (cmp a b != .gt) = true := by
      rw [List.pairwise_iff_forall_sublist]
      intro a b hsublist
      have ha : a ∈ items.filter tied := hsublist.subset (List.mem_cons_self ..)
      have hb : b ∈ items.filter tied := hsublist.subset (by simp)
      have heq : cmp a item = .eq := by simpa [tied] using (List.mem_filter.mp ha).2
      have heq' : cmp item b = .eq :=
        Std.OrientedCmp.eq_symm (by simpa [tied] using (List.mem_filter.mp hb).2)
      rw [Std.TransCmp.congr_left heq, heq']
      rfl
    have hsublist := (List.sublist_mergeSort htrans htotal hpairs List.filter_sublist).filter tied
    rw [List.filter_filter] at hsublist
    simp only [Bool.and_self] at hsublist
    exact (hsublist.eq_of_length (hperm.filter tied).length_eq.symm).symm

/-- Sorting items of a kind on which the order is transitive. -/
theorem stablySorted_mergeSort_of_mem {P : α → Prop}
    [Std.TransCmp fun a b : { item // P item } => cmp a b] (hitems : ∀ item ∈ items, P item) :
    StablySorted cmp items (items.mergeSort fun a b => cmp a b != .gt) := by
  let below := fun a b : { item // P item } => cmp a b
  have hsorted : StablySorted cmp ((items.attachWith P hitems).map Subtype.val)
      (((items.attachWith P hitems).mergeSort fun a b => below a b != .gt).map Subtype.val) :=
    (stablySorted_mergeSort (items.attachWith P hitems)).map
  rwa [List.map_mergeSort (s := fun a b => cmp a b != .gt) (fun _ _ _ _ => rfl),
    List.attachWith_map_subtype_val] at hsorted

/-! ### The one outcome of a stable sort -/

section Unique

variable [Std.OrientedCmp cmp]

/-- No item of a list in order comes before its head. -/
theorem order_head_ne_gt {head item : α} {more : List α}
    (hordered : (head :: more).Pairwise fun a b => cmp a b ≠ .gt) (hmem : item ∈ head :: more) :
    cmp head item ≠ .gt := by
  rcases List.mem_cons.mp hmem with rfl | hmem
  · have hself : cmp item item = .eq := Std.ReflCmp.compare_self
    rw [hself]
    decide
  · exact (List.pairwise_cons.mp hordered).1 item hmem

theorem order_eq_of_ne_gt {a b : α} (hab : cmp a b ≠ .gt) (hba : cmp b a ≠ .gt) :
    cmp b a = .eq := by
  have hswap : cmp a b = (cmp b a).swap := Std.OrientedCmp.eq_swap
  rw [hswap] at hab
  cases horder : cmp b a with
  | eq => rfl
  | lt => exact absurd (by rw [horder]; rfl) hab
  | gt => exact absurd horder hba

/-- Two arrangements of the same items are equal if both are in order and have tied items in
the same order. -/
theorem eq_of_ordered (hperm : sorted.Perm other)
    (hsorted : sorted.Pairwise fun a b => cmp a b ≠ .gt)
    (hother : other.Pairwise fun a b => cmp a b ≠ .gt)
    (hties : ∀ item ∈ sorted, sorted.filter (fun x => cmp x item == .eq) =
      other.filter fun x => cmp x item == .eq) : sorted = other := by
  induction sorted generalizing other with
  | nil => exact hperm.nil_eq
  | cons a more ih =>
      cases other with
      | nil => exact hperm.eq_nil
      | cons b more' =>
          -- Neither head comes before the other one, so they are tied, and both are the first
          -- of their ties.
          have hself : cmp a a = .eq := Std.ReflCmp.compare_self
          have htied : cmp b a = .eq := order_eq_of_ne_gt
            (order_head_ne_gt hsorted (hperm.mem_iff.mpr (List.mem_cons_self ..)))
            (order_head_ne_gt hother (hperm.mem_iff.mp (List.mem_cons_self ..)))
          have hheads : a = b := by
            have hfirst := hties a (List.mem_cons_self ..)
            rw [List.filter_cons_of_pos (by rw [hself]; rfl),
              List.filter_cons_of_pos (by rw [htied]; rfl)] at hfirst
            exact (List.cons_eq_cons.mp hfirst).1
          subst hheads
          refine congrArg (a :: ·) (ih hperm.cons_inv (List.pairwise_cons.mp hsorted).2
            (List.pairwise_cons.mp hother).2 fun item hitem => ?_)
          have hrest := hties item (List.mem_cons_of_mem _ hitem)
          simp only [List.filter_cons] at hrest
          split at hrest
          · exact (List.cons_eq_cons.mp hrest).2
          · exact hrest

/-- A stable sort has one outcome. -/
theorem StablySorted.unique (hsorted : StablySorted cmp items sorted)
    (hother : StablySorted cmp items other) : sorted = other := by
  refine eq_of_ordered (hsorted.perm.trans hother.perm.symm) hsorted.ordered hother.ordered ?_
  intro item hitem
  have hmem : item ∈ items := hsorted.perm.mem_iff.mp hitem
  rw [hsorted.stable item hmem, hother.stable item hmem]

end Unique

/-! ### Sorting among other steps -/

/-- What is left of a sorted list is sorted. -/
theorem StablySorted.filter (hsorted : StablySorted cmp items sorted) (p : α → Bool) :
    StablySorted cmp (items.filter p) (sorted.filter p) := by
  refine { perm := hsorted.perm.filter p, ordered := hsorted.ordered.filter p, stable := ?_ }
  intro item hitem
  rw [List.filter_comm, hsorted.stable item (List.mem_of_mem_filter hitem), List.filter_comm]

/-- Sorting once more, by another order, leaves the old order to break the ties. -/
theorem StablySorted.again [Std.OrientedCmp second] (hfirst : StablySorted cmp items middle)
    (hsecond : StablySorted second middle sorted) :
    StablySorted (compareLex second cmp) items sorted := by
  refine { perm := hsecond.perm.trans hfirst.perm, ordered := ?_, stable := ?_ }
  · rw [List.pairwise_iff_forall_sublist]
    intro a b hsublist
    have hle : second a b ≠ .gt := List.pairwise_iff_forall_sublist.mp hsecond.ordered hsublist
    rw [compareLex, ne_eq, Ordering.then_eq_gt]
    rintro (hgt | ⟨heq, hgt⟩)
    · exact hle hgt
    · -- The two are tied, so they stand in their old order.
      have hself : second b b = .eq := Std.ReflCmp.compare_self
      have hb : b ∈ middle := hsecond.perm.mem_iff.mp (hsublist.subset (by simp))
      have htied := hsublist.filter fun x => second x b == .eq
      rw [hsecond.stable b hb, List.filter_cons_of_pos (by rw [heq]; rfl),
        List.filter_cons_of_pos (by rw [hself]; rfl), List.filter_nil] at htied
      exact List.pairwise_iff_forall_sublist.mp hfirst.ordered
        (htied.trans List.filter_sublist) hgt
  · intro item hitem
    have hmem : item ∈ middle := hfirst.perm.mem_iff.mpr hitem
    have hboth : ∀ x, (compareLex second cmp x item == .eq) =
        ((cmp x item == .eq) && (second x item == .eq)) := by
      intro x
      rw [Bool.eq_iff_iff, Bool.and_eq_true, beq_iff_eq, beq_iff_eq, beq_iff_eq, compareLex,
        Ordering.then_eq_eq, and_comm]
    simp only [hboth, ← List.filter_filter]
    rw [hsecond.stable item hmem, List.filter_comm, hfirst.stable item hitem, List.filter_comm]

end DocShell
