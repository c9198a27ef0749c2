import DocShell.Proofs.List.StableSort
import DocShell.Proofs.Query.BooleanAlgebra
import DocShell.Proofs.Query.Sorting
import DocShell.Proofs.Store.CursorPipeline

/-!
# Pipelines that give the same documents

Three pairs of pipelines are equal, as lists of documents in the same order, where no stage
fails and no symbol stands at a path that is sorted by:

* a filter before or behind a sort;
* two sorts in a row, and one sort by the second specification with the fields of the first
  one behind it that it lacks (`Sorting.refined`);
* two filters in a row, and their conjunction.

## Strategy

A sort by keys is a stable one, and a stable sort has one outcome.  Filtering what is sorted
gives a stable sort of what is filtered, which settles the first pair (`byKeys_filter`).
Sorting twice is a stable sort by the second order and then the first (`byKeys_byKeys`).
That is the order of the refined specification: a field of the first one that the second one
has too is asked for only where the second one ties, and then it ties as well
(`order_refinedKeys`).
-/

namespace DocShell

namespace Sorting

variable {spec first second : Document} {ks ls : List Key} {a b : Document}

/-! ### Keys of specifications put together -/

theorem exists_reads (hspec : ∀ entry ∈ spec, IsDirection entry.2) :
    ∃ ks, List.Forall₂ Key.Reads ks spec := by
  rcases keys_spec spec with ⟨ks, -, hreads⟩ | ⟨-, entry, hentry, hnot⟩
  · exact ⟨ks, hreads⟩
  · exact absurd (hspec entry hentry) hnot

theorem keys_of_reads (hreads : List.Forall₂ Key.Reads ks spec) : keys spec = .ok ks := by
  induction hreads with
  | nil => rfl
  | @cons key entry more rest hread _ ih =>
      obtain ⟨path, direction⟩ := entry
      obtain ⟨rfl, hdirection⟩ := hread
      rw [keys, descending?_eq_some_iff.mpr hdirection, ih]
      rfl

theorem sort_of_reads (hreads : List.Forall₂ Key.Reads ks spec) (docs : List Document) :
    sort spec docs = .ok (byKeys ks docs) := by
  rw [sort, sortInPlace_of_keys (keys_of_reads hreads)]

/-- The second specification, and behind it the fields of the first one that it lacks. -/
def refined (first second : Document) : Document :=
  second ++ first.filter fun entry => !second.contains entry.1

/-- The keys of the second sort, and behind them those of the first one with other paths. -/
def refinedKeys (second : Document) (ks ls : List Key) : List Key :=
  ls ++ ks.filter fun key => !second.contains key.path

theorem reads_refined (hfirst : List.Forall₂ Key.Reads ks first)
    (hsecond : List.Forall₂ Key.Reads ls second) :
    List.Forall₂ Key.Reads (refinedKeys second ks ls) (refined first second) := by
  refine List.rel_append hsecond (List.rel_filter ?_ hfirst)
  rintro key entry ⟨hpath, -⟩
  simp only [hpath]

/-! ### Their order -/

theorem Key.order_swap (key : Key) (a b : Document) : key.order a b = (key.order b a).swap := by
  simp only [Key.order_eq, orderAt]
  split <;> exact orderFields_swap _ _

instance orientedCmp_order (keys : List Key) : Std.OrientedCmp (order keys) where
  eq_swap := by
    intro a b
    induction keys with
    | nil => rfl
    | cons key more ih => rw [order, order, Ordering.swap_then, ← key.order_swap, ← ih]

theorem order_append (ks ls : List Key) (a b : Document) :
    order (ks ++ ls) a b = (order ks a b).then (order ls a b) := by
  induction ks with
  | nil => rfl
  | cons key more ih => rw [List.cons_append, order, order, ih, Ordering.then_assoc]

/-- Keys on which the documents tie may be left out. -/
theorem order_filter (p : Key → Bool)
    (hties : ∀ key ∈ ks, p key = false → key.order a b = .eq) :
    order (ks.filter p) a b = order ks a b := by
  induction ks with
  | nil => rfl
  | cons key more ih =>
      obtain ⟨hkey, hmore⟩ := List.forall_mem_cons.mp hties
      cases hp : p key with
      | true => rw [List.filter_cons_of_pos hp, order, order, ih hmore]
      | false => rw [List.filter_cons_of_neg (by simp [hp]), order, hkey hp, ih hmore]; rfl

theorem orderAt_of_ties {path : String} {direction : Value} (hties : ties spec a b = true)
    (hmem : (path, direction) ∈ spec) : orderAt path a b = .eq := by
  simpa using List.all_eq_true.mp hties _ hmem

/-- Where the second specification ties, its fields say nothing in the first one either. -/
theorem order_refinedKeys (hsecond : List.Forall₂ Key.Reads ls second) (ks : List Key) :
    order (refinedKeys second ks ls) = compareLex (order ls) (order ks) := by
  funext a b
  rw [refinedKeys, order_append, compareLex]
  cases horder : order ls a b with
  | lt | gt => rfl
  | eq =>
      refine order_filter _ fun key _ hkey => ?_
      obtain ⟨direction, hdirection⟩ : ∃ direction, second.get? key.path = some direction :=
        Option.isSome_iff_exists.mp (by simpa [Fields.contains] using hkey)
      rw [Key.order_eq_eq_iff]
      exact orderAt_of_ties ((order_eq_eq_iff hsecond).mp horder) (Fields.mem_of_get? hdirection)

/-! ### Sorting twice, and sorting fewer documents -/

section Sorted

variable {docs : List Document}

theorem noSymbol_of_reads (hreads : List.Forall₂ Key.Reads ks spec)
    (hdocs : ∀ doc ∈ docs, ∀ entry ∈ spec, NoSymbol (Path.get? doc entry.1)) :
    ∀ doc ∈ docs, ∀ key ∈ ks, NoSymbol (Path.get? doc key.path) := by
  intro doc hdoc key hkey
  obtain ⟨entry, hentry, hpath⟩ := exists_entry_of_reads hreads key hkey
  rw [hpath]
  exact hdocs doc hdoc entry hentry

theorem byKeys_filter (hdocs : ∀ doc ∈ docs, ∀ key ∈ ks, NoSymbol (Path.get? doc key.path))
    (p : Document → Bool) : byKeys ks (docs.filter p) = (byKeys ks docs).filter p := by
  have hkept : StablySorted (order ks) (docs.filter p) (byKeys ks (docs.filter p)) :=
    stablySorted_byKeys fun doc hdoc => hdocs doc (List.mem_of_mem_filter hdoc)
  exact hkept.unique ((stablySorted_byKeys hdocs).filter p)

theorem byKeys_byKeys (hfirst : List.Forall₂ Key.Reads ks first)
    (hsecond : List.Forall₂ Key.Reads ls second)
    (hdocs : ∀ doc ∈ docs, ∀ entry ∈ first, NoSymbol (Path.get? doc entry.1))
    (hdocs' : ∀ doc ∈ docs, ∀ entry ∈ second, NoSymbol (Path.get? doc entry.1)) :
    byKeys ls (byKeys ks docs) = byKeys (refinedKeys second ks ls) docs := by
  have hks := noSymbol_of_reads hfirst hdocs
  have hls := noSymbol_of_reads hsecond hdocs'
  have honce : StablySorted (order ks) docs (byKeys ks docs) := stablySorted_byKeys hks
  have htwice : StablySorted (order ls) (byKeys ks docs) (byKeys ls (byKeys ks docs)) :=
    stablySorted_byKeys fun doc hdoc => hls doc (honce.perm.mem_iff.mp hdoc)
  have hboth := honce.again htwice
  rw [← order_refinedKeys hsecond] at hboth
  refine hboth.unique (stablySorted_byKeys fun doc hdoc key hkey => ?_)
  rcases List.mem_append.mp hkey with hkey | hkey
  · exact hls doc hdoc key hkey
  · exact hks doc hdoc key (List.mem_of_mem_filter hkey)

end Sorted

end Sorting

namespace Pipeline

open DocShell.Filter (Decides accepts holds)
open Sorting (IsDirection NoSymbol refined byKeys)

variable {docs : List Document} {filter other : Document}

/-- The stage that keeps the documents which satisfy a filter. -/
def matchStage (filter : Document) : Document :=
  [("$match", .document filter)]

/-- The stage that sorts by a specification. -/
def sortStage (spec : Document) : Document :=
  [("$sort", .document spec)]

/-- The filter with two clauses that must both hold. -/
def bothOf (filter other : Document) : Document :=
  [("$and", .array [.document filter, .document other])]

theorem run_matchStage (hdecides : Decides filter docs) (more : List Document) :
    run (matchStage filter :: more) docs = run more (docs.filter (accepts filter)) := by
  rw [matchStage, run_match, Filter.select_of_decides hdecides]
  rfl

theorem run_sortStage {spec : Document} {ks : List Sorting.Key}
    (hreads : List.Forall₂ Sorting.Key.Reads ks spec) (more : List Document) :
    run (sortStage spec :: more) docs = run more (byKeys ks docs) := by
  have hstage : runStage "$sort" (.document spec) docs = .ok (byKeys ks docs) :=
    Sorting.sort_of_reads hreads docs
  rw [sortStage, run_cons, hstage]
  rfl

theorem holds_bothOf {doc : Document} (hfilter : Filter.DecidesOn doc filter)
    (hother : Filter.DecidesOn doc other) :
    holds doc (bothOf filter other) = .ok (accepts filter doc && accepts other doc) := by
  have hclauses : ∀ clause ∈ [filter, other], Filter.DecidesOn doc clause := by
    simp [hfilter, hother]
  have hand : Filter.isConnective "$and" = true := by decide
  have hholds := Filter.holds_connective hand (by simp) hclauses
  simpa [Filter.verdict, bothOf] using hholds

/-- **Pipelines may be rewritten.**  A sort and a filter may change places, of two sorts in a
row one may be made, and two filters in a row are their conjunction: each time both pipelines
go through and give the same documents in the same order. -/
theorem equal_pipelines {spec spec' : Document} (hfilter : Decides filter docs)
    (hother : Decides other docs) (hspec : ∀ entry ∈ spec, IsDirection entry.2)
    (hspec' : ∀ entry ∈ spec', IsDirection entry.2)
    (hdocs : ∀ doc ∈ docs, ∀ entry ∈ spec, NoSymbol (Path.get? doc entry.1))
    (hdocs' : ∀ doc ∈ docs, ∀ entry ∈ spec', NoSymbol (Path.get? doc entry.1)) :
    (∃ found, run [sortStage spec, matchStage filter] docs = .ok found ∧
        run [matchStage filter, sortStage spec] docs = .ok found) ∧
      (∃ found, run [sortStage spec, sortStage spec'] docs = .ok found ∧
        run [sortStage (refined spec spec')] docs = .ok found) ∧
      ∃ found, run [matchStage filter, matchStage other] docs = .ok found ∧
        run [matchStage (bothOf filter other)] docs = .ok found := by
  obtain ⟨ks, hreads⟩ := Sorting.exists_reads hspec
  obtain ⟨ls, hreads'⟩ := Sorting.exists_reads hspec'
  have hks := Sorting.noSymbol_of_reads hreads hdocs
  refine ⟨⟨byKeys ks (docs.filter (accepts filter)), ?_, ?_⟩, ⟨byKeys ls (byKeys ks docs), ?_, ?_⟩,
    ⟨(docs.filter (accepts filter)).filter (accepts other), ?_, ?_⟩⟩
  · have hsorted : Decides filter (byKeys ks docs) := fun doc hdoc =>
      hfilter doc ((List.mergeSort_perm ..).mem_iff.mp hdoc)
    rw [run_sortStage hreads, run_matchStage hsorted, Sorting.byKeys_filter hks]
    rfl
  · rw [run_matchStage hfilter, run_sortStage hreads]
    rfl
  · rw [run_sortStage hreads, run_sortStage hreads']
    rfl
  · rw [run_sortStage (Sorting.reads_refined hreads hreads'),
      Sorting.byKeys_byKeys hreads hreads' hdocs hdocs']
    rfl
  · have hkept : Decides other (docs.filter (accepts filter)) := fun doc hdoc =>
      hother doc (List.mem_of_mem_filter hdoc)
    rw [run_matchStage hfilter, run_matchStage hkept]
    rfl
  · have hholds : ∀ doc ∈ docs, holds doc (bothOf filter other) =
        .ok (accepts filter doc && accepts other doc) := fun doc hdoc =>
      holds_bothOf (hfilter doc hdoc) (hother doc hdoc)
    have hboth : Decides (bothOf filter other) docs := fun doc hdoc =>
      Filter.decidesOn_of_holds (hholds doc hdoc)
    rw [run_matchStage hboth, List.filter_filter, run]
    refine congrArg Except.ok (List.filter_congr fun doc hdoc => ?_)
    rw [Filter.accepts_of_holds (hholds doc hdoc), Bool.and_comm]

/-- Two documents that tie on the second specification, of which the filter keeps both, and a
third one that it drops. -/
theorem equal_pipelines_with_ties :
    let docs : List Document := [[("k", .string "x"), ("n", .int32 3)], [("k", .string "y")],
      [("k", .string "x"), ("n", .double (Double.ofInt 2))]]
    let filter : Document := [("k", .string "x")]
    let other : Document := Filter.single "n" "$lt" (.int64 3)
    let spec : Document := [("n", .int64 1), ("k", .int32 (-1))]
    let spec' : Document := [("k", .int32 1)]
    Decides filter docs ∧ Decides other docs ∧ (∀ entry ∈ spec, IsDirection entry.2) ∧
      (∀ entry ∈ spec', IsDirection entry.2) ∧
      (∀ doc ∈ docs, ∀ entry ∈ spec, NoSymbol (Path.get? doc entry.1)) ∧
      (∀ doc ∈ docs, ∀ entry ∈ spec', NoSymbol (Path.get? doc entry.1)) ∧
      refined spec spec' = [("k", .int32 1), ("n", .int64 1)] ∧
      (∃ found, run [sortStage spec, matchStage filter] docs = .ok found ∧
        run [matchStage filter, sortStage spec] docs = .ok found) ∧
      (∃ found, run [sortStage spec, sortStage spec'] docs = .ok found ∧
        run [sortStage (refined spec spec')] docs = .ok found) ∧
      ∃ found, run [matchStage filter, matchStage other] docs = .ok found ∧
        run [matchStage (bothOf filter other)] docs = .ok found := by
  intro docs filter other spec spec'
  have hfilter : Filter.WellFormed filter := .field (by decide) (by simp [Filter.IsCondition,
    Filter.operators?]) .nil
  have hother : Filter.WellFormed other :=
    Filter.wellFormed_single (by decide) (Or.inl (by decide))
  have hdecides : Decides filter docs := fun doc _ => hfilter.decidesOn doc
  have hdecides' : Decides other docs := fun doc _ => hother.decidesOn doc
  have hspec : ∀ entry ∈ spec, IsDirection entry.2 := by
    simp [spec, IsDirection, Sorting.directions]
  have hspec' : ∀ entry ∈ spec', IsDirection entry.2 := by
    simp [spec', IsDirection, Sorting.directions]
  have hfields : ∀ doc ∈ docs, ∀ path ∈ ["n", "k"], NoSymbol (Path.get? doc path) := by
    intro doc hdoc path hpath s
    simp only [docs, List.mem_cons, List.not_mem_nil, or_false] at hdoc hpath
    rcases hdoc with rfl | rfl | rfl <;> rcases hpath with rfl | rfl <;> rintro ⟨⟩
  have hdocs : ∀ doc ∈ docs, ∀ entry ∈ spec, NoSymbol (Path.get? doc entry.1) := by
    simpa [spec] using hfields
  have hdocs' : ∀ doc ∈ docs, ∀ entry ∈ spec', NoSymbol (Path.get? doc entry.1) :=
    fun doc hdoc entry hentry => hfields doc hdoc entry.1 (by
      rw [List.mem_singleton.mp hentry]
      decide)
  exact ⟨hdecides, hdecides', hspec, hspec', hdocs, hdocs', rfl,
    equal_pipelines hdecides hdecides' hspec hspec' hdocs hdocs'⟩

end Pipeline

end DocShell
