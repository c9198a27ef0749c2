import Mathlib.Data.List.Forall2
import DocShell.Proofs.Plan.Rejection

/-!
# Chains that describe a cursor

A chain is carried out from left to right with one cursor at hand, which `find` opens and
later calls change.  Read as a whole it says something simpler: the filter and the
projection of its `find`, and of each kind of refinement the one that stands last.

## Strategy

What valid arguments are is said by relations that know nothing of the readers:
`Value.Denotes` for the integers of `skip` and `limit`, `Call.Opens` for `find`, and
`Call.Refines` for the calls behind it.

* The readers accept exactly these (`Call.opens_iff`, `Call.refines_iff`).
* Refining one after the other leaves the last of each kind (`Cursor.foldl_refine`), so a
  chain of valid calls is planned as `Cursor.ofLast` (`ofCalls_of_isQuery`).
* Of a kind of refinement only the calls of one method speak (`filterMap_of_refines`), so
  calls of different methods can change places (`ofLast_congr`).
* Every other chain meets a failure on its way, unless it is one call that stands alone
  (`ofCalls_of_neither`).
-/

namespace DocShell

/-! ## Valid arguments -/

/-- The integers that values are taken for: an integer itself, a double without a fraction,
cut off at the ends of the 64-bit integers, and the text of a 64-bit integer between
blanks. -/
inductive Value.Denotes : Value → Int → Prop
  | int32 (n : Int32) : Denotes (.int32 n) n.toInt
  | int64 (n : Int64) : Denotes (.int64 n) n.toInt
  | double {x : Double} : x.isInteger = true → Denotes (.double x) x.truncate.toInt
  | string {s : String} {n : Int} :
      Text.readInt64? (Text.trim s.toList) = some n → Denotes (.string s) n

namespace Call

theorem looseInteger?_eq_some_iff {value : Value} {n : Int} :
    looseInteger? value = some n ↔ value.Denotes n := by
  constructor
  · intro hvalue
    cases value with
    | int32 m =>
        cases hvalue
        exact .int32 m
    | int64 m =>
        cases hvalue
        exact .int64 m
    | double x =>
        simp only [looseInteger?, Value.integer?, Option.ite_none_right_eq_some,
          Option.some.injEq] at hvalue
        obtain ⟨hinteger, rfl⟩ := hvalue
        exact .double hinteger
    | string s => exact .string hvalue
    | _ => simp [looseInteger?, Value.integer?] at hvalue
  · intro hvalue
    cases hvalue with
    | int32 | int64 => rfl
    | double hinteger => simp [looseInteger?, Value.integer?, hinteger]
    | string hread => exact hread

/-- What a call can be given where a document may be left out. -/
inductive GivesDocument : Option Value → Option Document → Prop
  | missing : GivesDocument none none
  | null : GivesDocument (some .null) none
  | document (fields : Document) : GivesDocument (some (.document fields)) (some fields)

/-- The call is `find`, with a filter and a projection that may both be left out. -/
structure Opens (call : Call) (filter : Document) (projection : Option Document) : Prop where
  method_eq : call.method = "find"
  length_le : call.arguments.length ≤ 2
  gives_filter : ∃ given, GivesDocument call.arguments[0]? given ∧ given.getD [] = filter
  gives_projection : GivesDocument call.arguments[1]? projection

/-- The call refines a cursor, and says how. -/
inductive Refines : Call → Refinement → Prop
  | sort (spec : Document) : Refines ⟨"sort", [.document spec]⟩ (.sort spec)
  | skip {value : Value} {n : Nat} : value.Denotes n → Refines ⟨"skip", [value]⟩ (.skip n)
  | limit {value : Value} {n : Int} :
      value.Denotes n → Refines ⟨"limit", [value]⟩ (.limit n.natAbs)
  | toArray : Refines ⟨"toArray", []⟩ .nothing
  | pretty : Refines ⟨"pretty", []⟩ .nothing

/-! ### The readers accept exactly these -/

variable {call : Call} {expected : String}

theorem atMost_eq_ok_iff {most : Nat} :
    call.atMost most expected = .ok () ↔ call.arguments.length ≤ most := by
  unfold atMost
  split <;> simp_all [invalid]

theorem document?_eq_ok_iff {place : Nat} {given : Option Document} :
    call.document? place expected = .ok given ↔ GivesDocument call.arguments[place]? given := by
  unfold document?
  constructor
  · intro hgiven
    split at hgiven
    · next hplace =>
        cases hgiven
        rw [hplace]
        exact .missing
    · next hplace =>
        cases hgiven
        rw [hplace]
        exact .null
    · next fields hplace =>
        cases hgiven
        rw [hplace]
        exact .document fields
    · simp [invalid] at hgiven
  · intro hgives
    generalize call.arguments[place]? = argument at hgives ⊢
    cases hgives <;> rfl

theorem document_eq_ok_iff {place : Nat} {fields : Document} :
    call.document place expected = .ok fields ↔
      call.arguments[place]? = some (.document fields) := by
  unfold document
  constructor
  · intro hfields
    split at hfields
    · simp at hfields
    · next hgiven =>
        cases hfields
        have hgives := document?_eq_ok_iff.mp hgiven
        generalize call.arguments[place]? = argument at hgives ⊢
        cases hgives
        rfl
    · simp [invalid] at hfields
  · intro hplace
    have hgiven : call.document? place expected = .ok (some fields) := by
      rw [document?_eq_ok_iff, hplace]
      exact .document fields
    rw [hgiven]

theorem integer_eq_ok_iff {n : Int} :
    call.integer expected = .ok n ↔ ∃ value ∈ call.arguments.head?, value.Denotes n := by
  unfold integer
  cases call.arguments.head? with
  | none => simp [invalid]
  | some value =>
      simp only [Option.bind_some, Option.mem_some_iff, exists_eq_left',
        ← looseInteger?_eq_some_iff]
      cases looseInteger? value <;> simp [invalid]

theorem readQuery_eq_ok_iff {filter : Document} {projection : Option Document} :
    Cursor.readQuery call = .ok (filter, projection) ↔
      call.arguments.length ≤ 2 ∧
        (∃ given, GivesDocument call.arguments[0]? given ∧ given.getD [] = filter) ∧
        GivesDocument call.arguments[1]? projection := by
  unfold Cursor.readQuery
  constructor
  · intro hquery
    split at hquery
    · simp at hquery
    · next hcount =>
        split at hquery
        · simp at hquery
        · next given hgiven =>
            obtain ⟨shown, hshown, heq⟩ := Outcome.map_eq_ok_iff.mp hquery
            cases heq
            exact ⟨atMost_eq_ok_iff.mp hcount, ⟨given, document?_eq_ok_iff.mp hgiven, rfl⟩,
              document?_eq_ok_iff.mp hshown⟩
  · rintro ⟨hcount, ⟨given, hgiven, rfl⟩, hshown⟩
    rw [atMost_eq_ok_iff.mpr hcount, document?_eq_ok_iff.mpr hgiven]
    exact Outcome.map_eq_ok_iff.mpr ⟨projection, document?_eq_ok_iff.mpr hshown, rfl⟩

theorem opens_iff {filter : Document} {projection : Option Document} :
    call.Opens filter projection ↔
      call.method = "find" ∧ Cursor.ofCall call = .ok { filter, projection } := by
  rw [Cursor.ofCall, Outcome.map_eq_ok_iff]
  constructor
  · rintro ⟨hmethod, hcount, hfilter, hprojection⟩
    exact ⟨hmethod, (filter, projection),
      readQuery_eq_ok_iff.mpr ⟨hcount, hfilter, hprojection⟩, rfl⟩
  · rintro ⟨hmethod, ⟨filter', projection'⟩, hquery, heq⟩
    cases heq
    obtain ⟨hcount, hfilter, hprojection⟩ := readQuery_eq_ok_iff.mp hquery
    exact ⟨hmethod, hcount, hfilter, hprojection⟩

theorem exists_opens_of_ofCall {cursor : Cursor} (hmethod : call.method = "find")
    (hcursor : Cursor.ofCall call = .ok cursor) :
    ∃ filter projection, call.Opens filter projection := by
  obtain ⟨⟨filter, projection⟩, -, heq⟩ := Outcome.map_eq_ok_iff.mp hcursor
  subst heq
  exact ⟨filter, projection, opens_iff.mpr ⟨hmethod, hcursor⟩⟩

theorem arguments_eq_singleton_iff {value : Value} :
    call.arguments = [value] ↔ call.arguments.length ≤ 1 ∧ call.arguments[0]? = some value := by
  match call.arguments with
  | [] => simp
  | [_] => simp
  | _ :: _ :: _ => simp

theorem readSort_eq_ok_iff {refinement : Refinement} :
    Refinement.readSort call = .ok refinement ↔
      ∃ spec, call.arguments = [.document spec] ∧ refinement = .sort spec := by
  unfold Refinement.readSort
  constructor
  · intro hsort
    split at hsort
    · simp at hsort
    · next hcount =>
        obtain ⟨spec, hspec, rfl⟩ := Outcome.map_eq_ok_iff.mp hsort
        exact ⟨spec, arguments_eq_singleton_iff.mpr
          ⟨atMost_eq_ok_iff.mp hcount, document_eq_ok_iff.mp hspec⟩, rfl⟩
  · rintro ⟨spec, harguments, rfl⟩
    obtain ⟨hcount, hspec⟩ := arguments_eq_singleton_iff.mp harguments
    rw [atMost_eq_ok_iff.mpr hcount]
    exact Outcome.map_eq_ok_iff.mpr ⟨spec, document_eq_ok_iff.mpr hspec, rfl⟩

/-- One argument that stands for an integer. -/
theorem integer_of_atMost_iff {n : Int} :
    call.arguments.length ≤ 1 ∧ call.integer expected = .ok n ↔
      ∃ value, call.arguments = [value] ∧ value.Denotes n := by
  simp only [integer_eq_ok_iff, arguments_eq_singleton_iff, List.head?_eq_getElem?,
    Option.mem_def]
  constructor
  · rintro ⟨hcount, value, hvalue, hdenotes⟩
    exact ⟨value, ⟨hcount, hvalue⟩, hdenotes⟩
  · rintro ⟨value, ⟨hcount, hvalue⟩, hdenotes⟩
    exact ⟨hcount, value, hvalue, hdenotes⟩

theorem readSkip_eq_ok_iff {refinement : Refinement} :
    Refinement.readSkip call = .ok refinement ↔
      ∃ value, ∃ n : Nat, call.arguments = [value] ∧ value.Denotes n ∧ refinement = .skip n := by
  unfold Refinement.readSkip
  constructor
  · intro hskip
    split at hskip
    · simp at hskip
    · next hcount =>
        split at hskip
        · simp at hskip
        · next n hn =>
            split at hskip
            · next hpos =>
                obtain ⟨value, harguments, hdenotes⟩ :=
                  integer_of_atMost_iff.mp ⟨atMost_eq_ok_iff.mp hcount, hn⟩
                rw [← Int.toNat_of_nonneg hpos] at hdenotes
                exact ⟨value, n.toNat, harguments, hdenotes, (Except.ok.inj hskip).symm⟩
            · simp [invalid] at hskip
  · rintro ⟨value, n, harguments, hdenotes, rfl⟩
    obtain ⟨hcount, hn⟩ := integer_of_atMost_iff.mpr ⟨value, harguments, hdenotes⟩
    rw [atMost_eq_ok_iff.mpr hcount, hn]
    simp

theorem readLimit_eq_ok_iff {refinement : Refinement} :
    Refinement.readLimit call = .ok refinement ↔
      ∃ value n, call.arguments = [value] ∧ value.Denotes n ∧ refinement = .limit n.natAbs := by
  unfold Refinement.readLimit
  constructor
  · intro hlimit
    split at hlimit
    · simp at hlimit
    · next hcount =>
        obtain ⟨n, hn, rfl⟩ := Outcome.map_eq_ok_iff.mp hlimit
        obtain ⟨value, harguments, hdenotes⟩ :=
          integer_of_atMost_iff.mp ⟨atMost_eq_ok_iff.mp hcount, hn⟩
        exact ⟨value, n, harguments, hdenotes, rfl⟩
  · rintro ⟨value, n, harguments, hdenotes, rfl⟩
    obtain ⟨hcount, hn⟩ := integer_of_atMost_iff.mpr ⟨value, harguments, hdenotes⟩
    rw [atMost_eq_ok_iff.mpr hcount, hn]
    rfl

theorem readNothing_eq_ok_iff {refinement : Refinement} :
    ((call.atMost 0 expected).map fun _ => Refinement.nothing) = .ok refinement ↔
      call.arguments = [] ∧ refinement = .nothing := by
  rw [Outcome.map_eq_ok_iff, ← List.length_eq_zero_iff, ← Nat.le_zero]
  constructor
  · rintro ⟨⟨⟩, hcount, rfl⟩
    exact ⟨atMost_eq_ok_iff.mp hcount, rfl⟩
  · rintro ⟨hcount, rfl⟩
    exact ⟨(), atMost_eq_ok_iff.mpr hcount, rfl⟩

theorem refines_iff {refinement : Refinement} :
    call.Refines refinement ↔ Refinement.ofCall? call = some (.ok refinement) := by
  constructor
  · intro hrefines
    cases hrefines with
    | sort spec =>
        exact congrArg some (readSort_eq_ok_iff.mpr ⟨spec, rfl, rfl⟩)
    | skip hdenotes => exact congrArg some (readSkip_eq_ok_iff.mpr ⟨_, _, rfl, hdenotes, rfl⟩)
    | limit hdenotes => exact congrArg some (readLimit_eq_ok_iff.mpr ⟨_, _, rfl, hdenotes, rfl⟩)
    | toArray | pretty => rfl
  · intro hcall
    obtain ⟨method, arguments⟩ := call
    unfold Refinement.ofCall? at hcall
    split at hcall
    · next hmethod =>
        cases hmethod
        obtain ⟨spec, rfl, rfl⟩ := readSort_eq_ok_iff.mp (Option.some.inj hcall)
        exact .sort spec
    · next hmethod =>
        cases hmethod
        obtain ⟨value, n, rfl, hdenotes, rfl⟩ := readSkip_eq_ok_iff.mp (Option.some.inj hcall)
        exact .skip hdenotes
    · next hmethod =>
        cases hmethod
        obtain ⟨value, n, rfl, hdenotes, rfl⟩ := readLimit_eq_ok_iff.mp (Option.some.inj hcall)
        exact .limit hdenotes
    · next hmethod =>
        cases hmethod
        obtain ⟨rfl, rfl⟩ := readNothing_eq_ok_iff.mp (Option.some.inj hcall)
        exact .toArray
    · next hmethod =>
        cases hmethod
        obtain ⟨rfl, rfl⟩ := readNothing_eq_ok_iff.mp (Option.some.inj hcall)
        exact .pretty
    · simp at hcall

end Call

/-! ## The last of each kind -/

namespace Refinement

/-- The sorting that a refinement asks for. -/
def sort? : Refinement → Option Document
  | .sort spec => some spec
  | _ => none

/-- The number of documents to skip that a refinement asks for. -/
def skip? : Refinement → Option Nat
  | .skip count => some count
  | _ => none

/-- The limit that a refinement asks for. -/
def limit? : Refinement → Option Nat
  | .limit count => some count
  | _ => none

end Refinement

namespace Cursor

/-- The cursor of a filter and a projection with the last sorting, the last number to skip
and the last limit of the refinements. -/
def ofLast (filter : Document) (projection : Option Document) (refinements : List Refinement) :
    Cursor :=
  { filter, projection
    sort := (refinements.filterMap Refinement.sort?).getLast?
    skip := (refinements.filterMap Refinement.skip?).getLast?
    limit := (refinements.filterMap Refinement.limit?).getLast? }

/-- Refinements one after the other leave the last of each kind, and what the cursor had of
a kind that does not occur. -/
theorem foldl_refine (cursor : Cursor) (refinements : List Refinement) :
    refinements.foldl refine cursor =
      { cursor with
        sort := (refinements.filterMap Refinement.sort?).getLast?.or cursor.sort
        skip := (refinements.filterMap Refinement.skip?).getLast?.or cursor.skip
        limit := (refinements.filterMap Refinement.limit?).getLast?.or cursor.limit } := by
  induction refinements generalizing cursor with
  | nil => rfl
  | cons refinement more ih =>
      rw [List.foldl_cons, ih]
      cases refinement <;>
        simp [refine, Refinement.sort?, Refinement.skip?, Refinement.limit?, List.getLast?_cons]

theorem foldl_refine_open (filter : Document) (projection : Option Document)
    (refinements : List Refinement) :
    refinements.foldl refine { filter, projection } = ofLast filter projection refinements := by
  rw [foldl_refine]
  simp [ofLast]

end Cursor

/-! ## Chains -/

namespace Chain

/-- The calls are a `find` and calls that refine its cursor, all with valid arguments. -/
inductive IsQuery (filter : Document) (projection : Option Document)
    (refinements : List Refinement) : List Call → Prop
  | intro {find : Call} {calls : List Call} : find.Opens filter projection →
      List.Forall₂ Call.Refines calls refinements → IsQuery filter projection refinements
        (find :: calls)

/-- The calls are one call of an operation that makes a command by itself. -/
def IsTerminal (calls : List Call) : Prop :=
  ∃ call, calls = [call] ∧ call.method ∈ Command.operations ∧ call.method ≠ "find"

/-- The calls of every method that says something of the cursor are the same, in the same
order.  Where they stand among calls of other methods may differ, as may the calls that say
nothing. -/
def Agree (calls others : List Call) : Prop :=
  ∀ method ∈ ["sort", "skip", "limit"],
    (calls.filter fun call => call.method == method) =
      others.filter fun call => call.method == method

end Chain

namespace Cursor

/-- A cursor whose limit is zero finds nothing. -/
theorem eq_nil_of_run {cursor : Cursor} {docs found : List Document}
    (hlimit : cursor.limit = some 0) (hfound : cursor.run docs = .ok found) : found = [] := by
  unfold run at hfound
  split at hfound
  · simp at hfound
  · split at hfound
    · simp at hfound
    · next sorted hsorted =>
        have hwindow : cursor.window sorted = [] := by simp [window, hlimit]
        rw [hwindow] at hfound
        unfold projected at hfound
        split at hfound <;> exact (Except.ok.inj hfound).symm

/-! ### Calls that change places -/

/-- What a call says, if it is a refinement of the kind that `kind` picks. -/
def said? {α : Type} (kind : Refinement → Option α) (call : Call) : Option α :=
  match Refinement.ofCall? call with
  | some (.ok refinement) => kind refinement
  | _ => none

variable {calls others : List Call} {refinements : List Refinement}

/-- Of a kind of refinement that only one method asks for, the calls of that method tell
all. -/
theorem filterMap_of_refines {α : Type} {kind : Refinement → Option α} {method : String}
    (hkind : ∀ call refinement, Call.Refines call refinement → call.method ≠ method →
      kind refinement = none)
    (hcalls : List.Forall₂ Call.Refines calls refinements) :
    refinements.filterMap kind =
      (calls.filter fun call => call.method == method).filterMap (said? kind) := by
  induction hcalls with
  | nil => rfl
  | @cons call refinement calls refinements hrefines _ ih =>
      have hsaid : said? kind call = kind refinement := by
        simp [said?, Call.refines_iff.mp hrefines]
      by_cases hmethod : call.method = method
      · rw [List.filter_cons_of_pos (by simpa using hmethod)]
        simp only [List.filterMap_cons, hsaid, ih]
      · rw [List.filter_cons_of_neg (by simpa using hmethod), List.filterMap_cons,
          hkind call refinement hrefines hmethod, ih]

theorem ofLast_congr {refinements' : List Refinement} (filter : Document)
    (projection : Option Document) (hcalls : List.Forall₂ Call.Refines calls refinements)
    (hothers : List.Forall₂ Call.Refines others refinements') (hagree : Chain.Agree calls others) :
    ofLast filter projection refinements = ofLast filter projection refinements' := by
  have hsort : ∀ call refinement, Call.Refines call refinement → call.method ≠ "sort" →
      refinement.sort? = none := by
    rintro _ _ ⟨⟩ hmethod <;> first | rfl | exact absurd rfl hmethod
  have hskip : ∀ call refinement, Call.Refines call refinement → call.method ≠ "skip" →
      refinement.skip? = none := by
    rintro _ _ ⟨⟩ hmethod <;> first | rfl | exact absurd rfl hmethod
  have hlimit : ∀ call refinement, Call.Refines call refinement → call.method ≠ "limit" →
      refinement.limit? = none := by
    rintro _ _ ⟨⟩ hmethod <;> first | rfl | exact absurd rfl hmethod
  simp only [ofLast, filterMap_of_refines hsort hcalls, filterMap_of_refines hskip hcalls,
    filterMap_of_refines hlimit hcalls, filterMap_of_refines hsort hothers,
    filterMap_of_refines hskip hothers, filterMap_of_refines hlimit hothers,
    hagree "sort" (by simp), hagree "skip" (by simp), hagree "limit" (by simp)]

end Cursor

namespace Plan

/-! ### Plans for chains -/

variable {ns : Namespace} {calls : List Call} {refinements : List Refinement}

theorem ofRefinements_of_forall₂ (cursor : Cursor)
    (hcalls : List.Forall₂ Call.Refines calls refinements) :
    ofRefinements ns cursor calls = .ok (ofCursor ns (refinements.foldl Cursor.refine cursor)) := by
  induction hcalls generalizing cursor with
  | nil => rfl
  | @cons call refinement calls refinements hrefines _ ih =>
      have hfind : call.method ≠ "find" := by cases hrefines <;> simp
      rw [ofRefinements, if_neg hfind, Call.refines_iff.mp hrefines, List.foldl_cons]
      exact ih _

/-- Calls behind `find` refine its cursor, or one of them fails. -/
theorem ofRefinements_cases (ns : Namespace) (cursor : Cursor) (calls : List Call) :
    (∃ refinements, List.Forall₂ Call.Refines calls refinements) ∨
      ∃ failure, ofRefinements ns cursor calls = .error (.usage failure) := by
  induction calls generalizing cursor with
  | nil => exact Or.inl ⟨[], .nil⟩
  | cons call more ih =>
      rw [ofRefinements]
      split
      · exact Or.inr ⟨_, rfl⟩
      · split
        · next refinement hcall =>
            rcases ih (cursor.refine refinement) with ⟨refinements, hmore⟩ | hfailure
            · exact Or.inl ⟨refinement :: refinements, .cons (Call.refines_iff.mpr hcall) hmore⟩
            · exact Or.inr hfailure
        · exact Or.inr ⟨_, rfl⟩
        · exact Or.inr ⟨_, rfl⟩

/-- A query is planned as the cursor with the last refinement of each kind. -/
theorem ofCalls_of_isQuery {filter : Document} {projection : Option Document}
    (readOnly : Bool) (hquery : Chain.IsQuery filter projection refinements calls) :
    ofCalls readOnly ns calls =
      .ok (ofCursor ns (Cursor.ofLast filter projection refinements)) := by
  obtain ⟨hopens, hcalls⟩ := hquery
  obtain ⟨hfind, hcursor⟩ := Call.opens_iff.mp hopens
  simp only [ofCalls, hfind, if_true, hcursor, ← Cursor.foldl_refine_open]
  exact ofRefinements_of_forall₂ _ hcalls

/-- A call that stands alone is looked up among the operations. -/
theorem ofCall_of_not_mem_operations {call : Call} (readOnly : Bool)
    (hcall : call.method ∉ Command.operations) :
    ofCall readOnly ns call =
      .error (.usage (.unsupportedMethod call.method Command.operations)) := by
  have hread : call.isWrite = false := by
    rw [← Bool.not_eq_true, Call.isWrite_iff]
    intro hwrite
    apply hcall
    simp only [List.mem_cons, List.not_mem_nil, or_false] at hwrite
    rcases hwrite with h | h | h | h | h | h <;> simp [Command.operations, h]
  have hrequest : Request.ofCall ns call =
      .error (.unsupportedMethod call.method Command.operations) := by
    unfold Request.ofCall
    split <;> simp_all [Command.operations]
  simp [ofCall, hread, hrequest]

/-- A chain that is neither a query nor one call that stands alone fails as something that
cannot be served. -/
theorem ofCalls_of_neither (readOnly : Bool) (hcalls : calls ≠ [])
    (hquery : ¬ ∃ filter projection refinements,
      Chain.IsQuery filter projection refinements calls)
    (hterminal : ¬ Chain.IsTerminal calls) :
    ∃ failure, ofCalls readOnly ns calls = .error (.usage failure) := by
  cases calls with
  | nil => exact absurd rfl hcalls
  | cons call more =>
      simp only [ofCalls]
      split
      · next hfind =>
          split
          · next cursor hcursor =>
              obtain ⟨filter, projection, hopens⟩ := Call.exists_opens_of_ofCall hfind hcursor
              rcases ofRefinements_cases ns cursor more with ⟨refinements, hmore⟩ | hfailure
              · exact absurd ⟨filter, projection, refinements, .intro hopens hmore⟩ hquery
              · exact hfailure
          · exact ⟨_, rfl⟩
      · next hfind =>
          split
          · exact ⟨_, rfl⟩
          · exact ⟨_, rfl⟩
          · exact ⟨_, rfl⟩
          · have hcall : call.method ∉ Command.operations :=
              fun hmem => hterminal ⟨call, rfl, hmem, hfind⟩
            exact ⟨_, ofCall_of_not_mem_operations readOnly hcall⟩

/-- Queries of one filter and one projection whose calls agree are planned alike. -/
theorem ofCalls_of_agree {others : List Call} {refinements' : List Refinement}
    {filter : Document} {projection : Option Document} (readOnly : Bool)
    (hquery : Chain.IsQuery filter projection refinements calls)
    (hothers : Chain.IsQuery filter projection refinements' others)
    (hagree : Chain.Agree calls others) :
    ofCalls readOnly ns calls = ofCalls readOnly ns others := by
  rw [ofCalls_of_isQuery readOnly hquery, ofCalls_of_isQuery readOnly hothers]
  cases hquery with
  | intro hopens hcalls =>
    cases hothers with
    | intro hopens' hcalls' =>
      rw [Cursor.ofLast_congr filter projection hcalls hcalls']
      intro method hmethod
      -- The two calls of `find` are of no method that is compared.
      have hfind : ("find" == method) = false := by
        simp only [List.mem_cons, List.not_mem_nil, or_false] at hmethod
        rcases hmethod with rfl | rfl | rfl <;> rfl
      have hmatch := hagree method hmethod
      simpa [hopens.method_eq, hopens'.method_eq, hfind] using hmatch

/-- **A chain means what its cursor says.**  A query is planned as the cursor with its
filter and projection, the last sorting, the last number to skip and the absolute value of
the last limit.  Where that limit is zero, the answer is empty and the store is not asked;
else the store is asked for that cursor, and gives the answer.  So calls of different methods
can change places, and those that say nothing can be dropped.  Every other chain fails as
something that cannot be served, without the store being asked, unless it is one call that
stands alone. -/
theorem carryOut_chain (store : Store) (readOnly : Bool) (ns : Namespace) :
    (∀ filter projection refinements calls,
      Chain.IsQuery filter projection refinements calls →
        let cursor := Cursor.ofLast filter projection refinements
        let plan := ofCalls readOnly ns calls
        (cursor.limit = some 0 →
          plan = .ok (.answer (.documents [])) ∧ asked plan = 0 ∧
            carryOut store plan = (store, .ok (.documents []))) ∧
        (cursor.limit ≠ some 0 →
          plan = .ok (.ask (.find ns cursor)) ∧ asked plan = 1 ∧
            carryOut store plan =
              (store, Request.queried ((store.find ns cursor).map .documents))) ∧
        ∀ docs, store.find ns cursor = .ok docs →
          carryOut store plan = (store, .ok (.documents docs))) ∧
    (∀ filter projection refinements refinements' calls others,
      Chain.IsQuery filter projection refinements calls →
      Chain.IsQuery filter projection refinements' others → Chain.Agree calls others →
        ofCalls readOnly ns calls = ofCalls readOnly ns others) ∧
    ∀ calls, calls ≠ [] →
      (¬ ∃ filter projection refinements, Chain.IsQuery filter projection refinements calls) →
      ¬ Chain.IsTerminal calls →
        let plan := ofCalls readOnly ns calls
        ∃ failure, plan = .error (.usage failure) ∧ asked plan = 0 ∧
          carryOut store plan = (store, .error (.usage failure)) := by
  refine ⟨?_, fun _ _ _ _ _ _ hquery hothers => ofCalls_of_agree readOnly hquery hothers, ?_⟩
  · intro filter projection refinements calls hquery cursor plan
    have hplan : plan = .ok (ofCursor ns cursor) := ofCalls_of_isQuery readOnly hquery
    rw [hplan]
    by_cases hlimit : cursor.limit = some 0
    · have hcursor : ofCursor ns cursor = .answer (.documents []) := by
        simp [ofCursor, Cursor.isExhausted, hlimit]
      rw [hcursor]
      refine ⟨fun _ => ⟨rfl, rfl, rfl⟩, fun hne => absurd hlimit hne, ?_⟩
      intro docs hdocs
      rw [Cursor.eq_nil_of_run hlimit hdocs]
      rfl
    · have hcursor : ofCursor ns cursor = .ask (.find ns cursor) := by
        simp [ofCursor, Cursor.isExhausted, hlimit]
      rw [hcursor]
      refine ⟨fun hzero => absurd hzero hlimit, fun _ => ⟨rfl, rfl, rfl⟩, ?_⟩
      intro docs hdocs
      simp [carryOut, run, Request.run, hdocs, Request.queried, Except.map, Except.mapError]
  · intro calls hcalls hquery hterminal plan
    have hfails : ∃ failure, plan = .error (.usage failure) :=
      ofCalls_of_neither readOnly hcalls hquery hterminal
    obtain ⟨failure, hplan⟩ := hfails
    rw [hplan]
    exact ⟨failure, rfl, rfl, rfl⟩

/-- A limit of zero is overruled by a later one, and the absolute value of the smallest
64-bit integer is out of their range. -/
theorem carryOut_chain_later_limit :
    let ns : Namespace := ⟨"shop", "items"⟩
    let calls : List Call :=
      [⟨"find", []⟩, ⟨"limit", [.int32 0]⟩, ⟨"skip", [.string " 2 "]⟩, ⟨"pretty", []⟩,
        ⟨"limit", [.int64 Int64.minValue]⟩]
    let refinements : List Refinement :=
      [.limit 0, .skip 2, .nothing, .limit 9223372036854775808]
    let cursor : Cursor := { skip := some 2, limit := some 9223372036854775808 }
    Chain.IsQuery [] none refinements calls ∧
      Cursor.ofLast [] none refinements = cursor ∧
      ofCalls true ns calls = .ok (.ask (.find ns cursor)) ∧
      carryOut {} (ofCalls true ns calls) = ({}, .ok (.documents [])) := by
  intro ns calls refinements cursor
  have hopens : Call.Opens ⟨"find", []⟩ [] none :=
    ⟨rfl, by decide, ⟨none, .missing, rfl⟩, .missing⟩
  have htext : Text.readInt64? (Text.trim " 2 ".toList) = some 2 := by decide
  have hcalls : List.Forall₂ Call.Refines calls.tail refinements :=
    .cons (.limit (.int32 0)) <| .cons (.skip (.string htext)) <| .cons .pretty <|
      .cons (.limit (.int64 Int64.minValue)) .nil
  have hquery : Chain.IsQuery [] none refinements calls := .intro hopens hcalls
  have hfind := ((carryOut_chain {} true ns).1 [] none refinements calls hquery).2.1 (by decide)
  exact ⟨hquery, rfl, hfind.1, hfind.2.2⟩

end Plan

end DocShell
