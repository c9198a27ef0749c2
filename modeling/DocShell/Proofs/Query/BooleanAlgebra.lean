import DocShell.Proofs.Store.Selection

/-!
# Filters as Boolean expressions

A filter is evaluated from left to right, and evaluation stops at the first entry, clause
or operator that decides the outcome or fails.  Where nothing fails the order does not
show: a well-formed filter is a Boolean expression.

* `WellFormed`: filters in which nothing can fail;
* `holds_eq_all`, `holds_connective`, `holds_condition`: a filter, a connective and a
  condition as a conjunction or disjunction of their parts;
* `Rearranged`: filters that differ in the order of their parts, at any depth.

## Strategy

Each of the five walks (entries, clauses of `$and` and of `$or`, operators, set elements)
has one lemma that reads it as `List.all` or `List.any` when no step fails.  That no step of
a well-formed filter fails goes by induction on its derivation, and the invariance under
rearranging is that of `all` and `any` under permutations, once for each constructor.
-/

namespace DocShell.Filter

variable {doc : Document} {path op : String} {operand : Value}

theorem all_congr_of_mem {α : Type} {items : List α} {p q : α → Bool}
    (hitems : ∀ item ∈ items, p item = q item) : items.all p = items.all q := by
  rw [Bool.eq_iff_iff, List.all_eq_true, List.all_eq_true]
  exact forall₂_congr fun item hitem => by rw [hitems item hitem]

theorem forall_mem_replace {α : Type} {P : α → Prop} {front back : List α} {item other : α}
    (hitems : ∀ x ∈ front ++ item :: back, P x) (hother : P other) :
    ∀ x ∈ front ++ other :: back, P x := by
  simp only [List.mem_append, List.mem_cons] at hitems ⊢
  rintro x (hx | rfl | hx)
  · exact hitems x (Or.inl hx)
  · exact hother
  · exact hitems x (Or.inr (Or.inr hx))

/-! ### Single operators -/

/-- The filter with one operator on one path. -/
def single (path op : String) (operand : Value) : Document :=
  [(path, .document [(op, operand)])]

/-- The operators that take any operand. -/
def freeOperators : List String :=
  ["$eq", "$ne", "$gt", "$gte", "$lt", "$lte", "$exists"]

/-- The operators that take a set. -/
def setOperators : List String :=
  ["$in", "$nin"]

/-- A known operator with an operand that it takes. -/
def Applies (op : String) (operand : Value) : Prop :=
  op ∈ freeOperators ∨ op ∈ setOperators ∧ ∃ items, operand = .array items

/-- The field meets the operator; one that fails is not met. -/
def meets (field : Option Value) (op : String) (operand : Value) : Bool :=
  match holdsOperator field op operand with
  | .ok outcome => outcome
  | .error _ => false

theorem Applies.isOperator (happlies : Applies op operand) : isOperator op = true := by
  have hall : ∀ op ∈ freeOperators ++ setOperators, Filter.isOperator op = true := by decide
  exact hall op (List.mem_append.mpr (happlies.imp id And.left))

theorem holdsOperator_eq (field : Option Value) (happlies : Applies op operand) :
    holdsOperator field op operand = .ok (meets field op operand) := by
  have hok : ∃ outcome, holdsOperator field op operand = .ok outcome := by
    rcases happlies with hfree | ⟨hset, items, rfl⟩
    · simp only [freeOperators, List.mem_cons, List.not_mem_nil, or_false] at hfree
      rcases hfree with rfl | rfl | rfl | rfl | rfl | rfl | rfl <;> exact ⟨_, rfl⟩
    · simp only [setOperators, List.mem_cons, List.not_mem_nil, or_false] at hset
      rcases hset with rfl | rfl <;> exact ⟨_, rfl⟩
  obtain ⟨outcome, houtcome⟩ := hok
  rw [meets, houtcome]

theorem holdsOperators_eq_all (field : Option Value) {ops : List (String × Value)}
    (hops : ∀ entry ∈ ops, Applies entry.1 entry.2) :
    holdsOperators field ops = .ok (ops.all fun entry => meets field entry.1 entry.2) := by
  induction ops with
  | nil => rfl
  | cons entry more ih =>
      obtain ⟨hentry, hmore⟩ := List.forall_mem_cons.mp hops
      rw [holdsOperators, holdsOperator_eq field hentry]
      cases hmeets : meets field entry.1 entry.2 with
      | true => simp [hmeets, ih hmore]
      | false => simp [hmeets]

/-! ### Conditions -/

/-- The condition is a value to compare with, or a document of operators that apply. -/
def IsCondition (condition : Value) : Prop :=
  ∀ ops, operators? condition = some ops → ∀ entry ∈ ops, Applies entry.1 entry.2

theorem operators?_of_applies {ops : List (String × Value)} (hne : ops ≠ [])
    (hops : ∀ entry ∈ ops, Applies entry.1 entry.2) : operators? (.document ops) = some ops := by
  cases ops with
  | nil => exact absurd rfl hne
  | cons entry more =>
      exact if_pos (hops entry (List.mem_cons_self ..)).isOperator

theorem eq_document_of_operators? {condition : Value} {ops : List (String × Value)}
    (hops : operators? condition = some ops) : condition = .document ops ∧ ops ≠ [] := by
  unfold operators? at hops
  split at hops
  · split at hops
    · cases hops
      exact ⟨rfl, by simp⟩
    · cases hops
  · cases hops

theorem isCondition_document {ops : List (String × Value)}
    (hops : ∀ entry ∈ ops, Applies entry.1 entry.2) : IsCondition (.document ops) := by
  intro entries hentries
  obtain ⟨heq, -⟩ := eq_document_of_operators? hentries
  cases heq
  exact hops

theorem not_isConnective (hpath : isOperator path = false) : isConnective path = false := by
  rw [← Bool.not_eq_true]
  intro hconnective
  have hall : ∀ op ∈ ["$and", "$or", "$nor"], isOperator op = true := by decide
  have hmem : path ∈ ["$and", "$or", "$nor"] := by
    simpa [isConnective, or_assoc] using hconnective
  rw [hall path hmem] at hpath
  cases hpath

theorem holds_singleton (doc : Document) (key : String) (condition : Value) :
    holds doc [(key, condition)] = holdsEntry doc key condition := by
  rw [holds]
  split
  · next hentry => rw [hentry, holds]
  · rfl

theorem holds_field (doc : Document) (hpath : isOperator path = false) (condition : Value) :
    holds doc [(path, condition)] = holdsField (Path.get? doc path) condition := by
  have hentry : holdsEntry doc path condition = holdsPath doc path condition := by
    cases condition <;> simp [holdsEntry, not_isConnective hpath]
  rw [holds_singleton, hentry, holdsPath, if_neg (by rw [hpath]; decide)]

theorem holds_single (doc : Document) (hpath : isOperator path = false)
    (happlies : Applies op operand) :
    holds doc (single path op operand) = .ok (meets (Path.get? doc path) op operand) := by
  have hops : operators? (.document [(op, operand)]) = some [(op, operand)] :=
    if_pos happlies.isOperator
  rw [single, holds_field doc hpath, holdsField, hops]
  simp only
  rw [holdsOperators_eq_all _ (by simpa using happlies)]
  simp

theorem accepts_single (doc : Document) (hpath : isOperator path = false)
    (happlies : Applies op operand) :
    accepts (single path op operand) doc = meets (Path.get? doc path) op operand :=
  accepts_of_holds (holds_single doc hpath happlies)

/-- A condition is the conjunction of its operators. -/
theorem holds_condition (doc : Document) (hpath : isOperator path = false)
    {ops : List (String × Value)} (hne : ops ≠ [])
    (hops : ∀ entry ∈ ops, Applies entry.1 entry.2) :
    holds doc [(path, .document ops)] =
      .ok (ops.all fun entry => accepts (single path entry.1 entry.2) doc) := by
  have hsingle : ∀ entry ∈ ops, meets (Path.get? doc path) entry.1 entry.2 =
      accepts (single path entry.1 entry.2) doc := by
    intro entry hentry
    rw [accepts_single doc hpath (hops entry hentry)]
  rw [holds_field doc hpath, holdsField, operators?_of_applies hne hops]
  simp only
  rw [holdsOperators_eq_all _ hops, all_congr_of_mem hsingle]

theorem holdsField_eq (field : Option Value) {condition : Value}
    (hcondition : IsCondition condition) :
    ∃ outcome, holdsField field condition = .ok outcome := by
  rw [holdsField]
  cases hops : operators? condition with
  | none => exact ⟨_, rfl⟩
  | some ops => exact ⟨_, holdsOperators_eq_all field (hcondition ops hops)⟩

/-! ### Entries and clauses -/

/-- The filter does not fail on the document. -/
def DecidesOn (doc filter : Document) : Prop :=
  holds doc filter = .ok (accepts filter doc)

theorem decidesOn_of_holds {filter : Document} {outcome : Bool}
    (hholds : holds doc filter = .ok outcome) : DecidesOn doc filter := by
  rw [DecidesOn, hholds, accepts_of_holds hholds]

/-- A filter is the conjunction of its entries. -/
theorem holds_eq_all {filter : Document} (hentries : ∀ entry ∈ filter, DecidesOn doc [entry]) :
    holds doc filter = .ok (filter.all fun entry => accepts [entry] doc) := by
  induction filter with
  | nil => rfl
  | cons entry more ih =>
      obtain ⟨hentry, hmore⟩ := List.forall_mem_cons.mp hentries
      rw [DecidesOn, holds_singleton] at hentry
      rw [holds, hentry]
      cases haccepts : accepts [entry] doc with
      | true => simp [haccepts, ih hmore]
      | false => simp [haccepts]

theorem holdsAll_eq {clauses : List Document}
    (hclauses : ∀ clause ∈ clauses, DecidesOn doc clause) :
    holdsAll doc (clauses.map .document) = .ok (clauses.all fun clause => accepts clause doc) := by
  induction clauses with
  | nil => rfl
  | cons clause more ih =>
      obtain ⟨hclause, hmore⟩ := List.forall_mem_cons.mp hclauses
      rw [List.map_cons, holdsAll, holdsClause, hclause]
      cases haccepts : accepts clause doc with
      | true => simp [haccepts, ih hmore]
      | false => simp [haccepts]

theorem holdsAny_eq {clauses : List Document}
    (hclauses : ∀ clause ∈ clauses, DecidesOn doc clause) :
    holdsAny doc (clauses.map .document) = .ok (clauses.any fun clause => accepts clause doc) := by
  induction clauses with
  | nil => rfl
  | cons clause more ih =>
      obtain ⟨hclause, hmore⟩ := List.forall_mem_cons.mp hclauses
      rw [List.map_cons, holdsAny, holdsClause, hclause]
      cases haccepts : accepts clause doc with
      | true => simp [haccepts]
      | false => simp [haccepts, ih hmore]

/-- What a connective makes of the outcomes of its clauses. -/
def verdict (op : String) (outcomes : List Bool) : Bool :=
  if op = "$and" then outcomes.all id
  else if op = "$or" then outcomes.any id
  else !outcomes.any id

theorem holds_connective {clauses : List Document} (hop : isConnective op = true)
    (hne : clauses ≠ []) (hclauses : ∀ clause ∈ clauses, DecidesOn doc clause) :
    holds doc [(op, .array (clauses.map .document))] =
      .ok (verdict op (clauses.map fun clause => accepts clause doc)) := by
  have hcheck : checkClauses op (clauses.map .document) = .ok () := by
    rw [checkClauses, if_neg (by simpa using hne), if_pos (by simp [Value.document?])]
  rw [holds_singleton, holdsEntry, if_pos hop, hcheck]
  simp only [holdsAll_eq hclauses, holdsAny_eq hclauses, verdict, List.all_map, List.any_map,
    beq_iff_eq]
  split
  · rfl
  · split <;> rfl

/-! ### Well-formed filters -/

/-- A filter in which nothing can fail: a path has a condition, and a connective a clause or
several, all well-formed filters themselves. -/
inductive WellFormed : Document → Prop
  | nil : WellFormed []
  | field {path : String} {condition : Value} {more : Document} :
      isOperator path = false → IsCondition condition → WellFormed more →
      WellFormed ((path, condition) :: more)
  | connective {op : String} {clauses : List Document} {more : Document} :
      isConnective op = true → clauses ≠ [] →
      (∀ clause ∈ clauses, WellFormed clause) → WellFormed more →
      WellFormed ((op, .array (clauses.map .document)) :: more)

theorem WellFormed.entries {filter : Document} (hfilter : WellFormed filter) :
    ∀ entry ∈ filter, WellFormed [entry] := by
  induction hfilter with
  | nil => simp
  | field hpath hcondition _ ih => exact List.forall_mem_cons.mpr ⟨.field hpath hcondition .nil, ih⟩
  | connective hop hne hclauses _ _ ih =>
      exact List.forall_mem_cons.mpr ⟨.connective hop hne hclauses .nil, ih⟩

theorem WellFormed.append {filter other : Document} (hfilter : WellFormed filter)
    (hother : WellFormed other) : WellFormed (filter ++ other) := by
  induction hfilter with
  | nil => exact hother
  | field hpath hcondition _ ih => exact .field hpath hcondition ih
  | connective hop hne hclauses _ _ ih => exact .connective hop hne hclauses ih

theorem wellFormed_iff {filter : Document} :
    WellFormed filter ↔ ∀ entry ∈ filter, WellFormed [entry] := by
  refine ⟨WellFormed.entries, fun hentries => ?_⟩
  induction filter with
  | nil => exact .nil
  | cons entry more ih =>
      obtain ⟨hentry, hmore⟩ := List.forall_mem_cons.mp hentries
      exact hentry.append (ih hmore)

theorem wellFormed_connective_iff {clauses : List Document} (hop : isConnective op = true) :
    WellFormed [(op, .array (clauses.map .document))] ↔
      clauses ≠ [] ∧ ∀ clause ∈ clauses, WellFormed clause := by
  constructor
  · intro hfilter
    generalize hitems : clauses.map Value.document = items at hfilter
    cases hfilter with
    | field hpath => rw [not_isConnective hpath] at hop; cases hop
    | connective _ hne hclauses _ =>
        rw [(List.map_inj_right fun _ _ => Value.document.inj).mp hitems]
        exact ⟨hne, hclauses⟩
  · exact fun ⟨hne, hclauses⟩ => .connective hop hne hclauses .nil

/-- A well-formed filter fails on no document. -/
theorem WellFormed.decidesOn {filter : Document} (hfilter : WellFormed filter) (doc : Document) :
    DecidesOn doc filter := by
  suffices hentries : ∀ entry ∈ filter, DecidesOn doc [entry] from
    decidesOn_of_holds (holds_eq_all hentries)
  induction hfilter with
  | nil => simp
  | @field path condition more hpath hcondition _ ih =>
      obtain ⟨outcome, houtcome⟩ := holdsField_eq (Path.get? doc path) hcondition
      rw [← holds_field doc hpath] at houtcome
      exact List.forall_mem_cons.mpr ⟨decidesOn_of_holds houtcome, ih⟩
  | connective hop hne _ _ hclauses ih =>
      have hdecides := fun clause hclause =>
        decidesOn_of_holds (holds_eq_all (hclauses clause hclause))
      exact List.forall_mem_cons.mpr ⟨decidesOn_of_holds (holds_connective hop hne hdecides), ih⟩

theorem WellFormed.holds_eq_all {filter : Document} (hfilter : WellFormed filter)
    (doc : Document) : holds doc filter = .ok (filter.all fun entry => accepts [entry] doc) :=
  Filter.holds_eq_all fun entry hentry => (hfilter.entries entry hentry).decidesOn doc

theorem WellFormed.accepts_eq_all {filter : Document} (hfilter : WellFormed filter)
    (doc : Document) : accepts filter doc = filter.all fun entry => accepts [entry] doc :=
  accepts_of_holds (hfilter.holds_eq_all doc)

/-! ### Other orders -/

/-- The second filter is the first one with entries, clauses, operators or set elements in
another order, at any depth. -/
inductive Rearranged : Document → Document → Prop
  | entries {filter other : Document} : filter.Perm other → Rearranged filter other
  | clauses {op : String} {clauses others : List Document} : isConnective op = true →
      clauses.Perm others →
      Rearranged [(op, .array (clauses.map .document))] [(op, .array (others.map .document))]
  | operators {path : String} {ops others : List (String × Value)} :
      operators? (.document ops) = some ops → ops.Perm others →
      Rearranged [(path, .document ops)] [(path, .document others)]
  | elements {path op : String} {items others : List Value} {front back : List (String × Value)} :
      operators? (.document (front ++ (op, .array items) :: back)) =
        some (front ++ (op, .array items) :: back) →
      op ∈ setOperators → items.Perm others →
      Rearranged [(path, .document (front ++ (op, .array items) :: back))]
        [(path, .document (front ++ (op, .array others) :: back))]
  | clause {op : String} {clause other : Document} {front back : List Document} :
      isConnective op = true → Rearranged clause other →
      Rearranged [(op, .array ((front ++ clause :: back).map .document))]
        [(op, .array ((front ++ other :: back).map .document))]
  | entry {front back : Document} {entry other : String × Value} : Rearranged [entry] [other] →
      Rearranged (front ++ entry :: back) (front ++ other :: back)
  | trans {filter middle other : Document} : Rearranged filter middle →
      Rearranged middle other → Rearranged filter other

theorem verdict_perm {outcomes others : List Bool} (hperm : outcomes.Perm others) (op : String) :
    verdict op outcomes = verdict op others := by
  rw [verdict, verdict, hperm.all_eq, hperm.any_eq]

theorem meets_perm {items others : List Value} (hperm : items.Perm others)
    (field : Option Value) (hop : op ∈ setOperators) :
    meets field op (.array items) = meets field op (.array others) := by
  simp only [setOperators, List.mem_cons, List.not_mem_nil, or_false] at hop
  rcases hop with rfl | rfl <;> simp [meets, holdsOperator, inSet, Except.map, hperm.any_eq]

theorem accepts_eq_of_operators {ops others : List (String × Value)}
    (hops : operators? (.document ops) = some ops)
    (hfilter : WellFormed [(path, .document ops)]) (hne : others ≠ [])
    (hothers : (∀ entry ∈ ops, Applies entry.1 entry.2) →
      ∀ entry ∈ others, Applies entry.1 entry.2)
    (hall : ∀ field, (ops.all fun entry => meets field entry.1 entry.2) =
      others.all fun entry => meets field entry.1 entry.2) :
    WellFormed [(path, .document others)] ∧
      ∀ doc, accepts [(path, .document others)] doc = accepts [(path, .document ops)] doc := by
  obtain ⟨hpath, hcondition⟩ : isOperator path = false ∧ IsCondition (.document ops) := by
    cases hfilter with
    | field hpath hcondition _ => exact ⟨hpath, hcondition⟩
  have happly := hcondition ops hops
  have hother := operators?_of_applies hne (hothers happly)
  refine ⟨.field hpath (isCondition_document (hothers happly)) .nil, fun doc => ?_⟩
  have hholds : holds doc [(path, .document others)] = holds doc [(path, .document ops)] := by
    simp only [holds_field doc hpath, holdsField, hops, hother,
      holdsOperators_eq_all _ happly, holdsOperators_eq_all _ (hothers happly), hall]
  rw [accepts, accepts, hholds]

theorem accepts_eq_of_clauses {clauses others : List Document} (hop : isConnective op = true)
    (hfilter : WellFormed [(op, .array (clauses.map .document))]) (hne : others ≠ [])
    (hothers : ∀ clause ∈ others, WellFormed clause)
    (hverdict : ∀ doc, verdict op (clauses.map fun clause => accepts clause doc) =
      verdict op (others.map fun clause => accepts clause doc)) :
    WellFormed [(op, .array (others.map .document))] ∧
      ∀ doc, accepts [(op, .array (others.map .document))] doc =
        accepts [(op, .array (clauses.map .document))] doc := by
  obtain ⟨hne', hclauses⟩ := (wellFormed_connective_iff hop).mp hfilter
  refine ⟨(wellFormed_connective_iff hop).mpr ⟨hne, hothers⟩, fun doc => ?_⟩
  have hholds := holds_connective hop hne' fun clause hclause =>
    (hclauses clause hclause).decidesOn doc
  have hholds' := holds_connective hop hne fun clause hclause =>
    (hothers clause hclause).decidesOn doc
  rw [accepts_of_holds hholds, accepts_of_holds hholds', hverdict]

/-- A rearranged filter is well formed too, and accepts the same documents. -/
theorem Rearranged.accepts_eq {filter other : Document} (hother : Rearranged filter other)
    (hfilter : WellFormed filter) :
    WellFormed other ∧ ∀ doc, accepts other doc = accepts filter doc := by
  induction hother with
  | entries hperm =>
      have hother := wellFormed_iff.mpr fun entry hentry =>
        hfilter.entries entry (hperm.mem_iff.mpr hentry)
      refine ⟨hother, fun doc => ?_⟩
      rw [hother.accepts_eq_all, hfilter.accepts_eq_all, hperm.all_eq]
  | clauses hop hperm =>
      obtain ⟨hne, hclauses⟩ := (wellFormed_connective_iff hop).mp hfilter
      refine accepts_eq_of_clauses hop hfilter (fun hnil => hne (hnil ▸ hperm).eq_nil) ?_ ?_
      · exact fun clause hclause => hclauses clause (hperm.mem_iff.mpr hclause)
      · exact fun doc => verdict_perm (hperm.map _) _
  | operators hops hperm =>
      have hne := (eq_document_of_operators? hops).2
      refine accepts_eq_of_operators hops hfilter (fun hnil => hne (hnil ▸ hperm).eq_nil) ?_ ?_
      · exact fun happly entry hentry => happly entry (hperm.mem_iff.mpr hentry)
      · exact fun field => hperm.all_eq
  | elements hops hop hperm =>
      refine accepts_eq_of_operators hops hfilter (by simp) ?_ ?_
      · exact fun happly => forall_mem_replace happly (Or.inr ⟨hop, _, rfl⟩)
      · intro field
        simp only [List.all_append, List.all_cons, meets_perm hperm field hop]
  | clause hop _ ih =>
      obtain ⟨-, hclauses⟩ := (wellFormed_connective_iff hop).mp hfilter
      obtain ⟨hother, haccepts⟩ := ih (hclauses _ (by simp))
      refine accepts_eq_of_clauses hop hfilter (by simp) (forall_mem_replace hclauses hother) ?_
      intro doc
      simp only [List.map_append, List.map_cons, haccepts]
  | entry _ ih =>
      obtain ⟨hother, haccepts⟩ := ih (hfilter.entries _ (by simp))
      have hwell := wellFormed_iff.mpr (forall_mem_replace hfilter.entries hother)
      refine ⟨hwell, fun doc => ?_⟩
      simp only [hwell.accepts_eq_all, hfilter.accepts_eq_all, List.all_append, List.all_cons,
        haccepts]
  | trans _ _ ih ih' =>
      obtain ⟨hmiddle, haccepts⟩ := ih hfilter
      obtain ⟨hother, haccepts'⟩ := ih' hmiddle
      exact ⟨hother, fun doc => (haccepts' doc).trans (haccepts doc)⟩

/-! ### Sets and negations -/

theorem holds_ne (doc : Document) (hpath : isOperator path = false) (operand : Value) :
    holds doc (single path "$ne" operand) = .ok (!accepts (single path "$eq" operand) doc) := by
  have heq : Applies "$eq" operand := Or.inl (by simp [freeOperators])
  have hne : Applies "$ne" operand := Or.inl (by simp [freeOperators])
  rw [holds_single doc hpath hne, accepts_single doc hpath heq]
  rfl

theorem holds_in (doc : Document) (hpath : isOperator path = false) (items : List Value) :
    holds doc (single path "$in" (.array items)) =
      .ok (items.any fun item => accepts (single path "$eq" item) doc) := by
  have heq : ∀ item, Applies "$eq" item := fun item => Or.inl (by simp [freeOperators])
  have hin : Applies "$in" (.array items) := Or.inr ⟨by simp [setOperators], items, rfl⟩
  rw [holds_single doc hpath hin]
  simp only [accepts_single doc hpath (heq _)]
  rfl

theorem holds_nin (doc : Document) (hpath : isOperator path = false) (items : List Value) :
    holds doc (single path "$nin" (.array items)) =
      .ok (!accepts (single path "$in" (.array items)) doc) := by
  have hin : Applies "$in" (.array items) := Or.inr ⟨by simp [setOperators], items, rfl⟩
  have hnin : Applies "$nin" (.array items) := Or.inr ⟨by simp [setOperators], items, rfl⟩
  rw [holds_single doc hpath hnin, accepts_single doc hpath hin]
  rfl

theorem wellFormed_single (hpath : isOperator path = false) (happlies : Applies op operand) :
    WellFormed (single path op operand) :=
  .field hpath (isCondition_document (by simpa using happlies)) .nil

/-- **Filters obey Boolean algebra.**  On every document a well-formed filter gives an
outcome, the conjunction of those of its entries; `$and`, `$or` and `$nor` are all, any and
none of their clauses; a condition is the conjunction of its operators; `$ne` and `$nin` are
the negations of `$eq` and `$in`, and `$in` is the `$or` of the equalities with its elements;
and no rearranging changes the outcome. -/
theorem boolean_algebra (doc : Document) :
    (∀ filter, WellFormed filter →
      holds doc filter = .ok (filter.all fun entry => accepts [entry] doc)) ∧
    (∀ clauses : List Document, clauses ≠ [] → (∀ clause ∈ clauses, WellFormed clause) →
      holds doc [("$and", .array (clauses.map .document))] =
          .ok (clauses.all fun clause => accepts clause doc) ∧
        holds doc [("$or", .array (clauses.map .document))] =
          .ok (clauses.any fun clause => accepts clause doc) ∧
        holds doc [("$nor", .array (clauses.map .document))] =
          .ok (!clauses.any fun clause => accepts clause doc)) ∧
    (∀ path ops, isOperator path = false → ops ≠ [] →
      (∀ entry ∈ ops, Applies entry.1 entry.2) →
        holds doc [(path, .document ops)] =
          .ok (ops.all fun entry => accepts (single path entry.1 entry.2) doc)) ∧
    (∀ path operand, isOperator path = false →
      holds doc (single path "$ne" operand) =
        .ok (!accepts (single path "$eq" operand) doc)) ∧
    (∀ path items, isOperator path = false → items ≠ [] →
      holds doc (single path "$in" (.array items)) =
          holds doc [("$or", .array ((items.map (single path "$eq")).map .document))] ∧
        holds doc (single path "$nin" (.array items)) =
          .ok (!accepts (single path "$in" (.array items)) doc)) ∧
    (∀ filter other, WellFormed filter → Rearranged filter other →
      holds doc other = holds doc filter) := by
  refine ⟨fun filter hfilter => hfilter.holds_eq_all doc, ?_,
    fun path ops hpath hne hops => holds_condition doc hpath hne hops,
    fun path operand hpath => holds_ne doc hpath operand, ?_, ?_⟩
  · intro clauses hne hclauses
    have hdecides := fun clause hclause => (hclauses clause hclause).decidesOn doc
    refine ⟨?_, ?_, ?_⟩ <;> rw [holds_connective (by decide) hne hdecides] <;>
      simp [verdict]
  · intro path items hpath hne
    have heq : ∀ clause ∈ items.map (single path "$eq"), DecidesOn doc clause := by
      intro clause hclause
      obtain ⟨item, -, rfl⟩ := List.mem_map.mp hclause
      exact (wellFormed_single hpath (Or.inl (by simp [freeOperators]))).decidesOn doc
    refine ⟨?_, holds_nin doc hpath items⟩
    rw [holds_in doc hpath, holds_connective (by decide) (by simpa using hne) heq]
    simp [verdict, Function.comp_def]
  · intro filter other hfilter hother
    obtain ⟨hwell, haccepts⟩ := hother.accepts_eq hfilter
    have hdecides := hfilter.decidesOn doc
    have hdecides' := hwell.decidesOn doc
    rw [DecidesOn] at hdecides hdecides'
    rw [hdecides, hdecides', haccepts]

/-- Two clauses, the operators of one of them and the elements of its set, all exchanged. -/
theorem boolean_algebra_exchanged :
    let doc : Document := [("name", .string "ink"), ("qty", .int32 2)]
    let name : Document := [("name", .string "pen")]
    let qty : Document :=
      [("qty", .document [("$gte", .int32 1), ("$in", .array [.int32 1, .int32 2])])]
    let qty' : Document :=
      [("qty", .document [("$in", .array [.int32 2, .int32 1]), ("$gte", .int32 1)])]
    let filter : Document := [("$or", .array ([name, qty].map .document))]
    let other : Document := [("$or", .array ([qty', name].map .document))]
    WellFormed filter ∧ Rearranged filter other ∧ holds doc other = holds doc filter ∧
      holds doc filter = .ok (filter.all fun entry => accepts [entry] doc) := by
  intro doc name qty qty' filter other
  have hname : WellFormed name := .field (by decide) (by simp [IsCondition, operators?]) .nil
  have hqty : WellFormed qty :=
    .field (by decide) (isCondition_document (by simp [Applies, freeOperators, setOperators])) .nil
  have hfilter : WellFormed filter :=
    .connective (by decide) (by decide) (by simp [hname, hqty]) .nil
  have hother : Rearranged filter other := by
    have hoperators : Rearranged qty
        [("qty", .document [("$in", .array [.int32 1, .int32 2]), ("$gte", .int32 1)])] :=
      .operators rfl (.swap ..)
    have helements := @Rearranged.elements "qty" "$in" [.int32 1, .int32 2]
      [.int32 2, .int32 1] [] [("$gte", .int32 1)] rfl (by decide) (.swap ..)
    have hclause := @Rearranged.clause "$or" qty qty' [name] [] (by decide)
      (hoperators.trans helements)
    exact hclause.trans (.clauses (by decide) (.swap ..))
  have hlaws := boolean_algebra doc
  exact ⟨hfilter, hother, hlaws.2.2.2.2.2 filter other hfilter hother, hlaws.1 filter hfilter⟩

end DocShell.Filter
