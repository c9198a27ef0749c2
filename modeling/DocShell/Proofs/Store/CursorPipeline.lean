import DocShell.Store.Read

/-!
# A cursor as a pipeline

A cursor and a pipeline are run by different definitions: the cursor by its four
steps in a fixed order, the pipeline stage by stage with the operands read anew.
Here every option of a cursor is written as a stage, and the two give the same
documents or the same failure.

Counts need care: a cursor holds them as they are, whereas a stage reads its
operand from a stored value, and refuses a limit of zero.
-/

namespace DocShell

/-- The greatest signed 64-bit integer. -/
def maxInt64 : Nat :=
  9223372036854775807

namespace Value

/-- The stored integers that write a count: a 64-bit one, or a 32-bit one where
it is wide enough. -/
inductive WritesCount : Nat → Value → Prop
  | long (n : Nat) : WritesCount n (.int64 (Int64.ofInt n))
  | int (n : Nat) : n ≤ 2147483647 → WritesCount n (.int32 (Int32.ofInt n))

theorem WritesCount.integer? {n : Nat} {value : Value} (hcount : WritesCount n value)
    (hn : n ≤ maxInt64) : value.integer? = some (n : Int) := by
  cases hcount with
  | long =>
      have hlong : (Int64.ofInt n).toInt = n :=
        Int64.toInt_ofInt_of_le (by omega) (by unfold maxInt64 at hn; omega)
      rw [Value.integer?, hlong]
  | int hint =>
      have hshort : (Int32.ofInt n).toInt = n :=
        Int32.toInt_ofInt_of_le (by omega) (by omega)
      rw [Value.integer?, hshort]

end Value

namespace Cursor

/-- The pipeline of a cursor: the filter, and a stage for every option that is
set.  `write` tells how a count is stored in its stage. -/
def stages (cursor : Cursor) (write : Nat → Value) : List Document :=
  [("$match", .document cursor.filter)] ::
    ((cursor.sort.toList.map fun spec => [("$sort", .document spec)]) ++
      (cursor.skip.toList.map fun n => [("$skip", write n)]) ++
      (cursor.limit.toList.map fun n => [("$limit", write n)]) ++
      (cursor.projection.toList.map fun spec => [("$project", .document spec)]))

end Cursor

namespace Pipeline

/-! ### Stages one after the other -/

theorem run_append (first second : List Document) (docs : List Document) :
    run (first ++ second) docs = (run first docs).bind (run second) := by
  induction first generalizing docs with
  | nil => rfl
  | cons stage more ih =>
      match stage with
      | [] | _ :: _ :: _ => rfl
      | [(name, spec)] =>
          simp only [List.cons_append, run]
          cases runStage name spec docs with
          | error failure => rfl
          | ok after => exact ih after

theorem run_single (name : String) (spec : Value) (docs : List Document) :
    run [[(name, spec)]] docs = runStage name spec docs := by
  rw [run]
  cases runStage name spec docs <;> rfl

theorem run_cons (name : String) (spec : Value) (more : List Document) (docs : List Document) :
    run ([(name, spec)] :: more) docs = (runStage name spec docs).bind (run more) := by
  rw [← List.singleton_append, run_append, run_single]

theorem stageCount_of_writesCount (name : String) {n : Nat} {value : Value}
    (hcount : value.WritesCount n) (hn : n ≤ maxInt64) : stageCount name value = .ok n := by
  simp [stageCount, hcount.integer? hn]

/-! ### Each option as a stage -/

variable {cursor : Cursor} {write : Nat → Value}

theorem run_sort (cursor : Cursor) (docs : List Document) :
    run (cursor.sort.toList.map fun spec => [("$sort", .document spec)]) docs =
      cursor.sorted docs := by
  cases hsort : cursor.sort with
  | none => simp [Cursor.sorted, hsort, run]
  | some spec =>
      simp only [Option.toList_some, List.map_cons, List.map_nil, run_single]
      simp [Cursor.sorted, hsort, runStage, stageDocument]

theorem run_skip (hwrite : ∀ n, (write n).WritesCount n)
    (hskip : ∀ n, cursor.skip = some n → n ≤ maxInt64) (docs : List Document) :
    run (cursor.skip.toList.map fun n => [("$skip", write n)]) docs =
      .ok (docs.drop (cursor.skip.getD 0)) := by
  cases hset : cursor.skip with
  | none => simp [run]
  | some n =>
      have hcount := stageCount_of_writesCount "$skip" (hwrite n) (hskip n hset)
      simp only [Option.toList_some, List.map_cons, List.map_nil, run_single]
      simp [runStage, hcount, Except.map]

theorem run_limit (hwrite : ∀ n, (write n).WritesCount n)
    (hlimit : ∀ n, cursor.limit = some n → 1 ≤ n ∧ n ≤ maxInt64) (docs : List Document) :
    run (cursor.limit.toList.map fun n => [("$limit", write n)]) docs =
      .ok (match cursor.limit with
        | some n => docs.take n
        | none => docs) := by
  cases hset : cursor.limit with
  | none => simp [run]
  | some n =>
      obtain ⟨hpos, hn⟩ := hlimit n hset
      have hcount := stageCount_of_writesCount "$limit" (hwrite n) hn
      simp only [Option.toList_some, List.map_cons, List.map_nil, run_single]
      -- the stage refuses a count of zero, so the count has to be a successor
      obtain ⟨k, rfl⟩ := Nat.exists_eq_add_of_le' hpos
      simp [runStage, hcount]

theorem run_project (cursor : Cursor) (docs : List Document) :
    run (cursor.projection.toList.map fun spec => [("$project", .document spec)]) docs =
      cursor.projected docs := by
  cases hset : cursor.projection with
  | none => simp [Cursor.projected, hset, run]
  | some spec =>
      simp only [Option.toList_some, List.map_cons, List.map_nil, run_single]
      simp [Cursor.projected, hset, runStage, stageDocument]

theorem run_match (filter : Document) (more : List Document) (docs : List Document) :
    run ([("$match", .document filter)] :: more) docs =
      (Filter.select filter docs).bind (run more) := by
  rw [run_cons]
  rfl

end Pipeline

namespace Store

/-- **The two query engines agree.**  A cursor gives what its pipeline gives, the
same documents in the same order or the same failure, whichever integers write
its counts. -/
theorem find_eq_aggregate (store : Store) (ns : Namespace) (cursor : Cursor)
    (write : Nat → Value) (hwrite : ∀ n, (write n).WritesCount n)
    (hskip : ∀ n, cursor.skip = some n → n ≤ maxInt64)
    (hlimit : ∀ n, cursor.limit = some n → 1 ≤ n ∧ n ≤ maxInt64) :
    store.find ns cursor = store.aggregate ns (cursor.stages write) := by
  unfold find aggregate Cursor.run Cursor.stages
  rw [Pipeline.run_match]
  cases Filter.select cursor.filter (store.documents ns) with
  | error failure => rfl
  | ok selected =>
      simp only [Except.bind, Pipeline.run_append, Pipeline.run_sort]
      cases cursor.sorted selected with
      | error failure => rfl
      | ok sorted =>
          simp only [Pipeline.run_skip hwrite hskip, Pipeline.run_limit hwrite hlimit,
            Pipeline.run_project]
          rfl

/-- Two documents, of which a cursor with all its options set shows the second. -/
theorem find_eq_aggregate_all_options :
    let ns : Namespace := ⟨"shop", "items"⟩
    let store := ({} : Store).put ns [[("qty", .int32 1)], [("qty", .int32 2)]]
    let cursor : Cursor :=
      { filter := [("qty", .document [("$gte", .int32 1)])]
        sort := some [("qty", .int32 (-1))]
        skip := some 1
        limit := some maxInt64
        projection := some [("qty", .boolean true)] }
    let write := fun n : Nat => Value.int64 (Int64.ofInt n)
    (∀ n, (write n).WritesCount n) ∧ (∀ n, cursor.skip = some n → n ≤ maxInt64) ∧
      (∀ n, cursor.limit = some n → 1 ≤ n ∧ n ≤ maxInt64) ∧
      store.find ns cursor = store.aggregate ns (cursor.stages write) := by
  have hskip : ∀ n, (some 1 : Option Nat) = some n → n ≤ maxInt64 := by
    intro n hn
    cases hn
    decide
  have hlimit : ∀ n, (some maxInt64 : Option Nat) = some n → 1 ≤ n ∧ n ≤ maxInt64 := by
    intro n hn
    cases hn
    decide
  exact ⟨.long, hskip, hlimit, find_eq_aggregate _ _ _ _ .long hskip hlimit⟩

end Store

end DocShell
