import DocShell.Proofs.Plan.Rejection
import DocShell.Proofs.Store.Insertion
import DocShell.Session

/-!
# The current database of a session

A session remembers one thing beside its store: which database is current.  It changes only
on a `use` that succeeds, and since a store never loses a database, the name that was given
stays good for the rest of the session.

## Strategy

* `Store.Keeps` compares two stores by their listings.  What a request does to the store is
  at most to put documents into one collection, so every request keeps what is there
  (`Request.keeps_run`), and so does a run (`Session.keeps_run`).
* `Command.usedName?` tells a `use` by the words of the line.  A line switches the database
  only if it is one (`Store.execute_of_switched`), and does so if it succeeds
  (`Store.execute_of_usedName?`).
* Hence one line moves the current database to the name of a `use` that succeeded
  (`Session.current_step`), and a run to the last such name (`Session.current_run`).
-/

namespace DocShell

namespace Store

/-! ## What a store never loses -/

/-- The names of all databases, as the listing has them. -/
def databaseNames (store : Store) : List String :=
  store.listDatabases.map DatabaseSummary.name

/-- Every database and every collection that the one store lists is listed by the other. -/
structure Keeps (before after : Store) : Prop where
  databases : ∀ name ∈ before.databaseNames, name ∈ after.databaseNames
  collections : ∀ database, ∀ name ∈ before.listCollections database,
    name ∈ after.listCollections database

variable {store : Store} {name : String}

theorem mem_sortedNames {names : List String} : name ∈ sortedNames names ↔ name ∈ names := by
  rw [sortedNames, List.mem_mergeSort]

theorem mem_databaseNames_iff : name ∈ store.databaseNames ↔ name ∈ store.databases.keys := by
  have hnames : store.databaseNames = sortedNames store.databases.keys := by
    simp [databaseNames, listDatabases, summary, Function.comp_def]
  rw [hnames, mem_sortedNames]

theorem mem_listCollections_iff {database : String} :
    name ∈ store.listCollections database ↔ (store.collection? ⟨database, name⟩).isSome := by
  rw [listCollections, mem_sortedNames, collection?]
  cases hdatabase : store.databases.get? database with
  | none => simp [Fields.keys]
  | some collections =>
      have hget : collections.get? name = none ↔ name ∉ collections.keys :=
        Fields.get?_eq_none_iff
      simp [Option.isSome_iff_ne_none, hget]

theorem Keeps.refl (store : Store) : Keeps store store :=
  ⟨fun _ hname => hname, fun _ _ hname => hname⟩

theorem Keeps.trans {first second third : Store} (hfirst : Keeps first second)
    (hsecond : Keeps second third) : Keeps first third :=
  { databases := fun name hname => hsecond.databases name (hfirst.databases name hname)
    collections := fun database name hname =>
      hsecond.collections database name (hfirst.collections database name hname) }

theorem keeps_put (store : Store) (ns : Namespace) (docs : List Document) :
    Keeps store (store.put ns docs) := by
  refine ⟨?_, ?_⟩
  · intro name hname
    rw [mem_databaseNames_iff] at hname ⊢
    simp only [put, Fields.keys_insert]
    split
    · exact hname
    · exact List.mem_append_left _ hname
  · intro database name hname
    rw [mem_listCollections_iff] at hname ⊢
    rw [collection?_put]
    split
    · rfl
    · exact hname

end Store

namespace Request

/-- No request makes a store lose a database or a collection. -/
theorem keeps_run (store : Store) (request : Request) : store.Keeps (request.run store).1 := by
  have hinsert : ∀ ns docs, store.Keeps (store.insertMany ns docs).1 := by
    intro ns docs
    rw [Store.insertMany_eq]
    split
    · exact store.keeps_put ns _
    · exact ⟨(store.keeps_put ns _).databases, (store.keeps_put ns _).collections⟩
  cases request with
  | insertOne ns doc => exact hinsert ns [doc]
  | insertMany ns docs => exact hinsert ns docs
  | update ns extent filter change =>
      simp only [run, Store.update]
      split
      · exact .refl store
      · exact store.keeps_put ns _
  | delete ns extent filter =>
      simp only [run, Store.delete]
      split
      · exact .refl store
      · split
        · exact .refl store
        · exact store.keeps_put ns _
  | _ => exact .refl store

/-! ## What a chain can ask for -/

/-- The collection that a request is about, if it is about one. -/
def place? : Request → Option Namespace
  | .listDatabases | .listCollections _ | .useDatabase _ => none
  | .find ns _ | .findOne ns _ _ | .count ns _ | .distinct ns _ _ | .aggregate ns _ => some ns
  | .insertOne ns _ | .insertMany ns _ | .update ns _ _ _ | .delete ns _ _ => some ns

variable {ns : Namespace} {call : Call} {request : Request}

theorem place?_of_map {α : Type} {build : α → Request} {outcome : Except UsageFailure α}
    (hbuild : ∀ a, (build a).place? = some ns) (hrequest : outcome.map build = .ok request) :
    request.place? = some ns := by
  obtain ⟨a, -, rfl⟩ := Outcome.map_eq_ok_iff.mp hrequest
  exact hbuild a

/-- A call asks for something of its own collection. -/
theorem place?_of_ofCall (hrequest : ofCall ns call = .ok request) :
    request.place? = some ns := by
  -- Each reader fails at one of its checks or builds its request at the end.
  simp only [ofCall, readFindOne, readCount, readDistinct, readAggregate, readInsertOne,
    readInsertMany, readUpdate, readDelete] at hrequest
  repeat' split at hrequest
  all_goals first | exact place?_of_map (fun _ => rfl) hrequest | simp at hrequest

end Request

namespace Plan

/-- A plan of a chain on a collection answers with no documents, or asks for something of
that collection. -/
def IsWithin (ns : Namespace) : Plan → Prop
  | answer report => report = .documents []
  | ask request => request.place? = some ns

variable {ns : Namespace} {plan : Plan} {readOnly : Bool}

theorem isWithin_ofCursor (ns : Namespace) (cursor : Cursor) :
    (ofCursor ns cursor).IsWithin ns := by
  unfold ofCursor
  split <;> rfl

theorem isWithin_of_ofRefinements {cursor : Cursor} {calls : List Call}
    (hplan : ofRefinements ns cursor calls = .ok plan) : plan.IsWithin ns := by
  induction calls generalizing cursor with
  | nil =>
      cases hplan
      exact isWithin_ofCursor ns cursor
  | cons call more ih =>
      rw [ofRefinements] at hplan
      split at hplan
      · simp at hplan
      · split at hplan
        · exact ih hplan
        · simp at hplan
        · simp at hplan

theorem isWithin_of_ofCall {call : Call} (hplan : ofCall readOnly ns call = .ok plan) :
    plan.IsWithin ns := by
  unfold ofCall at hplan
  split at hplan
  · simp at hplan
  · split at hplan
    · next request hrequest =>
        cases hplan
        exact Request.place?_of_ofCall hrequest
    · simp at hplan

theorem isWithin_of_ofCalls {calls : List Call} (hplan : ofCalls readOnly ns calls = .ok plan) :
    plan.IsWithin ns := by
  cases calls with
  | nil => simp [ofCalls] at hplan
  | cons call more =>
      simp only [ofCalls] at hplan
      split at hplan
      · split at hplan
        · exact isWithin_of_ofRefinements hplan
        · simp at hplan
      · split at hplan
        · simp at hplan
        · simp at hplan
        · simp at hplan
        · exact isWithin_of_ofCall hplan

end Plan

namespace Command

/-! ## Lines that say `use` -/

/-- The name in a line that says `use` and a name. -/
def usedName? (line : String) : Option String :=
  match (Text.words (bare line.toList)).map String.ofList with
  | ["use", name] => some name
  | _ => none

variable {line name : String} {current : Option String}

theorem usedName?_eq_some_iff :
    usedName? line = some name ↔
      (Text.words (bare line.toList)).map String.ofList = ["use", name] := by
  unfold usedName?
  split <;> simp_all

example : usedName? " use  shop; " = some "shop" := by decide

theorem words_of_ofWords {words : List String}
    (hwords : ofWords current words = some (.ok (.useDatabase name))) : words = ["use", name] := by
  unfold ofWords at hwords
  split at hwords
  · simp at hwords
  · simp at hwords
  · simp [databaseRequired] at hwords
  · split at hwords
    · simp_all
    · simp [unknown] at hwords
  · simp [unknown] at hwords
  · simp [unknown] at hwords
  · simp at hwords

theorem ofReference_ne_useDatabase (reference : Reference) :
    ofReference current reference ≠ .ok (.useDatabase name) := by
  have hchain : ∀ ns text, ofChain ns text ≠ .ok (.useDatabase name) := by
    intro ns text
    unfold ofChain
    split <;> simp
  unfold ofReference
  split
  · unfold ofListing
    split
    · simp
    · split <;> simp [databaseRequired, unknown]
  · split
    · simp [unknown]
    · split
      · exact hchain _ _
      · simp [databaseRequired]
    · exact hchain _ _

/-- Only a line that says `use` asks for another database. -/
theorem usedName?_of_read (hread : Command.read line current = .ok (.useDatabase name)) :
    usedName? line = some name := by
  rw [usedName?_eq_some_iff]
  unfold Command.read at hread
  simp only at hread
  split at hread
  · simp at hread
  · split at hread
    · next hwords =>
        rw [hread] at hwords
        exact words_of_ofWords hwords
    · split at hread
      · simp [unknown] at hread
      · split at hread
        · exact absurd hread (ofReference_ne_useDatabase _)
        · simp [unknown] at hread

/-- A line that says `use` asks for that database or cannot be served. -/
theorem read_of_usedName? (hname : usedName? line = some name) (current : Option String) :
    Command.read line current = .ok (.useDatabase name) ∨
      ∃ failure, Command.read line current = .error failure := by
  rw [usedName?_eq_some_iff] at hname
  unfold Command.read
  simp only [hname]
  split
  · exact Or.inr ⟨_, rfl⟩
  · simp only [ofWords]
    split
    · exact Or.inl rfl
    · exact Or.inr ⟨_, rfl⟩

end Command

namespace Store

/-! ## One line -/

variable {store : Store} {readOnly : Bool} {current : Option String} {line name : String}

theorem keeps_execute (store : Store) (readOnly : Bool) (current : Option String)
    (line : String) : store.Keeps (store.execute readOnly current line).1 := by
  rw [execute_eq_carryOut]
  cases Plan.ofLine readOnly current line with
  | error failure => exact .refl store
  | ok plan =>
      cases plan with
      | answer report => exact .refl store
      | ask request => exact Request.keeps_run store request

theorem useReport_eq_ok_iff {report : Report} :
    Request.useReport store name = .ok report ↔
      name ∈ store.databaseNames ∧ report = .switched name s!"switched to db {name}" := by
  have hany : (store.listDatabases.any fun database => database.name == name) = true ↔
      name ∈ store.databaseNames := by
    simp [databaseNames, List.any_eq_true]
  unfold Request.useReport
  split
  · next hfound => simp [hany.mp hfound, eq_comm]
  · next hfound => simp [mt hany.mpr hfound]

theorem exists_of_map_mapError {α ε : Type} {build : α → Report} {wrap : ε → Failure}
    {outcome : Except ε α} {report : Report}
    (hreport : (outcome.map build).mapError wrap = .ok report) : ∃ a, report = build a := by
  cases outcome with
  | ok a => exact ⟨a, (Except.ok.inj hreport).symm⟩
  | error failure => simp [Except.map, Except.mapError] at hreport

/-- What a request answers is a switch only for the question of `use`, and then the database
is there. -/
theorem eq_useDatabase_of_switched {request : Request} {message : String}
    (hswitched : (request.run store).2 = .ok (.switched name message)) :
    request = .useDatabase name ∧ name ∈ store.databaseNames := by
  cases request with
  | useDatabase other =>
      obtain ⟨hmem, hreport⟩ := useReport_eq_ok_iff.mp hswitched
      cases hreport
      exact ⟨rfl, hmem⟩
  | listDatabases | listCollections => simp [Request.run] at hswitched
  | find | findOne | count | distinct | aggregate | insertOne | insertMany | update | delete =>
      simp only [Request.run, Request.queried] at hswitched
      obtain ⟨a, hother⟩ := exists_of_map_mapError hswitched
      simp at hother

theorem eq_useDatabase_of_run {command : Command} {plan : Plan} {message : String}
    (hplan : Plan.ofCommand readOnly command = .ok plan)
    (hswitched : (plan.run store).2 = .ok (.switched name message)) :
    command = .useDatabase name ∧ name ∈ store.databaseNames := by
  cases command with
  | showDatabases | listCollections =>
      cases hplan
      simp [Plan.run, Request.run] at hswitched
  | useDatabase other =>
      cases hplan
      obtain ⟨hrequest, hmem⟩ := eq_useDatabase_of_switched hswitched
      cases hrequest
      exact ⟨rfl, hmem⟩
  | chain ns calls =>
      have hwithin : plan.IsWithin ns := Plan.isWithin_of_ofCalls hplan
      cases plan with
      | answer report =>
          obtain rfl : report = .documents [] := hwithin
          simp [Plan.run] at hswitched
      | ask request =>
          obtain ⟨rfl, -⟩ := eq_useDatabase_of_switched hswitched
          simp [Plan.IsWithin, Request.place?] at hwithin

/-- A line switches the database only if it says `use` and a name that the store lists. -/
theorem execute_of_switched {message : String}
    (hswitched : (store.execute readOnly current line).2 = .ok (.switched name message)) :
    Command.usedName? line = some name ∧ name ∈ store.databaseNames := by
  unfold execute Plan.ofLine at hswitched
  split at hswitched
  · next plan hplan =>
      split at hplan
      · next command hread =>
          obtain ⟨rfl, hmem⟩ := eq_useDatabase_of_run hplan hswitched
          exact ⟨Command.usedName?_of_read hread, hmem⟩
      · simp at hplan
  · simp at hswitched

/-- A line that says `use` switches the database if it succeeds. -/
theorem execute_of_usedName? {report : Report} (hname : Command.usedName? line = some name)
    (hreport : (store.execute readOnly current line).2 = .ok report) :
    report = .switched name s!"switched to db {name}" := by
  unfold execute Plan.ofLine at hreport
  obtain hread | ⟨failure, hread⟩ := Command.read_of_usedName? hname current
  · rw [hread] at hreport
    exact (useReport_eq_ok_iff.mp hreport).2
  · simp [hread] at hreport

end Store

namespace Session

/-! ## Runs -/

/-- The database that an answered line has selected, if it is a `use` that went well. -/
def selected? (line : String) : Except Failure Report → Option String
  | .ok _ => Command.usedName? line
  | .error _ => none

/-- The databases that the answered lines of a run have selected, in order. -/
def selections (answered : List (String × Except Failure Report)) : List String :=
  answered.filterMap fun (line, outcome) => selected? line outcome

variable {session : Session} {line name : String}

theorem keeps_step (session : Session) (line : String) :
    session.store.Keeps (session.step line).1.store :=
  session.store.keeps_execute session.readOnly session.current line

theorem keeps_run (session : Session) (lines : List String) :
    session.store.Keeps (session.run lines).1.store := by
  induction lines generalizing session with
  | nil => exact .refl session.store
  | cons line more ih => exact (session.keeps_step line).trans (ih (session.step line).1)

theorem run_append (session : Session) (lines more : List String) :
    (session.run (lines ++ more)).1 = ((session.run lines).1.run more).1 := by
  induction lines generalizing session with
  | nil => rfl
  | cons line rest ih => exact ih (session.step line).1

/-- A line leaves the current database as it is, unless it selects another one. -/
theorem current_step (session : Session) (line : String) :
    (session.step line).1.current =
      (selected? line (session.step line).2).or session.current := by
  change next session.current (session.step line).2 = _
  cases houtcome : (session.step line).2 with
  | error failure => rfl
  | ok report =>
      cases hname : Command.usedName? line with
      | some name =>
          obtain rfl := Store.execute_of_usedName? hname houtcome
          simp [next, selected?, hname]
      | none =>
          cases report with
          | switched database message =>
              have hused := (Store.execute_of_switched houtcome).1
              simp [hname] at hused
          | _ => simp [next, selected?, hname]

/-- What a line selects is a database that the store lists. -/
theorem mem_of_selected? (hselected : selected? line (session.step line).2 = some name) :
    name ∈ session.store.databaseNames := by
  cases houtcome : (session.step line).2 with
  | error failure => simp [selected?, houtcome] at hselected
  | ok report =>
      rw [houtcome] at hselected
      obtain rfl := Store.execute_of_usedName? hselected houtcome
      exact (Store.execute_of_switched houtcome).2

theorem selections_run_cons (session : Session) (line : String) (more : List String) :
    selections ((line :: more).zip (session.run (line :: more)).2) =
      (selected? line (session.step line).2).toList ++
        selections (more.zip ((session.step line).1.run more).2) := by
  simp only [run, selections, List.zip_cons_cons, List.filterMap_cons]
  cases selected? line (session.step line).2 <;> rfl

/-- After a run, the database is current that was selected last. -/
theorem current_run (session : Session) (lines : List String) :
    (session.run lines).1.current =
      (selections (lines.zip (session.run lines).2)).getLast?.or session.current := by
  induction lines generalizing session with
  | nil => rfl
  | cons line more ih =>
      calc ((session.step line).1.run more).1.current
        _ = (selections (more.zip ((session.step line).1.run more).2)).getLast?.or
              (session.step line).1.current := ih (session.step line).1
        _ = (selections (more.zip ((session.step line).1.run more).2)).getLast?.or
              ((selected? line (session.step line).2).or session.current) := by
            rw [current_step]
        _ = (selections ((line :: more).zip (session.run (line :: more)).2)).getLast?.or
              session.current := by
            rw [selections_run_cons, List.getLast?_append, Option.or_assoc]
            cases selected? line (session.step line).2 <;> rfl

/-- A selected database is still there at the end of the run. -/
theorem mem_of_mem_selections {lines : List String}
    (hname : name ∈ selections (lines.zip (session.run lines).2)) :
    name ∈ (session.run lines).1.store.databaseNames := by
  induction lines generalizing session with
  | nil => simp [selections] at hname
  | cons line more ih =>
      rw [selections_run_cons, List.mem_append, Option.mem_toList] at hname
      obtain hselected | hlater := hname
      · exact (session.keeps_run (line :: more)).databases name (mem_of_selected? hselected)
      · exact ih hlater

/-- **What a session remembers.**  Take a session at any point of a run, and at any later
point.  All databases and collections of the one are still there in the other.  The current
database is the one that the last successful `use` gave, and at the start the one that the
session began with.  That database is there, then and later.  A line that fails does not
change which database is current. -/
theorem current_database (session : Session) (lines more : List String) :
    let here := (session.run lines).1
    let later := (session.run (lines ++ more)).1
    let chosen? := (selections (lines.zip (session.run lines).2)).getLast?
    here.store.Keeps later.store ∧
      here.current = chosen?.or session.current ∧
      (∀ name, chosen? = some name →
        name ∈ here.store.databaseNames ∧ name ∈ later.store.databaseNames) ∧
      ∀ line failure, (here.step line).2 = .error failure →
        (here.step line).1.current = here.current := by
  intro here later chosen?
  have hkeeps : here.store.Keeps later.store := by
    simp only [later, run_append]
    exact here.keeps_run more
  refine ⟨hkeeps, session.current_run lines, ?_, ?_⟩
  · intro name hname
    have hhere : name ∈ here.store.databaseNames :=
      mem_of_mem_selections (List.mem_of_getLast? hname)
    exact ⟨hhere, hkeeps.databases name hhere⟩
  · intro line failure hfailure
    rw [current_step, hfailure]
    rfl

end Session

end DocShell
