import DocShell.Plan.Terminal

/-!
# Plans

A command is planned before the store is looked at.  The plan is either a request
to the store, or an answer that needs none, or a failure.  So a command that cannot
be read, that asks for something impossible or that the rules forbid never reaches
the store.

A chain is either `find` with any number of calls that refine its cursor, or one
call that stands alone.
-/

namespace DocShell

/-- What is to be done for a command. -/
inductive Plan where
  /-- The answer is known. -/
  | answer (report : Report)
  /-- The store has to be asked. -/
  | ask (request : Request)
  deriving Repr, Inhabited

namespace Plan

/-- The plan for a cursor: one that can give nothing is not run. -/
def ofCursor (ns : Namespace) (cursor : Cursor) : Plan :=
  if cursor.isExhausted then answer (.documents []) else ask (.find ns cursor)

/-- The plan for a call that stands alone.  Whether it may write is settled before
its arguments are looked at. -/
def ofCall (readOnly : Bool) (ns : Namespace) (call : Call) : Except Failure Plan :=
  if readOnly && call.isWrite then
    .error (.policy (.readOnly call.method))
  else
    match Request.ofCall ns call with
    | .ok request => .ok (ask request)
    | .error failure => .error (.usage failure)

/-- The plan for the calls behind `find`, with the cursor so far. -/
def ofRefinements (ns : Namespace) (cursor : Cursor) : List Call → Except Failure Plan
  | [] => .ok (ofCursor ns cursor)
  | call :: more =>
    if call.method = "find" then
      .error (.usage .cursorAlreadyOpen)
    else
      match Refinement.ofCall? call with
      | some (.ok refinement) => ofRefinements ns (cursor.refine refinement) more
      | some (.error failure) => .error (.usage failure)
      | none => .error (.usage (.unsupportedMethod call.method Refinement.methods))

/-- The plan for a chain. -/
def ofCalls (readOnly : Bool) (ns : Namespace) : List Call → Except Failure Plan
  | [] => .error (.parse (.malformed "empty call chain"))
  | call :: more =>
    if call.method = "find" then
      match Cursor.ofCall call with
      | .ok cursor => ofRefinements ns cursor more
      | .error failure => .error (.usage failure)
    else
      match Refinement.ofCall? call, more with
      | some (.ok _), _ => .error (.usage (.cursorRequired call.method))
      | some (.error failure), _ => .error (.usage failure)
      | none, next :: _ => .error (.usage (.terminalNotLast call.method next.method))
      | none, [] => ofCall readOnly ns call

/-- The plan for a command. -/
def ofCommand (readOnly : Bool) : Command → Except Failure Plan
  | .showDatabases => .ok (ask .listDatabases)
  | .listCollections database => .ok (ask (.listCollections database))
  | .useDatabase name => .ok (ask (.useDatabase name))
  | .chain ns calls => ofCalls readOnly ns calls

/-- The plan for a line of input. -/
def ofLine (readOnly : Bool) (current : Option String) (line : String) : Except Failure Plan :=
  match Command.read line current with
  | .ok command => ofCommand readOnly command
  | .error failure => .error failure

/-- Carries out a plan. -/
def run (store : Store) : Plan → Store × Except Failure Report
  | .answer report => (store, .ok report)
  | .ask request => request.run store

/-- The number of times that the store is asked. -/
def requests : Plan → Nat
  | .answer _ => 0
  | .ask _ => 1

end Plan

end DocShell
