import DocShell.Plan.Basic
import DocShell.Settings.Format

/-!
# Sessions

A session carries out one line after the other on a store.  The database that `use`
has selected last is current for the lines behind it; a line that fails selects
nothing.

Each line is answered with a text: the report on the standard output, or the failure
on the error output.  A session has gone well if no line failed.
-/

namespace DocShell

/-- Carries out a line on a store. -/
def Store.execute (store : Store) (readOnly : Bool) (current : Option String) (line : String) :
    Store × Except Failure Report :=
  match Plan.ofLine readOnly current line with
  | .ok plan => plan.run store
  | .error failure => (store, .error failure)

/-- A store with the rules and the database that hold for the next line. -/
structure Session where
  store : Store := {}
  readOnly : Bool := false
  current : Option String := none
  deriving Repr, Inhabited

namespace Session

/-- The database that is current after an outcome. -/
def next (current : Option String) : Except Failure Report → Option String
  | .ok (.switched database _) => some database
  | _ => current

/-- Carries out a line. -/
def step (session : Session) (line : String) : Session × Except Failure Report :=
  let (store, outcome) := session.store.execute session.readOnly session.current line
  ({ session with store, current := next session.current outcome }, outcome)

/-- Carries out lines in order. -/
def run (session : Session) : List String → Session × List (Except Failure Report)
  | [] => (session, [])
  | line :: more =>
    let (after, outcome) := session.step line
    let (last, outcomes) := after.run more
    (last, outcome :: outcomes)

/-- The lines of a text that hold something; a line ends with a line feed, and a
carriage return in front of it is not part of it. -/
def lines (text : String) : List String :=
  let pieces := Text.pieces (· == '\n') text.toList
  let ended := pieces.dropLast.map fun piece =>
    if piece.getLast? == some '\r' then piece.dropLast else piece
  let all := ended ++ [pieces.getLast?.getD []]
  (all.filter fun piece => !(Text.trim piece).isEmpty).map String.ofList

end Session

/-- The answer to a line: a text, and whether it tells of a failure. -/
structure Answer where
  text : String
  isFailure : Bool
  deriving DecidableEq, Repr, Inhabited

/-- The answer in a format, where two blanks stand for one level. -/
def Answer.ofOutcome (format : OutputFormat) : Except Failure Report → Answer
  | .ok report => { text := format.render 2 report.toJson, isFailure := false }
  | .error failure => { text := format.render 2 failure.envelope, isFailure := true }

end DocShell
