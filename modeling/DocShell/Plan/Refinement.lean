import DocShell.Plan.Arguments
import DocShell.Store.Read

/-!
# Refining a cursor

A chain that starts with `find` describes one cursor.  `find` gives its filter and
projection, and each later call refines it: `sort`, `skip` and `limit` replace what
an earlier call of the same name said, and `toArray` and `pretty` say nothing.
-/

namespace DocShell

/-- What a call adds to a cursor. -/
inductive Refinement where
  | sort (spec : Document)
  | skip (count : Nat)
  | limit (count : Nat)
  | nothing
  deriving Repr, Inhabited

namespace Refinement

/-- The methods that refine a cursor. -/
def methods : List String :=
  ["sort", "skip", "limit", "toArray", "pretty"]

/-- The refinement that `sort` asks for. -/
def readSort (call : Call) : Except UsageFailure Refinement :=
  match call.atMost 1 "a sort document" with
  | .error failure => .error failure
  | .ok _ => (call.document 0 "a sort document").map .sort

/-- The refinement that `skip` asks for. -/
def readSkip (call : Call) : Except UsageFailure Refinement :=
  match call.atMost 1 "a non-negative integer" with
  | .error failure => .error failure
  | .ok _ =>
    match call.integer "a non-negative integer" with
    | .error failure => .error failure
    | .ok n => if 0 ≤ n then .ok (.skip n.toNat) else call.invalid "a non-negative integer"

/-- The refinement that `limit` asks for; a negative number counts as its absolute
value. -/
def readLimit (call : Call) : Except UsageFailure Refinement :=
  match call.atMost 1 "an integer" with
  | .error failure => .error failure
  | .ok _ => (call.integer "an integer").map fun n => .limit n.natAbs

/-- The refinement that a call asks for, if its method is one that refines. -/
def ofCall? (call : Call) : Option (Except UsageFailure Refinement) :=
  match call.method with
  | "sort" => some (readSort call)
  | "skip" => some (readSkip call)
  | "limit" => some (readLimit call)
  | "toArray" | "pretty" => some ((call.atMost 0 "no arguments").map fun _ => .nothing)
  | _ => none

end Refinement

namespace Cursor

/-- The cursor with a refinement. -/
def refine (cursor : Cursor) : Refinement → Cursor
  | .sort spec => { cursor with sort := some spec }
  | .skip count => { cursor with skip := some count }
  | .limit count => { cursor with limit := some count }
  | .nothing => cursor

/-- The filter and the projection that `find` and `findOne` are given. -/
def readQuery (call : Call) : Except UsageFailure (Document × Option Document) :=
  match call.atMost 2 "an optional filter document and an optional projection" with
  | .error failure => .error failure
  | .ok _ =>
    match call.document? 0 "a filter document" with
    | .error failure => .error failure
    | .ok filter =>
      (call.document? 1 "a projection document").map fun projection =>
        (filter.getD [], projection)

/-- The cursor that `find` opens. -/
def ofCall (call : Call) : Except UsageFailure Cursor :=
  (readQuery call).map fun (filter, projection) => { filter, projection }

end Cursor

end DocShell
