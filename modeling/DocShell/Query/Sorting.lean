import DocShell.Failure.Query
import DocShell.Query.Path
import DocShell.Value.Order

/-!
# Sorting documents

A sort specification names paths with a direction each, 1 or -1.  Documents are
compared by the first path, then by the second, and so on; a missing value comes
before every present one.  Sorting keeps the order of documents that agree on all
paths.
-/

namespace DocShell.Sorting

/-- A path and whether its order is reversed. -/
structure Key where
  path : String
  descending : Bool
  deriving DecidableEq, Repr, Inhabited

/-- Whether a direction is descending, if it is a direction. -/
def descending? (direction : Value) : Option Bool :=
  match direction with
  | .int32 n => if n = 1 then some false else if n = -1 then some true else none
  | .int64 n => if n = 1 then some false else if n = -1 then some true else none
  | .double x =>
    if x.same (Double.ofInt 1) then some false
    else if x.same (Double.ofInt (-1)) then some true
    else none
  | _ => none

/-- The keys of a sort specification. -/
def keys : List (String × Value) → Except QueryFailure (List Key)
  | [] => .ok []
  | (path, direction) :: more =>
    match descending? direction with
    | some descending => (keys more).map (⟨path, descending⟩ :: ·)
    | none => .error (.invalidDirection path direction)

/-- The order of two values of which either may be missing. -/
def orderFields (a b : Option Value) : Ordering :=
  match a, b with
  | some x, some y => x.order y
  | some _, none => .gt
  | none, some _ => .lt
  | none, none => .eq

/-- The order of two documents by one key. -/
def Key.order (key : Key) (a b : Document) : Ordering :=
  let o := orderFields (Path.get? a key.path) (Path.get? b key.path)
  if key.descending then o.swap else o

/-- The order of two documents by the first key on which they differ. -/
def order : List Key → Document → Document → Ordering
  | [], _, _ => .eq
  | key :: more, a, b => (key.order a b).then (order more a b)

/-- The documents in the order of the keys; ties keep their order. -/
def byKeys (keys : List Key) (docs : List Document) : List Document :=
  docs.mergeSort fun a b => order keys a b != .gt

/-- What documents are after sorting them in place, and the outcome: a specification that
cannot be read leaves them as they are. -/
def sortInPlace (spec : Document) (docs : List Document) :
    List Document × Except QueryFailure Unit :=
  match keys spec with
  | .ok keys => (byKeys keys docs, .ok ())
  | .error failure => (docs, .error failure)

/-- The documents in the order of a sort specification. -/
def sort (spec : Document) (docs : List Document) : Except QueryFailure (List Document) :=
  match sortInPlace spec docs with
  | (sorted, .ok _) => .ok sorted
  | (_, .error failure) => .error failure

end DocShell.Sorting
