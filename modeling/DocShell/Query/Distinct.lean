import DocShell.Query.Path
import DocShell.Value.Order

/-!
# Distinct values

The values of a field over many documents, an array counting by its items.  Of
values that a query cannot tell apart only the first is kept, and the outcome is
sorted.
-/

namespace DocShell.Distinct

/-- What a document has at a path: nothing, the items of an array, or the value. -/
def candidates (doc : Document) (path : String) : List Value :=
  match Path.get? doc path with
  | some (.array items) => items
  | some value => [value]
  | none => []

/-- The values seen so far and one more, unless it equals one of them. -/
def add (seen : List Value) (value : Value) : List Value :=
  if seen.any fun other => other.matching value then seen else seen ++ [value]

/-- The distinct values at a path, in order. -/
def values (path : String) (docs : List Document) : List Value :=
  let seen := (docs.flatMap fun doc => candidates doc path).foldl add []
  seen.mergeSort fun a b => a.order b != .gt

end DocShell.Distinct
