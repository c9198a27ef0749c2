import DocShell.Failure.Query
import DocShell.Query.Path

/-!
# Projections

A projection either names the paths to show or the paths to leave out.  The field
`_id` is shown unless its own flag says otherwise, whatever the rest does.
-/

namespace DocShell.Projection

/-- The flag of `_id`; it is shown unless something else is said. -/
def showsId (projection : Document) : Bool :=
  match projection.get? "_id" with
  | some flag => flag.truthy
  | none => true

/-- The paths other than `_id` whose flag is `shown`. -/
def paths (projection : Document) (shown : Bool) : List String :=
  (projection.filter fun entry => entry.1 != "_id" && entry.2.truthy == shown).map Prod.fst

/-- The document without the given paths. -/
def leaveOut (doc : Document) (excluded : List String) : Document :=
  excluded.foldl Path.erase doc

/-- What has been shown so far, with the value of one more path of the source. -/
def showPath (source shown : Document) (path : String) : Except QueryFailure Document :=
  match Path.get? source path with
  | none => .ok shown
  | some value => (Path.set shown path value).mapError fun part => .notDocument path part

/-- What has been shown so far, with the values of more paths of the source. -/
def showPaths (source : Document) : List String → Document → Except QueryFailure Document
  | [], shown => .ok shown
  | path :: more, shown =>
    match showPath source shown path with
    | .error failure => .error failure
    | .ok shown => showPaths source more shown

/-- The `_id` of a document alone. -/
def idAlone (doc : Document) : Document :=
  match doc.get? "_id" with
  | some id => [("_id", id)]
  | none => []

/-- The document as a projection shows it. -/
def apply (projection doc : Document) : Except QueryFailure Document :=
  let included := paths projection true
  let excluded := paths projection false
  if !included.isEmpty && !excluded.isEmpty then
    .error .mixedProjection
  else if included.isEmpty then
    let kept := leaveOut doc excluded
    .ok (if showsId projection then kept else kept.erase "_id")
  else
    showPaths doc included (if showsId projection then idAlone doc else [])

/-- The documents as a projection shows them; the first fault counts. -/
def applyAll (projection : Document) : List Document → Except QueryFailure (List Document)
  | [] => .ok []
  | doc :: more =>
    match apply projection doc with
    | .error failure => .error failure
    | .ok shown => (applyAll projection more).map (shown :: ·)

end DocShell.Projection
