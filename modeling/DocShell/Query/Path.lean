import DocShell.Text.Pieces
import DocShell.Value.Basic

/-!
# Dotted paths

A path such as `address.city` names a value inside nested documents; its
segments are the pieces between the points, of which there is always at least
one.  A path leads through documents only, never into arrays.

`Path.get?`, `Path.set` and `Path.erase` read, write and remove the value at a
path.  Writing creates the documents on the way that are missing; it fails when
the path leads through a value that is no document, and names that segment.
-/

namespace DocShell.Path

/-- The segments of a dotted path. -/
def segments (path : String) : List String :=
  (Text.pieces (· == '.') path.toList).map String.ofList

/-- The value at the end of a row of segments. -/
def getAt? : List String → Document → Option Value
  | [], _ => none
  | [name], doc => doc.get? name
  | name :: more, doc =>
    match doc.get? name with
    | some (.document inner) => getAt? more inner
    | _ => none

/-- The document with a value put at the end of a row of segments, or the
segment that is there and no document. -/
def setAt : List String → Value → Document → Except String Document
  | [], _, doc => .ok doc
  | [name], value, doc => .ok (doc.insert name value)
  | name :: more, value, doc =>
    match doc.get? name with
    | none => (setAt more value []).map fun inner => doc.insert name (.document inner)
    | some (.document inner) =>
      (setAt more value inner).map fun inner => doc.insert name (.document inner)
    | some _ => .error name

/-- The document without the value at the end of a row of segments. -/
def eraseAt : List String → Document → Document
  | [], doc => doc
  | [name], doc => doc.erase name
  | name :: more, doc =>
    match doc.get? name with
    | some (.document inner) => doc.insert name (.document (eraseAt more inner))
    | _ => doc

/-- The value at a path. -/
def get? (doc : Document) (path : String) : Option Value :=
  getAt? (segments path) doc

/-- The document with a value put at a path. -/
def set (doc : Document) (path : String) (value : Value) : Except String Document :=
  setAt (segments path) value doc

/-- The document without the value at a path. -/
def erase (doc : Document) (path : String) : Document :=
  eraseAt (segments path) doc

end DocShell.Path
