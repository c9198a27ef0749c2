/-!
# Collection names
-/

namespace DocShell

/-- A collection of a database. -/
structure Namespace where
  database : String
  collection : String
  deriving DecidableEq, Repr, Inhabited

/-- The database, a point and the collection. -/
def Namespace.text (ns : Namespace) : String :=
  s!"{ns.database}.{ns.collection}"

end DocShell
