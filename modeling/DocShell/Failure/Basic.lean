import DocShell.Failure.Parse
import DocShell.Failure.Query
import DocShell.Failure.Server
import DocShell.Failure.Usage
import DocShell.Namespace

/-!
# Failures

Everything that can go wrong falls into one of seven kinds, which callers are
told by name: `parse`, `usage`, `policy`, `store`, `config`, `io` and `generic`.
-/

namespace DocShell

/-- A request that the rules of the session forbid. -/
inductive PolicyFailure where
  /-- A write while the session may only read. -/
  | readOnly (operation : String)
  deriving DecidableEq, Repr, Inhabited

/-- A failure that the store raises. -/
inductive StoreFailure where
  /-- A query cannot be applied. -/
  | query (failure : QueryFailure)
  /-- A document with this id is there already. -/
  | duplicateKey (ns : Namespace) (id : Value)
  /-- A server reports a failure. -/
  | server (fault : ServerFault)
  /-- Anything else, in the store's own words. -/
  | other (detail : String)
  deriving Repr, Inhabited

/-- A failure of the settings. -/
inductive SettingsFailure where
  | fileNotFound (path : String)
  | invalidFormat (detail : String)
  | invalidValue (field value : String)
  deriving DecidableEq, Repr, Inhabited

/-- Why something could not be done. -/
inductive Failure where
  | parse (failure : ParseFailure)
  | usage (failure : UsageFailure)
  | policy (failure : PolicyFailure)
  | store (failure : StoreFailure)
  | settings (failure : SettingsFailure)
  | io (detail : String)
  | generic (detail : String)
  deriving Repr, Inhabited

/-- The wording of a policy failure. -/
def PolicyFailure.message : PolicyFailure → String
  | .readOnly operation =>
    s!"Permission denied: `{operation}` is not allowed while the console is read-only"

/-- The wording of a store failure. -/
def StoreFailure.message : StoreFailure → String
  | .query failure => s!"Store error: {failure.message}"
  | .duplicateKey ns id =>
    s!"Store error: duplicate key error collection: {ns.text} _id: {id.display}"
  | .server fault => s!"Store error: {fault.message}"
  | .other detail => s!"Store error: {detail}"

/-- The wording of a failure of the settings. -/
def SettingsFailure.message : SettingsFailure → String
  | .fileNotFound path => s!"Config file not found: {path}"
  | .invalidFormat detail => s!"Invalid config format: {detail}"
  | .invalidValue field value => s!"Invalid value '{value}' for field '{field}'"

namespace Failure

/-- The name of a failure's kind. -/
def kind : Failure → String
  | .parse _ => "parse"
  | .usage _ => "usage"
  | .policy _ => "policy"
  | .store _ => "store"
  | .settings _ => "config"
  | .io _ => "io"
  | .generic _ => "generic"

/-- The wording of a failure. -/
def message : Failure → String
  | .parse failure => failure.message
  | .usage failure => failure.message
  | .policy failure => failure.message
  | .store failure => failure.message
  | .settings failure => s!"Configuration error: {failure.message}"
  | .io detail => s!"I/O error: {detail}"
  | .generic detail => detail

/-- The object that tells callers of a failure. -/
def envelope (failure : Failure) : Json :=
  .object [("error", .object
    [("kind", .string failure.kind), ("message", .string failure.message)])]

end Failure

end DocShell
