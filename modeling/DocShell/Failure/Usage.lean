/-!
# What can be wrong with a command that was understood
-/

namespace DocShell

/-- Why a well-formed command cannot be served. -/
inductive UsageFailure where
  /-- No form of command fits; `help` lists the forms. -/
  | unknownCommand (help : String)
  /-- The method is not one of the supported ones. -/
  | unsupportedMethod (method : String) (supported : List String)
  /-- The arguments are not what the method expects. -/
  | invalidArguments (method expected : String)
  /-- A method that refines a cursor stands where none is open. -/
  | cursorRequired (method : String)
  /-- A second `find` in one chain. -/
  | cursorAlreadyOpen
  /-- A method that ends the chain is followed by another. -/
  | terminalNotLast (method next : String)
  /-- The command needs a current database. -/
  | databaseRequired (hint : String)
  /-- There is no such database. -/
  | unknownDatabase (name : String)
  deriving DecidableEq, Repr, Inhabited

/-- The wording of a usage failure. -/
def UsageFailure.message : UsageFailure → String
  | .unknownCommand help => s!"Unrecognized command.\n{help}"
  | .unsupportedMethod method supported =>
    let names := ", ".intercalate supported
    s!"Unsupported operation `{method}`. Supported operations: {names}"
  | .invalidArguments method expected =>
    s!"Invalid arguments for `{method}`: expected {expected}"
  | .cursorRequired method =>
    s!"`{method}` must follow `find(...)`, e.g. db.coll.find(\x7b\x7d).{method}(...)"
  | .cursorAlreadyOpen =>
    "`find` can only be called once per chain; combine the filters into a single find"
  | .terminalNotLast method next =>
    s!"`{method}` ends the chain and cannot be followed by `.{next}(...)`"
  | .databaseRequired hint => s!"No database selected. {hint}"
  | .unknownDatabase name => s!"Database `{name}` not found"

end DocShell
