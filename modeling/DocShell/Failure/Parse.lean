/-!
# What can be wrong with input text

Each constructor is one cause; `message` gives its wording.  A fragment is the
part of the input that shows the fault, as it was written.
-/

namespace DocShell

/-- Why a text could not be read. -/
inductive ParseFailure where
  /-- Nothing is left once blanks and semicolons are taken off. -/
  | emptyInput
  /-- The text breaks the rules of a command; `detail` tells where. -/
  | malformed (detail : String)
  /-- A string or bracket is still open at the end. -/
  | unterminated (fragment : String)
  /-- A closing bracket has no partner, or a parenthesis never closes. -/
  | unbalanced (fragment : String)
  /-- A literal does not denote a value. -/
  | invalidLiteral (fragment reason : String)
  /-- An identifier is not made of 24 hexadecimal digits. -/
  | invalidObjectId (text : String)
  /-- A wrapper such as `$date` holds something it cannot wrap. -/
  | invalidExtendedJson (detail : String)
  /-- A method name with its parenthesis was expected. -/
  | expectedCall (fragment : String)
  deriving DecidableEq, Repr, Inhabited

/-- The wording of a parse failure. -/
def ParseFailure.message : ParseFailure → String
  | .emptyInput => "Parse error: empty input"
  | .malformed detail => s!"Syntax error: {detail}"
  | .unterminated fragment => s!"Parse error: unterminated literal `{fragment}`"
  | .unbalanced fragment => s!"Parse error: unbalanced brackets in `{fragment}`"
  | .invalidLiteral fragment reason =>
    s!"Parse error: invalid literal `{fragment}` ({reason})"
  | .invalidObjectId text =>
    s!"Parse error: invalid ObjectId `{text}` (expected 24 hexadecimal characters)"
  | .invalidExtendedJson detail => s!"Parse error: invalid extended JSON: {detail}"
  | .expectedCall fragment => s!"Parse error: expected `method(args)` at `{fragment}`"

end DocShell
