import DocShell.Literal.Relaxed
import DocShell.Value.Extended

/-!
# Arguments of a call

An argument is an object, an array, a string, a number, `true`, `false`, `null`
or an `ObjectId("…")`.  The arguments of a call are separated by the commas at
top level; a comma may follow the last one.
-/

namespace DocShell.Argument

/-- The text starts with a bracket of an object or an array. -/
def startsContainer : List Char → Bool
  | '{' :: _ | '[' :: _ => true
  | _ => false

/-- The text starts with a quote. -/
def startsString : List Char → Bool
  | c :: _ => Text.isQuote c
  | [] => false

/-- The failure of a text that is no literal, for the given reason. -/
def invalid {α : Type} (text : List Char) (reason : String) : Except ParseFailure α :=
  .error (.invalidLiteral (String.ofList text) reason)

/-- An object or array. -/
def readContainer (text : List Char) : Except ParseFailure Value :=
  match Text.checkBalanced text with
  | .error failure => .error failure
  | .ok _ =>
    match Literal.read text with
    | .error failure => .error failure
    | .ok json => Value.ofLiteral json

/-- A string literal and nothing else. -/
def readString (text : List Char) : Except ParseFailure Value :=
  match Text.checkBalanced text with
  | .error failure => .error failure
  | .ok _ =>
    match Json.read (Literal.normalize text) with
    | .ok (.string s) => .ok (.string s)
    | _ => invalid text "expected a single string literal"

/-- A text that starts with the name of the object id constructor. -/
def readObjectIdCall (text : List Char) : Except ParseFailure Value :=
  match Json.read (Literal.normalize text) with
  | .ok json => Value.ofLiteral json
  | .error _ => .error (.invalidObjectId (String.ofList text))

/-- A word, a number or an object id. -/
def readScalar (text : List Char) : Except ParseFailure Value :=
  if text == "true".toList then .ok (.boolean true)
  else if text == "false".toList then .ok (.boolean false)
  else if text == "null".toList then .ok .null
  else
    match Json.read text with
    | .ok (.number n) => .ok (Value.ofNumber n)
    | _ =>
      if (Text.behind? Literal.objectIdName text).isSome then readObjectIdCall text
      else
        invalid text
          "expected an object, array, string, number, boolean, null or ObjectId(...)"

/-- The value of one argument. -/
def read (fragment : List Char) : Except ParseFailure Value :=
  let text := Text.trim fragment
  if text.isEmpty then .error (.malformed "empty argument")
  else if startsContainer text then readContainer text
  else if startsString text then readString text
  else readScalar text

/-- The pieces without a blank one at the end, which a trailing comma leaves; a
single piece stays. -/
def dropBlankLast (pieces : List (List Char)) : List (List Char) :=
  match pieces.getLast? with
  | some last => if 1 < pieces.length ∧ (Text.trim last).isEmpty then pieces.dropLast else pieces
  | none => pieces

/-- The values of pieces; the first failure counts. -/
def readPieces : List (List Char) → Except ParseFailure (List Value)
  | [] => .ok []
  | piece :: more =>
    match read piece with
    | .error failure => .error failure
    | .ok value => (readPieces more).map (value :: ·)

/-- The values of pieces between top-level commas. -/
def readSeparated (text : List Char) : Except ParseFailure (List Value) :=
  match Text.splitTop ',' text with
  | .error failure => .error failure
  | .ok pieces => readPieces (dropBlankLast pieces)

/-- The values of what stands between the parentheses of a call.  One array that
fills the parentheses is one argument. -/
def readList (inside : List Char) : Except ParseFailure (List Value) :=
  let text := Text.trim inside
  if text.isEmpty then .ok []
  else if text.head? == some '[' && Text.spansOneArray text then (read text).map ([·])
  else readSeparated text

end DocShell.Argument
