import DocShell.Failure.Parse
import DocShell.Json.Reader
import DocShell.Json.Writer
import DocShell.Text.Nesting
import DocShell.Text.Pieces

/-!
# Relaxed literals

A relaxed literal is JSON in which strings may stand in single quotes, keys may
stand without quotes, and `ObjectId("…")` stands for the wrapper of an object
id.  `normalize` turns such a text into JSON in one pass from left to right and
leaves everything else as it is; it never fails, and `read` lets the JSON reader
judge the outcome.

A word counts as a key when it follows `{`, `,` or `[` and is followed by a
colon.  Inside strings only quotes are touched: a single-quoted string gets
double quotes, `\'` in it loses its backslash and a bare `"` in it gets one.
-/

namespace DocShell.Literal

/-- The name of the one constructor that literals know. -/
def objectIdName : List Char :=
  ['O', 'b', 'j', 'e', 'c', 't', 'I', 'd']

/-- A character that a word can start with. -/
def isWordStart (c : Char) : Bool :=
  c.isAlpha || c == '_' || c == '$'

/-- A character that a word can hold. -/
def isWordChar (c : Char) : Bool :=
  c.isAlphanum || c == '_' || c == '$'

/-- The string that `quote` has opened, in its JSON form up to and with its closing
quote, and what is left behind it.  A string that never closes goes on to the
end. -/
def copyString (quote : Char) : List Char → List Char × List Char
  | [] => ([], [])
  | ['\\'] => (['\\'], [])
  | '\\' :: c :: rest =>
    let (copied, behind) := copyString quote rest
    if c == '\'' && quote == '\'' then (c :: copied, behind) else ('\\' :: c :: copied, behind)
  | c :: rest =>
    if c == quote then
      (['"'], rest)
    else
      let (copied, behind) := copyString quote rest
      if c == '"' then ('\\' :: c :: copied, behind) else (c :: copied, behind)

/-- What stands before and behind the first `quote`. -/
def untilQuote (quote : Char) : List Char → Option (List Char × List Char)
  | [] => none
  | c :: rest =>
    if c == quote then some ([], rest)
    else (untilQuote quote rest).map fun (content, behind) => (c :: content, behind)

/-- For a text that starts with `ObjectId("…")`: the quoted content, and what is
left behind the call. -/
def objectIdCall? (text : List Char) : Option (List Char × List Char) :=
  match Text.behind? objectIdName text with
  | none => none
  | some afterName =>
  match Text.trimStart afterName with
  | '(' :: afterParen =>
    match Text.trimStart afterParen with
    | [] => none
    | quote :: body =>
      if Text.isQuote quote then
        match untilQuote quote body with
        | none => none
        | some (content, afterString) =>
          match Text.trimStart afterString with
          | ')' :: behind => some (content, behind)
          | _ => none
      else
        none
  | _ => none

/-- The wrapper that an object id call becomes. -/
def objectIdWrapper (content : List Char) : List Char :=
  ['{', '"', '$', 'o', 'i', 'd', '"', ':'] ++ Json.quoted content ++ ['}']

/-- A key may stand behind this character. -/
def opensKey (last : Option Char) : Bool :=
  last == some '{' || last == some ',' || last == some '['

/-- The word that a text starts with, if a colon follows it. -/
def key? (text : List Char) : Option (List Char) :=
  match Text.trimStart (text.dropWhile isWordChar) with
  | ':' :: _ => some (text.takeWhile isWordChar)
  | _ => none

/-- The JSON form of a text.  The first `skip` characters have been dealt with,
`inWord` tells whether the character in front belongs to a word, and `last` is
the last written character that is not blank. -/
def normalizeFrom : (skip : Nat) → (inWord : Bool) → (last : Option Char) → List Char → List Char
  | _, _, _, [] => []
  | skip + 1, _, last, c :: rest => normalizeFrom skip (isWordChar c) last rest
  | 0, inWord, last, c :: rest =>
    if Text.isQuote c then
      let (copied, behind) := copyString c rest
      '"' :: copied ++ normalizeFrom (rest.length - behind.length) false (some '"') rest
    else if isWordStart c && !inWord then
      match objectIdCall? (c :: rest) with
      | some (content, behind) =>
        objectIdWrapper content ++
          normalizeFrom (rest.length - behind.length) true (some '}') rest
      | none =>
        match if opensKey last then key? (c :: rest) else none with
        | some word =>
          '"' :: word ++ '"' :: normalizeFrom (word.length - 1) true word.getLast? rest
        | none => c :: normalizeFrom 0 true (some c) rest
    else
      c :: normalizeFrom 0 (isWordChar c) (if Text.isBlank c then last else some c) rest

/-- The literal as JSON text. -/
def normalize (text : List Char) : List Char :=
  normalizeFrom 0 false none text

/-- The JSON value of a relaxed literal. -/
def read (text : List Char) : Except ParseFailure Json :=
  (Json.ofText (normalize text)).mapError fun reason =>
    .invalidLiteral (String.ofList (Text.trim text)) reason

end DocShell.Literal
