import DocShell.Call.Chain
import DocShell.Failure.Basic

/-!
# Commands

A line of input is one of

* `show dbs` or `show databases`,
* `use <database>`,
* `db.getCollectionNames()`, `db.<database>.getCollectionNames()`,
* `db.<collection>.<chain>`, `db.<database>.<collection>.<chain>`,

where the forms without a database need a current one.  A segment of the
reference in front of the first method may be written `getCollection("<name>")`,
which also reaches names that are no words.  Only the text up to the first
parenthesis of a method decides where a command goes; what is written between
the parentheses is left to the chain.
-/

namespace DocShell

/-- What a line of input asks for. -/
inductive Command where
  | showDatabases
  | listCollections (database : String)
  | useDatabase (name : String)
  | chain (ns : Namespace) (calls : List Call)
  deriving Repr, Inhabited

/-- The collection reference in front of the first method of a chain. -/
structure Reference where
  /-- Database and collection names. -/
  segments : List String
  /-- The first method. -/
  method : List Char
  /-- The text from the first method on. -/
  chain : List Char
  /-- The text from the parenthesis of the first method on. -/
  arguments : List Char
  deriving Repr, Inhabited

namespace Reference

/-- A character that a plain name can hold. -/
def isNameChar (c : Char) : Bool :=
  c.isAlphanum || c == '_' || c == '-' || c == '$'

/-- A plain name of a database, collection or method. -/
def isName (name : List Char) : Bool :=
  !name.isEmpty && name.all isNameChar

/-- The content of a text between two quotes of one kind. -/
def unquote? (quote : Char) : List Char → Option (List Char)
  | c :: rest =>
    if c == quote && rest.getLast? == some quote then some rest.dropLast else none
  | [] => none

/-- The content of a non-empty string literal. -/
def quotedName? (text : List Char) : Option (List Char) :=
  let text := Text.trim text
  ((unquote? '"' text).orElse fun _ => unquote? '\'' text).filter fun name => !name.isEmpty

/-- The name of the method that stands for a collection segment. -/
def getCollection : List Char :=
  "getCollection".toList

/-- For a text that starts with `getCollection(`: the text from its parenthesis
on. -/
def collectionCall? (text : List Char) : Option (List Char) :=
  match Text.behind? getCollection text with
  | none => none
  | some afterName =>
    match Text.trimStart afterName with
    | '(' :: rest => some ('(' :: rest)
    | _ => none

/-- The text does not go on with a point or a parenthesis. -/
def insideName (c : Char) : Bool :=
  c != '.' && c != '('

/-- The reference with one more segment in front. -/
def addSegment (name : List Char) (reference : Reference) : Reference :=
  { reference with segments := String.ofList name :: reference.segments }

/-- The text behind the point that a text starts with. -/
def afterPoint? (text : List Char) : Option (List Char) :=
  match Text.trimStart text with
  | '.' :: rest => some (Text.trimStart rest)
  | _ => none

/-- One segment of the reference and the text behind its point. -/
def takeSegment? (text : List Char) : Option (List Char × List Char) :=
  match collectionCall? text with
  | some call =>
    match Text.splitParen call with
    | none => none
    | some (inside, behind) =>
      match quotedName? inside, afterPoint? behind with
      | some name, some next => some (name, next)
      | _, _ => none
  | none =>
    let name := Text.trim (text.takeWhile insideName)
    match text.dropWhile insideName with
    | '.' :: rest => if isName name then some (name, Text.trimStart rest) else none
    | _ => none

/-- The first method, if the text starts with one. -/
def method? (text : List Char) : Option Reference :=
  match collectionCall? text with
  | some _ => none
  | none =>
    let name := Text.trim (text.takeWhile insideName)
    match text.dropWhile insideName with
    | '(' :: rest =>
      if isName name then
        some { segments := [], method := name, chain := text, arguments := '(' :: rest }
      else
        none
    | _ => none

theorem afterPoint?_length {text rest : List Char} (h : afterPoint? text = some rest) :
    rest.length < text.length := by
  unfold afterPoint? at h
  split at h
  · next tail htrim =>
    simp only [Option.some.injEq] at h
    have hle := Text.trimStart_length_le text
    have htail := Text.trimStart_length_le tail
    rw [htrim, List.length_cons] at hle
    rw [← h]
    omega
  · simp at h

theorem collectionCall?_length {text call : List Char} (h : collectionCall? text = some call) :
    call.length ≤ text.length := by
  unfold collectionCall? at h
  split at h
  · simp at h
  · next afterName hname =>
    split at h
    · next rest htrim =>
      simp only [Option.some.injEq] at h
      have hle := Text.trimStart_length_le afterName
      have hlen : text = getCollection ++ afterName := Text.behind?_eq_some_iff.mp hname
      rw [htrim] at hle
      rw [← h, hlen, List.length_append]
      omega
    · simp at h

theorem takeSegment?_length {text name rest : List Char}
    (h : takeSegment? text = some (name, rest)) : rest.length < text.length := by
  unfold takeSegment? at h
  split at h
  · next call hcall =>
    split at h
    · simp at h
    · next inside behind hsplit =>
      split at h
      · next _ next _ hafter =>
        simp only [Option.some.injEq, Prod.mk.injEq] at h
        obtain ⟨-, rfl⟩ := h
        have hlt := afterPoint?_length hafter
        have hparen := Text.splitParen_length hsplit
        have hle := collectionCall?_length hcall
        omega
      · simp at h
  · simp only at h
    split at h
    · next tail hdrop =>
      split at h
      · simp only [Option.some.injEq, Prod.mk.injEq] at h
        obtain ⟨-, rfl⟩ := h
        have hle := (List.dropWhile_sublist insideName (l := text)).length_le
        have htail := Text.trimStart_length_le tail
        rw [hdrop, List.length_cons] at hle
        omega
      · simp at h
    · simp at h

/-- The reference that a text without leading blanks starts with. -/
def readFrom? (text : List Char) : Option Reference :=
  match method? text with
  | some reference => some reference
  | none =>
    match _hsegment : takeSegment? text with
    | some (name, rest) => (readFrom? rest).map (addSegment name)
    | none => none
termination_by text.length
decreasing_by exact takeSegment?_length _hsegment

theorem readFrom?_of_method {text : List Char} {reference : Reference}
    (hmethod : method? text = some reference) : readFrom? text = some reference := by
  rw [readFrom?, hmethod]

theorem readFrom?_of_segment {text name rest : List Char} (hmethod : method? text = none)
    (hsegment : takeSegment? text = some (name, rest)) :
    readFrom? text = (readFrom? rest).map (addSegment name) := by
  rw [readFrom?, hmethod]
  simp only
  split
  · next hfound =>
      rw [hsegment] at hfound
      cases hfound
      rfl
  · next hnone => simp [hsegment] at hnone

/-- The reference that a text starts with. -/
def read? (text : List Char) : Option Reference :=
  readFrom? (Text.trimStart text)

end Reference

namespace Command

/-- The forms of command that need no current database. -/
def longForms : List String :=
  ["Supported commands:",
   "  show dbs | show databases",
   "  use <database>",
   "  db.<database>.getCollectionNames()",
   "  db.<database>.<collection>.find(<filter>).sort(<spec>).skip(<n>).limit(<n>)",
   "  db.<database>.<collection>.<operation>(<args>)",
   "  db.<database>.getCollection(\"<name>\").<operation>(<args>)"]

/-- The forms that a current database allows, or how to get one. -/
def shortForms : Option String → List String
  | some db =>
    [s!"With current database `{db}`:",
     "  db.getCollectionNames()",
     "  db.<collection>.<operation>(<args>)"]
  | none => ["Select a database with `use <database>` to enable db.<collection>... shortcuts."]

/-- The methods that can start a chain. -/
def operations : List String :=
  ["find", "findOne", "aggregate", "insertOne", "insertMany", "updateOne", "updateMany",
   "deleteOne", "deleteMany", "countDocuments", "distinct"]

/-- The forms of command, as help for the user. -/
def help (current : Option String) : String :=
  let names := ", ".intercalate operations
  "\n".intercalate (longForms ++ shortForms current ++ [s!"Operations: {names}"])

/-- The failure of a line that fits no form. -/
def unknown {α : Type} (current : Option String) : Except Failure α :=
  .error (.usage (.unknownCommand (help current)))

/-- The failure of a short form without a current database. -/
def databaseRequired {α : Type} (hint : String) : Except Failure α :=
  .error (.usage (.databaseRequired hint))

/-- The method that lists the collections of a database. -/
def listMethod : List Char :=
  "getCollectionNames".toList

/-- The call has no arguments and nothing behind it. -/
def checkEmptyCall (call : List Char) : Except Failure Unit :=
  match Text.splitParen call with
  | none => .error (.parse (.unbalanced (String.ofList call)))
  | some (inside, behind) =>
    if (Text.trim inside).isEmpty && (Text.trim behind).isEmpty then
      .ok ()
    else
      .error (.usage (.invalidArguments (String.ofList listMethod)
        "no arguments and no chained calls"))

/-- The chain of a reference, on a given collection. -/
def ofChain (ns : Namespace) (text : List Char) : Except Failure Command :=
  match Chain.read text with
  | .ok calls => .ok (.chain ns calls)
  | .error failure => .error (.parse failure)

/-- A listing of collections. -/
def ofListing (current : Option String) (reference : Reference) : Except Failure Command :=
  match checkEmptyCall reference.arguments with
  | .error failure => .error failure
  | .ok _ =>
    match reference.segments, current with
    | [database], _ => .ok (.listCollections database)
    | [], some db => .ok (.listCollections db)
    | [], none =>
      databaseRequired
        "Run `use <database>` first, or use db.<database>.getCollectionNames()"
    | _, _ => unknown current

/-- The command that a reference with its chain asks for. -/
def ofReference (current : Option String) (reference : Reference) : Except Failure Command :=
  if reference.method == listMethod then
    ofListing current reference
  else
    match reference.segments with
    | [] => unknown current
    | [collection] =>
      match current with
      | some db => ofChain ⟨db, collection⟩ reference.chain
      | none =>
        databaseRequired
          s!"Use the fully qualified form db.<database>.{collection}.<method>(...)"
    | database :: collection => ofChain ⟨database, ".".intercalate collection⟩ reference.chain

/-- `show …` and `use …`, or nothing when the line starts with neither word. -/
def ofWords (current : Option String) (words : List String) : Option (Except Failure Command) :=
  match words with
  | ["show", "dbs"] | ["show", "databases"] => some (.ok .showDatabases)
  | ["show", "collections"] =>
    some (databaseRequired
      "Use db.<database>.getCollectionNames() instead of `show collections`")
  | ["use", name] =>
    some (if Reference.isName name.toList then .ok (.useDatabase name) else unknown current)
  | "show" :: _ | "use" :: _ => some (unknown current)
  | _ => none

/-- The current database, unless its name is blank. -/
def selected? (current : Option String) : Option String :=
  (current.map fun name => String.ofList (Text.trim name.toList)).filter fun name =>
    !name.isEmpty

/-- The line without blanks around it and without semicolons at its end. -/
def bare (line : List Char) : List Char :=
  Text.trim (Text.trimEndWhile (· == ';') (Text.trim line))

/-- The command that a line asks for when `current` is the current database. -/
def read (line : String) (current : Option String) : Except Failure Command :=
  let text := bare line.toList
  let current := selected? current
  if text.isEmpty then
    .error (.parse .emptyInput)
  else
    match ofWords current ((Text.words text).map String.ofList) with
    | some outcome => outcome
    | none =>
      match Text.behind? ['d', 'b', '.'] text with
      | none => unknown current
      | some rest =>
        match Reference.read? rest with
        | some reference => ofReference current reference
        | none => unknown current

/-- A line that is neither `show …` nor `use …` asks for what its reference does. -/
theorem read_of_reference {line : String} {current : Option String} {text rest : List Char}
    {reference : Reference} (hbare : bare line.toList = text)
    (hwords : ofWords (selected? current) ((Text.words text).map String.ofList) = none)
    (hrest : Text.behind? ['d', 'b', '.'] text = some rest)
    (hreference : Reference.read? rest = some reference) :
    read line current = ofReference (selected? current) reference := by
  have hnonempty : text.isEmpty = false := by
    rw [Text.behind?_eq_some_iff.mp hrest]
    rfl
  simp only [read, hbare, hnonempty, hwords, hrest, hreference, Bool.false_eq_true, if_false]

end Command

end DocShell
