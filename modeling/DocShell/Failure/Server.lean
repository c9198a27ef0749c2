import DocShell.Json.Writer
import DocShell.Text.Pieces
import DocShell.Value.Form

/-!
# Failures that a database server reports

A report is shown as a JSON object with the kind of failure, its code, the name
of the code, the message, and where a write failed.  Each part is left out when
the report does not carry it.  The place of a failed write comes from the
document that the server sends along, and from the wording of the message for
what that document leaves open.
-/

namespace DocShell

/-- A code with its message. -/
structure CodedFault where
  code : Int
  message : String
  deriving Repr, Inhabited

/-- A failed write: code, message and the document that explains it. -/
structure WriteFault where
  fault : CodedFault
  info : Option Document := none
  deriving Repr, Inhabited

/-- A failure that a server, or the connection to it, reports. -/
inductive ServerFault where
  | command (fault : CodedFault)
  | write (fault : WriteFault)
  | writeConcern (fault : CodedFault)
  | insertMany (writes : Option (List WriteFault)) (concern : Option CodedFault)
  | authentication (message : String)
  | invalidArgument (message : String)
  | serverSelection (message : String)
  | unclassified (message : String)
  deriving Repr, Inhabited

/-- Where a write failed. -/
structure WritePlace where
  collection : Option String := none
  index : Option String := none
  key : Option Document := none

/-- What is shown of a report. -/
structure FaultSummary where
  kind : Option String := none
  fault : Option CodedFault := none
  message : Option String := none
  place : Option WritePlace := none

/-- The name of a code. -/
def CodedFault.name? (fault : CodedFault) : Option String :=
  if fault.code = 11000 ∨ fault.code = 11001 then some "DuplicateKey"
  else if fault.code = 13 then some "Unauthorized"
  else if fault.code = 18 then some "AuthenticationFailed"
  else if fault.code = 26 then some "NamespaceNotFound"
  else if fault.code = 50 then some "MaxTimeMSExpired"
  else if fault.code = 121 then some "DocumentValidationFailure"
  else none

/-- The message that is shown: the codes of a duplicate key have one of their
own. -/
def CodedFault.shown (fault : CodedFault) : String :=
  if fault.code = 11000 ∨ fault.code = 11001 then "Duplicate key error" else fault.message

namespace WritePlace

/-- The first of the names that holds a string. -/
def stringField? (doc : Document) : List String → Option String
  | [] => none
  | name :: more =>
    match doc.get? name with
    | some (.string s) => some s
    | _ => stringField? doc more

/-- The first of the names that holds a document. -/
def documentField? (doc : Document) : List String → Option Document
  | [] => none
  | name :: more =>
    match doc.get? name with
    | some (.document fields) => some fields
    | _ => documentField? doc more

/-- The word behind the first occurrence of a marker, if a blank ends it. -/
def wordAfter? (message marker : String) : Option String := do
  let (_, behind) ← Text.splitOnce? marker.toList message.toList
  let (word, _) ← Text.splitOnce? [' '] behind
  return String.ofList word

/-- The place of a failed write. -/
def ofFault (fault : WriteFault) : WritePlace :=
  let message := fault.fault.message
  let info : Document := fault.info.getD []
  { collection := (stringField? info ["namespace", "ns"]).orElse fun _ =>
      wordAfter? message "collection: "
    index := (stringField? info ["index", "indexName"]).orElse fun _ =>
      wordAfter? message "index: "
    key := documentField? info ["keyPattern", "keyValue"] }

/-- A member, if there is a value for it. -/
def member? (name : String) (value : Option Json) : List (String × Json) :=
  match value with
  | some value => [(name, value)]
  | none => []

/-- The place as JSON. -/
def toJson (place : WritePlace) : Json :=
  .object <|
    member? "collection" (place.collection.map .string) ++
    member? "index" (place.index.map .string) ++
    member? "key" (place.key.map fun doc => .object (Value.fieldsToExtended .report doc))

end WritePlace

namespace ServerFault

/-- The summary of a coded fault. -/
def coded (kind : String) (fault : CodedFault) : FaultSummary :=
  { kind := some kind, fault := some fault, message := some fault.shown }

/-- The summary of a failed write. -/
def written (kind : String) (fault : WriteFault) : FaultSummary :=
  { coded kind fault.fault with place := some (WritePlace.ofFault fault) }

/-- What is shown of a report.  Of several failed writes the first counts, and a
failed write counts before a failed write concern. -/
def summary : ServerFault → FaultSummary
  | .command fault => coded "mongo.command_error" fault
  | .write fault => written "mongo.write_error" fault
  | .writeConcern fault => coded "mongo.write_error" fault
  | .insertMany (some (fault :: _)) _ => written "mongo.insert_many_error" fault
  | .insertMany _ (some fault) => coded "mongo.insert_many_error" fault
  | .insertMany _ none => { kind := some "mongo.insert_many_error" }
  | .authentication message =>
    { kind := some "mongo.authentication_error", message := some message }
  | .invalidArgument message =>
    { kind := some "mongo.invalid_argument", message := some message }
  | .serverSelection message =>
    { kind := some "mongo.server_selection_error", message := some message }
  | .unclassified message => { message := some message }

/-- The report as JSON. -/
def toJson (fault : ServerFault) : Json :=
  let s := fault.summary
  .object <|
    WritePlace.member? "type" (s.kind.map .string) ++
    WritePlace.member? "code" (s.fault.map fun f => Json.ofInt f.code) ++
    WritePlace.member? "name" ((s.fault.bind CodedFault.name?).map .string) ++
    WritePlace.member? "message" (s.message.map .string) ++
    WritePlace.member? "details" (s.place.map WritePlace.toJson)

/-- The report as one line of text. -/
def message (fault : ServerFault) : String :=
  fault.toJson.compact

end ServerFault

end DocShell
