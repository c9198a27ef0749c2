import DocShell.Failure.Server
import DocShell.Value.Unwrapped

/-!
# Failures in the replies of a server

A reply is a document.  It carries a code and a message, and for a failed write the
document that explains it, which is read with every document that stands for another
value replaced.  The reply to several writes lists those that failed, and may report a
failed write concern besides.

Failures of the connection itself come without a reply and have a wording of their own.
-/

namespace DocShell

/-- The code and the message in a reply; the message may be left out. -/
def CodedFault.ofReply (reply : Document) : CodedFault :=
  { code := ((reply.get? "code").bind Value.toInt?).getD 0
    message := ((reply.get? "errmsg").bind Value.string?).getD "" }

/-- The failed write in a reply. -/
def WriteFault.ofReply? (reply : Document) : Option WriteFault :=
  let fault := CodedFault.ofReply reply
  match reply.get? "errInfo" with
  | some (.document info) =>
    (Value.unwrapDocument? info).map fun info => { fault, info := some info }
  | _ => some { fault }

namespace ServerFault

/-- The failed writes in a list of replies. -/
def writesOf? : List Value → Option (List WriteFault)
  | [] => some []
  | .document reply :: more =>
    match WriteFault.ofReply? reply, writesOf? more with
    | some fault, some faults => some (fault :: faults)
    | _, _ => none
  | _ :: _ => none

/-- The failure that the reply to several writes reports. -/
def insertManyOfReply? (reply : Document) : Option ServerFault :=
  let concern :=
    match reply.get? "writeConcernError" with
    | some (.document fault) => some (CodedFault.ofReply fault)
    | _ => none
  match reply.get? "writeErrors" with
  | some (.array items) => (writesOf? items).map fun writes => .insertMany (some writes) concern
  | _ => some (.insertMany none concern)

/-- A failure that only has a description, with no labels. -/
def described (description : String) : ServerFault :=
  .unclassified s!"Kind: {description}, labels: \x7b\x7d"

/-- The deployment knows no sessions. -/
def noSessions : ServerFault :=
  described "Attempted to start a session on a deployment that does not support sessions"

/-- There is no token to resume from. -/
def noResumeToken : ServerFault :=
  described "Cannot provide resume functionality when the resume token is missing"

/-- The client is no longer in use. -/
def shutDown : ServerFault :=
  described "Client has been shut down"

end ServerFault

end DocShell
