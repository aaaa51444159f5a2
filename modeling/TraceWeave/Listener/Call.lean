import TraceWeave.Listener.Frame
import TraceWeave.Store
import TraceWeave.Text.Utf8
import TraceWeave.Trace.Document

/-!
# Calls

A listener answers one kind of call: for a snapshot of its store. What the caller sends along is
passed over, but has to be a message.
-/

namespace TraceWeave.Listener

/-- How a call ended. -/
inductive Status
  | ok
  | outOfRange
  | unimplemented
  | internal
deriving DecidableEq, Repr

/-- The number that is sent for it. -/
def Status.code : Status → Nat
  | .ok => 0
  | .outOfRange => 11
  | .unimplemented => 12
  | .internal => 13

/-- How a call ends that holds no message. -/
def Frame.Fault.status : Frame.Fault → Status
  | .tooLong => .outOfRange
  | .packed | .cutShort | .announced | .missing => .internal

/-- The answer to a call. -/
structure Reply where
  status : Status
  /-- The text that is sent, if the call ended well. -/
  payload : Option String := none
deriving DecidableEq, Repr

/-- What stands before the payload. -/
def Reply.header (reply : Reply) : List UInt8 :=
  match reply.payload with
  | some text => Frame.header (Text.byteLength text.toList)
  | none => []

/-- The name under which a snapshot is asked for. -/
def snapshotMethod : String :=
  "/spanlink.TraceQuery/GetTraces"

/-- What stands behind the colon and the two slashes that follow a scheme, if there is one. -/
def afterScheme? : List Char → Option (List Char)
  | [] => none
  | '/' :: _ => none
  | ':' :: '/' :: '/' :: rest => some rest
  | _ :: rest => afterScheme? rest

/-- The method that an address names. It begins at the first slash, behind the host if there is
one, and ends at a question mark or a number sign. -/
def methodOf (path : String) : String :=
  let isEnd (c : Char) : Bool := c == '?' || c == '#'
  let method := match afterScheme? path.toList with
    | none => path.toList
    | some rest => rest.dropWhile fun c => c != '/' && !isEnd c
  String.ofList (method.takeWhile (!isEnd ·))

/-- Answers a call. -/
def answer (store : Store) (path : String) (body : List UInt8) : Store × Reply :=
  if methodOf path = snapshotMethod then
    match Frame.message body with
    | .ok _ =>
      let (store, groups) := store.snapshot
      (store, { status := .ok, payload := some (Snapshot.payload groups) })
    | .error fault => (store, { status := fault.status })
  else (store, { status := .unimplemented })

end TraceWeave.Listener
