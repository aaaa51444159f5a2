import TraceWeave.Failure
import TraceWeave.Listener.Call
import TraceWeave.Listener.Endpoint
import TraceWeave.Otlp.Receiver

/-!
# Sessions

A listener that is running, and what a client gets from it. A client may find that its calls do
not get through. A client that cannot have the traces carries on as if there were none.

* `store_sendAll_up`: requests that get through leave the store as if they had come in directly.
-/

namespace TraceWeave.Listener

/-- A listener that is running, with the lines that it has written. -/
structure Session where
  port : UInt16
  /-- Write a line for each span that comes in. -/
  echo : Bool
  store : Store
  lines : List String := []
deriving DecidableEq, Repr

/-- Whether calls get through. -/
inductive Link
  | up
  | cut
deriving DecidableEq, Repr

/-- A port that is taken cannot be listened on. Port zero stands for any that is free. -/
def claim (port : UInt16) (isTaken : UInt16 → Bool) : Except Failure Unit :=
  if port ≠ 0 ∧ isTaken port then .error (.bind (.loopback port.toNat) "address in use")
  else .ok ()

/-- Why a listener is not reached. -/
def unreachable (host : String) (port : UInt16) : Failure :=
  .network ("Cannot reach trace listener at " ++ endpoint host port.toNat ++ ": transport error")

namespace Session

/-- Takes in a request. -/
def receive (s : Session) (request : Otlp.ExportRequest) : Session :=
  let (store, reception) := Otlp.receive s.store s.echo request
  { s with store := store, lines := s.lines ++ reception.lines }

/-- Sends a request, and tells whether it was taken. -/
def send (link : Link) (s : Session) (request : Otlp.ExportRequest) : Session × Bool :=
  match link with
  | .up => (s.receive request, true)
  | .cut => (s, false)

/-- Sends requests one after another. -/
def sendAll (link : Link) (s : Session) : List Otlp.ExportRequest → Session × List Bool
  | [] => (s, [])
  | request :: rest =>
    let (s, taken) := s.send link request
    let (s, others) := s.sendAll link rest
    (s, taken :: others)

/-- Asks for a snapshot and reads what comes. -/
def fetch (link : Link) (host : String) (s : Session) :
    Session × Except Failure (List TraceGroup) :=
  match link with
  | .cut => (s, .error (unreachable host s.port))
  | .up =>
    let (store, groups) := s.store.snapshot
    let read := match Snapshot.ofPayload? (Snapshot.payload groups) with
      | some groups => .ok groups
      | none => .error .malformed
    ({ s with store := store }, read)

end Session

/-- The traces that a client goes on with. -/
def orNone : Except Failure (List TraceGroup) → List TraceGroup
  | .ok traces => traces
  | .error _ => []

namespace Session

theorem store_sendAll_up (s : Session) (requests : List Otlp.ExportRequest) :
    (s.sendAll .up requests).1.store = (Otlp.receiveAll s.store s.echo requests).1 := by
  induction requests generalizing s with
  | nil => rfl
  | cons request rest ih => simp [sendAll, send, receive, Otlp.receiveAll, ih]

end Session

end TraceWeave.Listener
