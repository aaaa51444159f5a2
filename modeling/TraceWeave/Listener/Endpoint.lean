/-!
# Endpoints

The address that a client calls. The address of a host with colons goes into square brackets.
-/

namespace TraceWeave.Listener

/-- The address of a listener. -/
def endpoint (host : String) (port : Nat) : String :=
  "http://" ++ (if host.contains ':' then "[" ++ host ++ "]" else host) ++ ":" ++ toString port

end TraceWeave.Listener
