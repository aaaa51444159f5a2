import TraceWeave.Text.Ascii
import TraceWeave.Trace.Span

/-!
# Attributes to show

Which attributes of a span a tree shows, and in which order. Each key is shown once, with its last
value. Unless all is asked for, one key is hidden, and spans of inbound and outbound proxies show
a summary only.

The attributes are collected key by key; a key that comes again overwrites its value. The leading
keys are then moved to the front, and the others stay in the order of their characters.
-/

namespace TraceWeave.View

/-- What the spans of proxies show. -/
def proxySummary : List String :=
  ["http.method", "http.target", "http.status_code", "url.scheme", "guid:x-request-id",
    "request_size", "response_size"]

/-- The keys shown first, in this order. -/
def leadingKeys : List String :=
  ["http.method", "http.target", "http.status_code", "guid:x-request-id", "request_size",
    "response_size", "routing.determination_ms", "route.selected_model", "selection.agents",
    "selection.agent_count", "agent.name", "agent.sequence", "duration_ms", "llm.model",
    "llm.is_streaming", "llm.time_to_first_token", "llm.duration_ms", "llm.response_bytes"]

/-- The key that is shown on request only. -/
def hiddenKey : String := "service.name.override"

/-- The service is a proxy, going by its name. -/
def isProxy (service : String) : Bool :=
  let name := Text.lower service.toList
  Text.occursIn "inbound".toList name || Text.occursIn "outbound".toList name

/-- The key is shown on spans of the service. -/
def visible (verbose : Bool) (service key : String) : Bool :=
  verbose || (key != hiddenKey && (!isProxy service || proxySummary.contains key))

/-- Sets the value of a key. The entries stand in the order of their keys, and an entry that the key
has already is overwritten. -/
def setEntry (key value : String) : List (String × String) → List (String × String)
  | [] => [(key, value)]
  | (k, v) :: rest =>
    if key < k then (key, value) :: (k, v) :: rest
    else if key = k then (key, value) :: rest
    else (k, v) :: setEntry key value rest

/-- The entries for those attributes whose keys are wanted, taken one after another. -/
def collect (wanted : String → Bool) (attributes : List Attribute) : List (String × String) :=
  attributes.foldl
    (fun entries a => if wanted a.key then setEntry a.key a.value.display entries else entries) []

/-- Moves the entry of a key behind those that have their place, if it is among those that are
left. -/
def moveEntry (entries : List (String × String) × List (String × String)) (key : String) :
    List (String × String) × List (String × String) :=
  let (placed, left) := entries
  match left.lookup key with
  | some value => (placed ++ [(key, value)], left.filter (·.1 != key))
  | none => (placed, left)

/-- The attributes to show, each key with its value: the leading keys, then what is left. -/
def shown (verbose : Bool) (s : Span) : List (String × String) :=
  let entries := collect (visible verbose s.service) s.attributes
  let (placed, left) := leadingKeys.foldl moveEntry ([], entries)
  placed ++ left

end TraceWeave.View
