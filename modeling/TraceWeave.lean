import TraceWeave.CommandLine.Plan
import TraceWeave.Config.Folder
import TraceWeave.Failure
import TraceWeave.Listener.Call
import TraceWeave.Listener.Session
import TraceWeave.Main
import TraceWeave.Otlp.Receiver
import TraceWeave.Query.Execute
import TraceWeave.Trace.Draft
import TraceWeave.View.Format
import TraceWeave.Proofs.Grouping.Sound
import TraceWeave.Proofs.Grouping.Step
import TraceWeave.Proofs.Grouping.Invariant
import TraceWeave.Proofs.Grouping.Redelivery
import TraceWeave.Proofs.Grouping.Linking
import TraceWeave.Proofs.Json.Numerals
import TraceWeave.Proofs.Json.Strings
import TraceWeave.Proofs.Json.RoundTrip
import TraceWeave.Proofs.Number.Digits
import TraceWeave.Proofs.Number.Characters
import TraceWeave.Proofs.Number.Value
import TraceWeave.Proofs.Json.Doubles
import TraceWeave.Proofs.Grouping.Retention
import TraceWeave.Proofs.Otlp.Ingestion
import TraceWeave.Proofs.Otlp.Payload
import TraceWeave.Proofs.Otlp.Drafting
import TraceWeave.Proofs.Grouping.Connection
import TraceWeave.Proofs.Grouping.Journal
import TraceWeave.Proofs.Trace.Documents
import TraceWeave.Proofs.Grouping.Residence
import TraceWeave.Proofs.Grouping.Merging
import TraceWeave.Proofs.Grouping.Joining
import TraceWeave.Proofs.Grouping.Untouched
import TraceWeave.Proofs.Grouping.Departure
import TraceWeave.Proofs.Grouping.Caps
import TraceWeave.Proofs.Grouping.Holdings
import TraceWeave.Proofs.Grouping.Identified
import TraceWeave.Proofs.Grouping.Separation
import TraceWeave.Proofs.Query.Answer
import TraceWeave.Proofs.Query.Glob
import TraceWeave.Proofs.Query.Lookback
import TraceWeave.Proofs.Store.Accounting
import TraceWeave.Proofs.Query.Listing
import TraceWeave.Proofs.Query.Unknown
import TraceWeave.Proofs.Query.Shown
import TraceWeave.Proofs.Query.Grammar
import TraceWeave.Proofs.Query.Resolution
import TraceWeave.Proofs.Query.Latest
import TraceWeave.Proofs.View.Reordering
import TraceWeave.Proofs.View.Attributes
import TraceWeave.Proofs.Lists
import TraceWeave.Proofs.Duration
import TraceWeave.Proofs.Yaml.Places
import TraceWeave.Proofs.Yaml.Scalars
import TraceWeave.Proofs.Yaml.Blocks
import TraceWeave.Proofs.Yaml.Tokens
import TraceWeave.Proofs.Yaml.Printable
import TraceWeave.Proofs.Yaml.Sections
import TraceWeave.Proofs.Yaml.Plain
import TraceWeave.Proofs.Config.Reload
