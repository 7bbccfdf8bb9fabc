import Switchboard.Command.Serve
import Switchboard.Main
import Switchboard.Session.Run
import Switchboard.Stream.Source
import Switchboard.Stream.Splitter
import Switchboard.Proofs.Wire.Answers
import Switchboard.Proofs.Json.ReadBack
import Switchboard.Proofs.Routing.Reach
import Switchboard.Proofs.Wire.RoundTrip
import Switchboard.Proofs.Wire.Reserved
import Switchboard.Proofs.Service.Units
import Switchboard.Proofs.Service.Reading
import Switchboard.Proofs.Service.Dispatch
import Switchboard.Proofs.Routing.Calls
import Switchboard.Proofs.Routing.History
import Switchboard.Proofs.Stream.Reads
import Switchboard.Proofs.Stream.Segments
import Switchboard.Proofs.Routing.Balance
import Switchboard.Proofs.Session.Trace
import Switchboard.Proofs.Session.Headway
import Switchboard.Proofs.Session.Course
import Switchboard.Proofs.Stream.Writes
import Switchboard.Proofs.Session.Places
import Switchboard.Proofs.Session.Pool
import Switchboard.Proofs.Session.Leaving
import Switchboard.Proofs.Service.Accepted
import Switchboard.Proofs.Session.Forgery
import Switchboard.Proofs.Session.Failing
import Switchboard.Proofs.Service.Pipelines
import Switchboard.Proofs.Service.Overlap
import Switchboard.Proofs.Service.Stopping
import Switchboard.Proofs.Service.Rebinding
import Switchboard.Proofs.Service.Listening
import Switchboard.Proofs.Service.Repeats
import Switchboard.Proofs.Service.Starting
import Switchboard.Proofs.Service.Moves
import Switchboard.Proofs.Service.Signals
import Switchboard.Proofs.Service.Parting
import Switchboard.Proofs.Routing.Registry
import Switchboard.Proofs.Routing.Targets
import Switchboard.Proofs.Session.Routed
import Switchboard.Proofs.Service.Elsewhere
import Switchboard.Proofs.Service.Datagrams
import Switchboard.Proofs.Session.Performs
import Switchboard.Proofs.Command.Typed
import Switchboard.Proofs.Service.Undisturbed
import Switchboard.Proofs.Session.Echoing
import Switchboard.Proofs.Service.Open
import Switchboard.Proofs.Service.Echoes
import Switchboard.Proofs.Service.Talk
import Switchboard.Proofs.Service.Posts
import Switchboard.Proofs.Command.Echoed
import Switchboard.Proofs.Service.Heartbeats
import Switchboard.Proofs.Service.Admission
import Switchboard.Proofs.Wire.Canonical
import Switchboard.Proofs.Link.Binding
import Switchboard.Proofs.Link.Ownership
import Switchboard.Proofs.Link.Takeover
import Switchboard.Proofs.Stream.Stalls
import Switchboard.Proofs.Command.Durations
import Switchboard.Proofs.Json.Compact
import Switchboard.Proofs.Command.Entries
