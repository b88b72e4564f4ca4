import RemoteCall.Bytes
import RemoteCall.Client
import RemoteCall.Configuration
import RemoteCall.Connector.Address
import RemoteCall.Connector.Config
import RemoteCall.Connector.Lifecycle
import RemoteCall.Endpoint.Dispatch
import RemoteCall.Endpoint.Registry
import RemoteCall.Endpoint.Table
import RemoteCall.Example.Methods
import RemoteCall.Example.Probe
import RemoteCall.Example.Services
import RemoteCall.Frame.Body
import RemoteCall.Frame.Call
import RemoteCall.Frame.Codec
import RemoteCall.Frame.Flags
import RemoteCall.Frame.RemoteFailure
import RemoteCall.Frame.Return
import RemoteCall.Frame.Value
import RemoteCall.Hash.Xxh3
import RemoteCall.Packing.Lists
import RemoteCall.Packing.Octets
import RemoteCall.Packing.Parse
import RemoteCall.Packing.Radix
import RemoteCall.Packing.Words
import RemoteCall.Proofs.Client.Sessions
import RemoteCall.Proofs.Client.Transparency
import RemoteCall.Proofs.Connector.SetUp
import RemoteCall.Proofs.Endpoint.Classification
import RemoteCall.Proofs.Endpoint.Cookies
import RemoteCall.Proofs.Endpoint.Overloads
import RemoteCall.Proofs.Endpoint.Registration
import RemoteCall.Proofs.Example.Services
import RemoteCall.Proofs.Frame.Alike
import RemoteCall.Proofs.Frame.Body
import RemoteCall.Proofs.Frame.Flags
import RemoteCall.Proofs.Frame.Framing
import RemoteCall.Proofs.Frame.OneEnd
import RemoteCall.Proofs.Frame.RoundTrip
import RemoteCall.Proofs.Frame.Synchrony
import RemoteCall.Proofs.Frame.Updates
import RemoteCall.Proofs.Packing.Digits
import RemoteCall.Proofs.Packing.Lists
import RemoteCall.Proofs.Packing.Locality
import RemoteCall.Proofs.Packing.Reading
import RemoteCall.Proofs.Packing.Words
import RemoteCall.Proofs.Record.Acts
import RemoteCall.Proofs.Record.Closing
import RemoteCall.Proofs.Record.Fragments
import RemoteCall.Proofs.Record.Handshake
import RemoteCall.Proofs.Record.Inbound
import RemoteCall.Proofs.Record.Loops
import RemoteCall.Proofs.Record.Outbound
import RemoteCall.Proofs.Record.Progress
import RemoteCall.Proofs.Record.Reassembly
import RemoteCall.Proofs.Record.Transparency
import RemoteCall.Proofs.Service.Signatures
import RemoteCall.Proofs.Service.TypedCalls
import RemoteCall.Proofs.Session.Agreement
import RemoteCall.Proofs.Session.Buffering
import RemoteCall.Proofs.Session.Client
import RemoteCall.Proofs.Session.Conduct
import RemoteCall.Proofs.Session.Failures
import RemoteCall.Proofs.Session.Moves
import RemoteCall.Proofs.Session.Orderly
import RemoteCall.Proofs.Session.Server
import RemoteCall.Proofs.Session.Spelling
import RemoteCall.Proofs.Session.Stopping
import RemoteCall.Proofs.Session.Turns
import RemoteCall.Proofs.Steps
import RemoteCall.Proofs.Stream.Acceptance
import RemoteCall.Proofs.Stream.Buffering
import RemoteCall.Proofs.Stream.Clamping
import RemoteCall.Proofs.Stream.Delivery
import RemoteCall.Proofs.Stream.Draining
import RemoteCall.Proofs.Stream.Events
import RemoteCall.Proofs.Stream.Handovers
import RemoteCall.Proofs.Stream.Indexed
import RemoteCall.Proofs.Stream.Queue
import RemoteCall.Proofs.Stream.Refilling
import RemoteCall.Proofs.Stream.Traced
import RemoteCall.Proofs.Stream.Windowed
import RemoteCall.Record.Engine
import RemoteCall.Record.LengthRecords
import RemoteCall.Record.Pump
import RemoteCall.Record.Script
import RemoteCall.Service.CallError
import RemoteCall.Service.Method
import RemoteCall.Session.Client
import RemoteCall.Session.Script
import RemoteCall.Session.Server
import RemoteCall.Stream.Fault
import RemoteCall.Stream.Input
import RemoteCall.Stream.Output
import RemoteCall.Stream.Script
import RemoteCall.Stream.Sink
import RemoteCall.Stream.Socket
import RemoteCall.Stream.Source
import RemoteCall.Stream.Window
import RemoteCall.Text
import RemoteCall.Thread
import RemoteCall.Tls.Protocol
import RemoteCall.Tls.Settings
