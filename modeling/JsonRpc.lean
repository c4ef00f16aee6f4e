import JsonRpc.Client.Run
import JsonRpc.Client.Scenario
import JsonRpc.Failure
import JsonRpc.Link.Basic
import JsonRpc.Link.Scenario
import JsonRpc.Main
import JsonRpc.Program
import JsonRpc.Server.Listener
import JsonRpc.Server.Methods.Probe
import JsonRpc.Server.Scenario
import JsonRpc.Transport.Address
import JsonRpc.Transport.ConnectionId
import JsonRpc.Transport.Stream
import JsonRpc.Transport.WebSocket.Pipe
import JsonRpc.Transport.WebSocket.Upgrade
import JsonRpc.Proofs.Client.Move
import JsonRpc.Proofs.Client.Custody
import JsonRpc.Proofs.Client.Ledger
import JsonRpc.Proofs.Client.Writing
import JsonRpc.Proofs.Client.Numbering
import JsonRpc.Proofs.Client.Resolution
import JsonRpc.Proofs.Client.Inbound
import JsonRpc.Proofs.Client.Correlation
import JsonRpc.Proofs.Client.Handover
import JsonRpc.Proofs.Server.Move
import JsonRpc.Proofs.Server.Ending
import JsonRpc.Proofs.Server.Answering
import JsonRpc.Proofs.Server.Answers
import JsonRpc.Proofs.Text.Numeral
import JsonRpc.Proofs.Keyed
import JsonRpc.Proofs.Envelope.ReadBack
import JsonRpc.Proofs.Server.Registry
import JsonRpc.Proofs.Server.Handling
import JsonRpc.Proofs.Client.Outbound
import JsonRpc.Proofs.Link.Move
import JsonRpc.Proofs.Link.Composition
import JsonRpc.Proofs.Link.CrossTalk
import JsonRpc.Proofs.Text.Utf8
import JsonRpc.Proofs.Transport.Source
import JsonRpc.Proofs.Transport.Sink
import JsonRpc.Proofs.Transport.Writing
import JsonRpc.Proofs.Transport.HeaderLine
import JsonRpc.Proofs.Transport.HeaderBlock
import JsonRpc.Proofs.Transport.Reading
import JsonRpc.Proofs.Transport.RoundTrip
import JsonRpc.Proofs.Transport.Progress
import JsonRpc.Proofs.Server.Slots
import JsonRpc.Proofs.Server.Cancellation
import JsonRpc.Proofs.Client.Closing
import JsonRpc.Proofs.Client.Lending
import JsonRpc.Proofs.Client.Telling
import JsonRpc.Proofs.Client.Queueing
import JsonRpc.Proofs.Client.Sending
import JsonRpc.Proofs.Json.Scanning
import JsonRpc.Proofs.Json.ReadBack
import JsonRpc.Proofs.Envelope.RoundTrip
import JsonRpc.Proofs.Link.Acceptance
import JsonRpc.Proofs.Transport.Agreement
import JsonRpc.Proofs.Client.Joining
import JsonRpc.Proofs.Client.Shutdown
import JsonRpc.Proofs.Envelope.ForeignMembers
import JsonRpc.Proofs.Transport.HeadersRead
import JsonRpc.Proofs.Transport.Relay
import JsonRpc.Proofs.Client.WindingUp
import JsonRpc.Proofs.Client.Driving
import JsonRpc.Proofs.Client.Hearing
import JsonRpc.Proofs.Server.Reuse
import JsonRpc.Proofs.Transport.Grammar
import JsonRpc.Proofs.Transport.Operation
import JsonRpc.Proofs.Transport.Chunking
import JsonRpc.Proofs.Transport.Cursor
import JsonRpc.Proofs.Transport.Unreading
import JsonRpc.Proofs.Transport.Resumption
import JsonRpc.Proofs.Transport.SelfFraming
import JsonRpc.Proofs.Envelope.WellFormed
import JsonRpc.Proofs.Envelope.OneOutcome
import JsonRpc.Proofs.Client.Batching
import JsonRpc.Proofs.Text.Case
import JsonRpc.Proofs.Transport.CaselessHeaders
import JsonRpc.Proofs.Client.WireId
import JsonRpc.Proofs.Client.Naming
import JsonRpc.Proofs.Envelope.Identifier
import JsonRpc.Proofs.Transport.WebSocket.Messages
import JsonRpc.Proofs.Text.Word
import JsonRpc.Proofs.Client.Labelling
import JsonRpc.Proofs.Client.Endurance
