import RpcBroker.Lib.CValue
import RpcBroker.Lib.Msgpack
import RpcBroker.Lib.Machine
import RpcBroker.Lib.Matching
import RpcBroker.Model.Protocol
import RpcBroker.Model.Common
import RpcBroker.Model.Client
import RpcBroker.Model.Server
import RpcBroker.Model.Broker
import RpcBroker.Model.System
import RpcBroker.Spec.History
import RpcBroker.Proofs.Headers
import RpcBroker.Proofs.Messages
import RpcBroker.Proofs.Decoders
import RpcBroker.Proofs.OwnMessages
import RpcBroker.Proofs.RoundTrip
import RpcBroker.Proofs.Handler
import RpcBroker.Proofs.Pending
import RpcBroker.Proofs.Routing
import RpcBroker.Proofs.Isolation
import RpcBroker.Proofs.Registration
import RpcBroker.Proofs.Registering
import RpcBroker.Proofs.Registry
import RpcBroker.Proofs.Agreement
import RpcBroker.Proofs.Readings
import RpcBroker.Proofs.Outstanding
import RpcBroker.Proofs.Replies
import RpcBroker.Proofs.Unroutable
import RpcBroker.Proofs.Unmatched
import RpcBroker.Proofs.Exits
import RpcBroker.Proofs.Execution
import RpcBroker.Proofs.MessageIds
import RpcBroker.Proofs.Serving
import RpcBroker.Lib.BigEndian
import RpcBroker.Model.Framing
import RpcBroker.Proofs.Framing
import RpcBroker.Lib.Reader
import RpcBroker.Lib.MsgpackBytes
import RpcBroker.Proofs.Damaged
import RpcBroker.Lib.Sql
import RpcBroker.Lib.SqlText
import RpcBroker.Model.Database
import RpcBroker.Proofs.Database
import RpcBroker.Lib.Varied
import RpcBroker.Proofs.Lookup
import RpcBroker.Proofs.Allocation
import RpcBroker.Proofs.Disturbed
import RpcBroker.Proofs.Origins
import RpcBroker.Lib.Select
import RpcBroker.Model.Waiting
import RpcBroker.Proofs.Waiting
import RpcBroker.Lib.Perl
import RpcBroker.Model.Generators
import RpcBroker.Proofs.Generators
import RpcBroker.Lib.CBlock
import RpcBroker.Model.ServerBlock
import RpcBroker.Proofs.BlockRun
import RpcBroker.Proofs.BlockText
import RpcBroker.Proofs.Capture
import RpcBroker.Lib.Memory
import RpcBroker.Model.Buffers
import RpcBroker.Proofs.Buffers
import RpcBroker.Lib.Schedule
import RpcBroker.Proofs.Handling
import RpcBroker.Proofs.Traffic
import RpcBroker.Proofs.Deliveries
import RpcBroker.Proofs.Interleavings
import RpcBroker.Model.Interface
import RpcBroker.Proofs.RemoteCalls
import RpcBroker.Proofs.Completion
import RpcBroker.Model.Proxies
import RpcBroker.Proofs.Proxies
import RpcBroker.Lib.Workers
import RpcBroker.Lib.Lock
import RpcBroker.Model.Connections
import RpcBroker.Proofs.Connections
import RpcBroker.Lib.CFunction
import RpcBroker.Model.ClientStub
import RpcBroker.Proofs.ClientStub
import RpcBroker.Lib.Run
import RpcBroker.Lib.Independence
import RpcBroker.Spec.Parties
import RpcBroker.Proofs.Orders
import RpcBroker.Lib.Overwrite
import RpcBroker.Model.Settings
import RpcBroker.Proofs.Settings
import RpcBroker.Model.StubCalls
import RpcBroker.Proofs.StubCalls
import RpcBroker.Lib.Printf
import RpcBroker.Model.Statements
import RpcBroker.Proofs.Statements
import RpcBroker.Model.Wire
import RpcBroker.Proofs.Wire
import RpcBroker.Proofs.Answers
import RpcBroker.Proofs.Survival
import RpcBroker.Proofs.Registrants
import RpcBroker.Proofs.Mirrors
import RpcBroker.Model.Checked
import RpcBroker.Proofs.Checked
import RpcBroker.Proofs.CheckedSteps
import RpcBroker.Proofs.Digestible
