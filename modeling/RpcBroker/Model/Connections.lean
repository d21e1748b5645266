import RpcBroker.Lib.Lock
import RpcBroker.Model.Broker
import RpcBroker.Model.Client
import RpcBroker.Model.Framing
import RpcBroker.Model.Server
import RpcBroker.Model.Waiting
/-!
# RpcBroker.Model.Connections

**The processes at work on their connections**: the broker, which handles one
connection after the other in `process_data_avail`, or, built with `USE_THREADING`, in
threads with a lock; the server, whose `main` starts a thread for each and goes on at
once; and a client, which takes the first connection for the answer to its call.

Here the libraries have byte strings for buffers (`Libs.ofBytes`). A received packet may
have bytes in its buffer that nobody stored; they are what the heap held there, and
each connection says what that is. Every `send` succeeds; `RpcBroker.Model.Checked` has the
processes that also end at a `send` that fails and at a packet read beyond what is defined.

All threads of the server share the static variable `isRegistered`. A thread looks at
it once, after it has decoded the request type. `main` starts a thread whenever the
listening socket is readable, so there may be more threads than connections; the others
wait in `accept`.
-/

namespace RpcBroker

open CLib Msgpack

/-! ### Connections -/

/-- A connection somebody makes to a process. -/
structure Connection where
  /-- When it makes the listening socket readable. -/
  arrival : Arrival
  /-- Does `accept` return a valid socket? -/
  accepted : Bool
  /-- The bytes that arrive on it, until it ends. -/
  stream : List UInt8
  /-- What `packet.len` held before. -/
  held : UInt32
  /-- What the memory of the buffer held before. -/
  heap : Nat → UInt8

/-- How a process ends. -/
inductive ProcessEnd
  | waiting (e : WaitEnd)
  | netError (text : CString)
  | exit (e : Exit)
  /-- It comes to something the source gives no meaning to. -/
  | undefined
  deriving DecidableEq

/-- `check_socket`. -/
def checkSocket (valid : Bool) : Except ProcessEnd Unit :=
  if valid then .ok () else .error (.netError (.lit "accept failed"))

/-- The bytes in the buffer of a received packet. -/
def Connection.bytes (c : Connection) (received : Received) : List UInt8 :=
  received.buffer.mapIdx fun i cell => cell.getD (c.heap i)

/-- `accept`, `check_socket` and the reads of a receiver: the packet. -/
def Connection.receive (c : Connection) (r : Receiver) : Except ProcessEnd (List UInt8) := do
  checkSocket c.accepted
  let received ← (r.receive c.held c.stream).mapError .netError
  return c.bytes received

/-! ### The broker -/

section Broker

variable (C : ByteCodec) (S : Stulibc)

/-- `process_data_avail`, called in the main thread, when what it sends gets through. -/
def processDataAvail (config : Config) (c : Connection) :
    Except ProcessEnd (Config × List (Sent (List UInt8))) := do
  let packet ← c.receive .readData
  (readData (Libs.ofBytes C S) config packet).mapError .exit

/-- One round of `wait_for_connections`. -/
def brokerBody (waitIndef : Bool) (listening_socket : Socket)
    (state : (FdSet × Timeval) × Config) (c : Connection) :
    Except ProcessEnd (((FdSet × Timeval) × Config) × List (Sent (List UInt8))) := do
  let (waited, isSet) ←
    (waitForConnectionsBody waitIndef listening_socket state.1 c.arrival).mapError .waiting
  if isSet then
    let (config, sents) ← processDataAvail C S state.2 c
    return ((waited, config), sents)
  else
    return ((waited, state.2), [])

/-- The broker, until these connections have been handled. -/
def brokerProcess (waitIndef : Bool) (listening_socket : Socket) (cs : List Connection) :
    Except ProcessEnd (((FdSet × Timeval) × Config) × List (List (Sent (List UInt8)))) :=
  Machine.run (brokerBody C S waitIndef listening_socket) ((fdZero, idleTimeout), .init) cs

/-- A state of the broker built with `USE_THREADING`: its threads with the lock of
`process_data_avail`, and the connections nobody has accepted. -/
abbrev BrokerPool := Lock.Pool Config Connection (List (Sent (List UInt8)))

/-- One step of its threads. A thread that has the lock accepts a connection; what
`read_data` does to the repositories is a look at them and a write. -/
def brokerThreads : BrokerPool → Lock.Event Connection → Option BrokerPool :=
  Lock.next (processDataAvail C S)

end Broker

/-! ### The server -/

section Server

variable (C : ByteCodec) (S : Stulibc) (program : ServerProgram) (broker : Details)

/-- What `unpack_marshal_call_send` sends for a packet. -/
def marshalCallSend (packet : List UInt8) : Except ProcessEnd (List (Sent (List UInt8))) :=
  match unpackMarshalCallSend (Libs.ofBytes C S) packet broker with
  | .error e => .error (.exit e)
  | .ok calls =>
      match calls.mapM (callMarshelResponseSend (Libs.ofBytes C S) program) with
      | none => .error .undefined
      | some sents => .ok sents.flatten

/-- `thread_server`: it receives the packet and decodes its request type, gets at
`isRegistered`, and makes the call if there is one to make. -/
def threadServer :
    Workers.Job Bool Connection (Int32 × List UInt8) (Option (List UInt8))
      (List (Sent (List UInt8))) ProcessEnd where
  prepare c := do
    let packet ← c.receive .readAndProcessDataOnSocket
    let request_type ← (getReqType (Libs.ofBytes C S) packet).mapError .exit
    return (request_type, packet)
  access isRegistered decoded :=
    if decoded.1 = RequestType.serviceRegistrationAck.code then (true, none)
    else if decoded.1 = RequestType.serviceRequest.code && isRegistered then
      (isRegistered, some decoded.2)
    else (isRegistered, none)
  finish
    | some packet => marshalCallSend C S program broker packet
    | none => .ok []

/-- A state of the server: its threads, and the connections nobody has accepted. -/
abbrev ServerPool :=
  Workers.Pool Bool Connection (Int32 × List UInt8) (Option (List UInt8))
    (List (Sent (List UInt8)))

/-- One connection from beginning to end. -/
def handleConnection (isRegistered : Bool) (c : Connection) :
    Except ProcessEnd (Bool × List (Sent (List UInt8))) := do
  let packet ← c.receive .readAndProcessDataOnSocket
  match readAndProcessDataOnSocket (Libs.ofBytes C S) program broker isRegistered packet with
  | .error e => .error (.exit e)
  | .ok none => .error .undefined
  | .ok (some result) => .ok result

end Server

/-! ### The client -/

section Client

variable (C : ByteCodec) (S : Stulibc)

/-- `waitForResponse`, if `c` is the first connection to the socket `s`. Were that not set
after `select`, what it returns would never have been assigned. -/
def waitForResponse (wait_response_indef : Bool) (s : Socket) (c : Connection) :
    Except ProcessEnd (List UInt8) := do
  let readfds := fdSet s fdZero
  let timeout : Timeval := ⟨60, 0⟩
  let selected :=
    if !wait_response_indef then select readfds (some timeout) s c.arrival
    else select readfds none s c.arrival
  let (_, isSet) ← (afterWait (.lit "timeout!") s timeout selected).mapError .waiting
  if isSet then c.receive .getResponse else .error .undefined

end Client

end RpcBroker
