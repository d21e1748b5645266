import RpcBroker.Model.Broker
import RpcBroker.Model.Server
/-!
# RpcBroker.Model.System

The **whole system**: a broker, servers and clients that exchange packets.

A party is known by its endpoint, the address and port it listens on. The
packets under way are a list of which any one may be delivered next, so
packets overtake each other freely, and any one may be lost. A client's stub
sends its request and waits; it takes the first packet that comes to its
endpoint for the response (`client/send_and_receive.c`), or gives up and exits,
and then another client may start at its endpoint.

Two things are recorded that no program looks at. The calls the clients made
are numbered (`Net.calls`), and a packet under way carries the number of the call
it belongs to: a request that of its call, whatever is sent while a packet is
handled the number of that packet.

The delivery of a packet that makes its receiver exit is not a step.
-/

namespace RpcBroker

open CLib Msgpack

/-! ### Parties -/

/-- A server program with the table of services it registers, names of
functions. -/
structure ServerNode where
  program : ServerProgram
  services : List CString
  named : ∀ s ∈ services, s ≠ .empty

/-- Who listens where: the broker, the servers, and clients at all other
endpoints. -/
structure World where
  broker : Details
  server : Details → Option ServerNode
  apart : server broker = none

/-- Is there a client at this endpoint? -/
def World.IsClient (w : World) (d : Details) : Prop := d ≠ w.broker ∧ w.server d = none

/-- The endpoint a location names, if both its pointers point at strings. -/
def Location.details? (l : Location) : Option Details :=
  match l.address, l.port with
  | .str address, .str port => some ⟨address, port⟩
  | _, _ => none

/-! ### States -/

/-- A call a client's stub has made. -/
structure ClientCall where
  client : Details
  message_id : Int32
  op : CString
  args : List Arg
  ret : CType

/-- A packet under way, with the number of the call it belongs to. -/
structure Flight (Buffer : Type) where
  sent : Sent Buffer
  call : Option Nat

/-- A stub has returned: its call, the call the packet it took belongs to, and the
value it returned. -/
structure Return where
  call : Nat
  taken : Option Nat
  value : StubResult

/-- A state of the system. `waiting` is the call a client waits for. -/
structure Net (E : Libs) where
  config : Config
  registered : Details → Bool
  waiting : Details → Option Nat
  calls : List ClientCall
  flight : List (Flight E.Buffer)
  returned : List Return

variable {E : Libs}

/-- Nobody has sent anything. -/
def Net.init : Net E := ⟨.init, fun _ => false, fun _ => none, [], [], []⟩

/-! ### Steps -/

/-- What happens next. -/
inductive Action
  /-- The stub of `op` is called at a client, and `rand()` gives `rand`. -/
  | call (client : Details) (rand : Int32) (op : CString) (params : List Param) (ret : CType)
      (args : List Arg)
  /-- A server registers. -/
  | register (server : Details)
  /-- A client has waited long enough. -/
  | timeout (client : Details)
  /-- The packet at a position of the list reaches its endpoint. -/
  | deliver (i : Nat)
  /-- It is lost. -/
  | lose (i : Nat)

/-- Put packets under way that belong to `call`. -/
def Net.send (s : Net E) (call : Option Nat) (sents : List (Sent E.Buffer)) : Net E :=
  { s with flight := s.flight ++ sents.map fun sent => ⟨sent, call⟩ }

/-- The broker handles a packet. -/
def brokerReceives (s : Net E) (m : Flight E.Buffer) : Option (Net E) :=
  match readData E s.config m.sent.packet with
  | .ok (config, sents) => some (Net.send { s with config := config } m.call sents)
  | .error _ => none

/-- A server handles a packet. -/
def serverReceives (w : World) (d : Details) (node : ServerNode) (s : Net E)
    (m : Flight E.Buffer) : Option (Net E) :=
  match readAndProcessDataOnSocket E node.program w.broker (s.registered d) m.sent.packet with
  | .ok (some (isRegistered, sents)) =>
      some (Net.send { s with registered := Function.update s.registered d isRegistered }
        m.call sents)
  | _ => none

/-- A client that waits takes the packet and returns; at one that does not, nobody
listens. -/
def clientReceives (d : Details) (s : Net E) (m : Flight E.Buffer) : Option (Net E) :=
  match s.waiting d with
  | none => some s
  | some n => do
      let call ← s.calls[n]?
      match stubReturn E call.ret m.sent.packet with
      | .ok value =>
          some { s with
            waiting := Function.update s.waiting d none
            returned := s.returned ++ [⟨n, m.call, value⟩] }
      | .error _ => none

/-- A packet reaches the endpoint it was sent to. -/
def receive (w : World) (s : Net E) (m : Flight E.Buffer) : Option (Net E) :=
  match m.sent.dest.details? with
  | none => some s
  | some d =>
      if d = w.broker then brokerReceives s m
      else
        match w.server d with
        | some node => serverReceives w d node s m
        | none => clientReceives d s m

/-- One step of the system, if the action is possible. -/
def step (w : World) (s : Net E) : Action → Option (Net E)
  | .call client rand op params ret args =>
      if (client ≠ w.broker ∧ (w.server client).isNone) ∧ (s.waiting client).isNone ∧ 0 ≤ rand ∧
          args.map Arg.type = params.map Param.type then do
        let ts ← packClientRequestData client rand op (stubFormat params) args
        some (Net.send { s with
          waiting := Function.update s.waiting client (some s.calls.length)
          calls := s.calls ++ [⟨client, rand, op, args, ret⟩] } (some s.calls.length)
            [⟨E.pack ts, w.broker.location⟩])
      else none
  | .register d => do
      let node ← w.server d
      let ts ← serviceRegisterWithBroker E d node.services
      some (s.send none [⟨E.pack ts, w.broker.location⟩])
  | .timeout client =>
      if (s.waiting client).isSome then
        some { s with waiting := Function.update s.waiting client none }
      else none
  | .deliver i => do
      let m ← s.flight[i]?
      receive w { s with flight := s.flight.eraseIdx i } m
  | .lose i =>
      if i < s.flight.length then some { s with flight := s.flight.eraseIdx i } else none

end RpcBroker
