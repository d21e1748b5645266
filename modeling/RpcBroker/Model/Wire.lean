import RpcBroker.Model.Connections
import RpcBroker.Model.System
/-!
# RpcBroker.Model.Wire

**The system over connections.** In `Model.System` a packet that is delivered is the packet
that was sent. Here it travels over a connection of its own, and its receiver has what it
read there: the broker with `read_data`, a server with `ReadAndProcessDataOnSocket`, a
client that waits with `get_response`. Everything else is as in the system.

What arrives on a connection is left open; a receiver that calls `netError` ends, and that
is no step.
-/

namespace RpcBroker

open CLib Msgpack

/-- What happens next. -/
inductive WireAction
  | call (client : Details) (rand : Int32) (op : CString) (params : List Param) (ret : CType)
      (args : List Arg)
  | register (server : Details)
  | timeout (client : Details)
  /-- The packet at a position of the list reaches its endpoint over the connection. -/
  | deliver (i : Nat) (c : Connection)
  | lose (i : Nat)

/-- The action without the connection. -/
def WireAction.action : WireAction → Action
  | .call client rand op params ret args => .call client rand op params ret args
  | .register d => .register d
  | .timeout d => .timeout d
  | .deliver i _ => .deliver i
  | .lose i => .lose i

variable {C : ByteCodec} {S : Stulibc}

/-- Who reads what arrives at an endpoint, if anybody does. -/
def Net.receiver? {E : Libs} (w : World) (s : Net E) (d : Details) : Option Receiver :=
  if d = w.broker then some .readData
  else if (w.server d).isSome then some .readAndProcessDataOnSocket
  else if (s.waiting d).isSome then some .getResponse
  else none

/-- A packet reaches the endpoint it was sent to, as the bytes on a connection. -/
def receiveOver (w : World) (s : Net (.ofBytes C S)) (m : Flight (List UInt8)) (c : Connection) :
    Option (Net (.ofBytes C S)) :=
  match m.sent.dest.details?.bind (s.receiver? w) with
  | none => some s
  | some r =>
      match c.receive r with
      | .ok packet => receive w s { m with sent := { m.sent with packet := packet } }
      | .error _ => none

/-- One step. -/
def wireStep (w : World) (s : Net (.ofBytes C S)) : WireAction → Option (Net (.ofBytes C S))
  | .deliver i c => do
      let m ← s.flight[i]?
      receiveOver w { s with flight := s.flight.eraseIdx i } m c
  | x => step w s x.action

end RpcBroker
