import Mathlib.Algebra.Order.Group.Multiset
import RpcBroker.Model.System
/-!
# RpcBroker.Spec.Parties

The **abstract system**: what each party knows, and the packets under way in no order.

Where the packets are a list of which one is picked by its position, here an `Act` names
the packet itself, and everything an act does is one `Effect`: what one party writes down,
which packets are taken and sent, which calls are made and which return. An act looks at
no more than what the parties at its places know.
-/

namespace RpcBroker

open CLib Msgpack

/-! ### States and acts -/

/-- What the parties know, with the packets under way and the returns in no order. -/
structure Parties (E : Libs) where
  config : Config
  registered : Details → Bool
  waiting : Details → Option Nat
  calls : List ClientCall
  flight : Multiset (Flight E.Buffer)
  returned : Multiset Return

/-- An action, with the packet it is about. -/
inductive Act (Buffer : Type)
  | call (client : Details) (rand : Int32) (op : CString) (params : List Param) (ret : CType)
      (args : List Arg)
  | register (server : Details)
  | timeout (client : Details)
  | deliver (m : Flight Buffer)
  | lose (m : Flight Buffer)

/-- Where things happen: at an endpoint, or where the calls are numbered. Nobody listens
at an address that is no string. -/
inductive Place
  | endpoint (d : Details)
  | numbering
  | nowhere
  deriving DecidableEq

def Flight.place {Buffer : Type} (m : Flight Buffer) : Place :=
  match m.sent.dest.details? with
  | some d => .endpoint d
  | none => .nowhere

/-- Where an act happens. -/
def Act.places {Buffer : Type} : Act Buffer → List Place
  | .call client _ _ _ _ _ => [.endpoint client, .numbering]
  | .register d => [.endpoint d]
  | .timeout d => [.endpoint d]
  | .deliver m => [m.place]
  | .lose m => [m.place]

def Act.isAt {Buffer : Type} (p : Place) (a : Act Buffer) : Bool := decide (p ∈ a.places)

variable {E : Libs}

/-- The order of the packets and of the returns forgotten. -/
def Net.parties (s : Net E) : Parties E :=
  ⟨s.config, s.registered, s.waiting, s.calls, s.flight, s.returned⟩

/-- The act an action is. -/
def Net.act? (s : Net E) : Action → Option (Act E.Buffer)
  | .call client rand op params ret args => some (.call client rand op params ret args)
  | .register d => some (.register d)
  | .timeout d => some (.timeout d)
  | .deliver i => s.flight[i]?.map .deliver
  | .lose i => s.flight[i]?.map .lose

/-- The acts of a schedule. -/
def actsOf (w : World) : Net E → List Action → List (Act E.Buffer)
  | _, [] => []
  | s, a :: actions =>
      match step w s a with
      | some t => (s.act? a).toList ++ actsOf w t actions
      | none => []

/-! ### Effects -/

/-- What a party writes down. -/
inductive Write
  | nothing
  | config (c : Config)
  | registered (d : Details) (isRegistered : Bool)
  | waiting (d : Details) (call : Option Nat)

/-- What an act does. -/
structure Effect (E : Libs) where
  write : Write := .nothing
  calls : List ClientCall := []
  takes : Multiset (Flight E.Buffer) := 0
  sends : Multiset (Flight E.Buffer) := 0
  returns : Multiset Return := 0

/-- The packets sent while a packet is handled. -/
def Flight.answeredBy (m : Flight E.Buffer) (sents : List (Sent E.Buffer)) :
    Multiset (Flight E.Buffer) := (sents.map fun sent => ⟨sent, m.call⟩ : List (Flight E.Buffer))

/-- What the broker does with a packet. -/
def Parties.brokerHandles (p : Parties E) (m : Flight E.Buffer) : Option (Effect E) :=
  match readData E p.config m.sent.packet with
  | .ok (config, sents) =>
      some { write := .config config, takes := {m}, sends := m.answeredBy sents }
  | .error _ => none

/-- What a server does with a packet. -/
def Parties.serverHandles (w : World) (d : Details) (node : ServerNode) (p : Parties E)
    (m : Flight E.Buffer) : Option (Effect E) :=
  match readAndProcessDataOnSocket E node.program w.broker (p.registered d) m.sent.packet with
  | .ok (some (isRegistered, sents)) =>
      some { write := .registered d isRegistered, takes := {m}, sends := m.answeredBy sents }
  | _ => none

/-- What a client does with a packet. -/
def Parties.clientHandles (d : Details) (p : Parties E) (m : Flight E.Buffer) :
    Option (Effect E) :=
  match p.waiting d with
  | none => some { takes := {m} }
  | some n => do
      let call ← p.calls[n]?
      match stubReturn E call.ret m.sent.packet with
      | .ok value =>
          some { write := .waiting d none, takes := {m}, returns := {⟨n, m.call, value⟩} }
      | .error _ => none

/-- What the party a packet was sent to does with it. -/
def Parties.handles (w : World) (p : Parties E) (m : Flight E.Buffer) : Option (Effect E) :=
  match m.sent.dest.details? with
  | none => some { takes := {m} }
  | some d =>
      if d = w.broker then p.brokerHandles m
      else
        match w.server d with
        | some node => p.serverHandles w d node m
        | none => p.clientHandles d m

/-- What an act does, if it is possible. -/
def Parties.effect (w : World) (p : Parties E) : Act E.Buffer → Option (Effect E)
  | .call client rand op params ret args =>
      if (client ≠ w.broker ∧ (w.server client).isNone) ∧ (p.waiting client).isNone ∧ 0 ≤ rand ∧
          args.map Arg.type = params.map Param.type then do
        let ts ← packClientRequestData client rand op (stubFormat params) args
        some { write := .waiting client (some p.calls.length)
               calls := [⟨client, rand, op, args, ret⟩]
               sends := {⟨⟨E.pack ts, w.broker.location⟩, some p.calls.length⟩} }
      else none
  | .register d => do
      let node ← w.server d
      let ts ← serviceRegisterWithBroker E d node.services
      some { sends := {⟨⟨E.pack ts, w.broker.location⟩, none⟩} }
  | .timeout d => if (p.waiting d).isSome then some { write := .waiting d none } else none
  | .deliver m => p.handles w m
  | .lose m => some { takes := {m} }

/-! ### Steps -/

def Write.apply : Write → Parties E → Parties E
  | .nothing, p => p
  | .config c, p => { p with config := c }
  | .registered d isRegistered, p =>
      { p with registered := Function.update p.registered d isRegistered }
  | .waiting d call, p => { p with waiting := Function.update p.waiting d call }

/-- The state after an act that left these packets alone. -/
def Effect.apply (e : Effect E) (p : Parties E) (rest : Multiset (Flight E.Buffer)) :
    Parties E :=
  e.write.apply { p with
    calls := p.calls ++ e.calls
    flight := rest + e.sends
    returned := p.returned + e.returns }

/-- A step of the abstract system. -/
def Parties.Move (w : World) (p : Parties E) (a : Act E.Buffer) (q : Parties E) : Prop :=
  ∃ e rest, p.effect w a = some e ∧ p.flight = e.takes + rest ∧ q = e.apply p rest

end RpcBroker
