import RpcBroker.Model.System
/-!
# RpcBroker.Model.StubCalls

**A stub's call, step by step.** In `Model.System` a call sends its request and waits, all
at once. In the code (`client/send_and_receive.c`) a thread is started that sends the
request, and the stub goes on to open the socket it waits at: the request may be sent, or
even answered, before anybody listens.

What a thread sends lies on the stack of the stub that started it, so it can send only
while the stub is still in its call. Afterwards it looks at `args->verbose` there once more,
in a step of its own (`StubAction.finish`); the stub may have returned by then. A packet to
a client that does not listen is lost.
-/

namespace RpcBroker

open CLib Msgpack

/-- A state of the system with the stubs' sockets and the threads. -/
structure StubNet (E : Libs) extends Net E where
  listening : Details → Bool
  /-- What threads have yet to send. -/
  threads : List (Flight E.Buffer)
  /-- The calls of the threads that have sent and not ended. -/
  sent : List (Option Nat)

variable {E : Libs}

def StubNet.init : StubNet E :=
  { Net.init with listening := fun _ => false, threads := [], sent := [] }

/-- What happens next. -/
inductive StubAction
  /-- The stub of `op` packs its request and starts the thread. -/
  | call (client : Details) (rand : Int32) (op : CString) (params : List Param) (ret : CType)
      (args : List Arg)
  /-- A thread sends. -/
  | send (j : Nat)
  /-- A thread that has sent looks at its arguments again and ends. -/
  | finish (j : Nat)
  /-- A stub opens its socket. -/
  | listen (client : Details)
  | register (server : Details)
  | timeout (client : Details)
  | deliver (i : Nat)
  | lose (i : Nat)

/-- The system has taken a step; a stub that has returned, or given up, has closed its
socket. -/
def StubNet.after (s : StubNet E) (t : Net E) : StubNet E :=
  { t with
    listening := fun d => s.listening d && (t.waiting d).isSome
    threads := s.threads
    sent := s.sent }

/-- Is there somebody at the endpoint of the packet, if it has one? -/
def StubNet.reaches (w : World) (s : StubNet E) (m : Flight E.Buffer) : Bool :=
  match m.sent.dest.details? with
  | none => true
  | some d => decide (d = w.broker) || (w.server d).isSome || s.listening d

/-- One step. -/
def stubStep (w : World) (s : StubNet E) : StubAction → Option (StubNet E)
  | .call client rand op params ret args =>
      if (client ≠ w.broker ∧ (w.server client).isNone) ∧ (s.waiting client).isNone ∧ 0 ≤ rand ∧
          args.map Arg.type = params.map Param.type then do
        let ts ← packClientRequestData client rand op (stubFormat params) args
        some { s with
          waiting := Function.update s.waiting client (some s.calls.length)
          calls := s.calls ++ [⟨client, rand, op, args, ret⟩]
          threads := s.threads ++ [⟨⟨E.pack ts, w.broker.location⟩, some s.calls.length⟩] }
      else none
  | .send j => do
      let m ← s.threads[j]?
      let call ← m.call.bind fun n => s.calls[n]?
      if s.waiting call.client = m.call then
        some { s with
          threads := s.threads.eraseIdx j
          sent := s.sent ++ [m.call]
          flight := s.flight ++ [m] }
      else none
  | .finish j =>
      if j < s.sent.length then some { s with sent := s.sent.eraseIdx j } else none
  | .listen client =>
      if (s.waiting client).isSome ∧ ¬ s.listening client then
        some { s with listening := Function.update s.listening client true }
      else none
  | .register d => (step w s.toNet (.register d)).map s.after
  | .timeout client =>
      if s.listening client then (step w s.toNet (.timeout client)).map s.after else none
  | .deliver i => do
      let m ← s.flight[i]?
      if s.reaches w m then (step w s.toNet (.deliver i)).map s.after
      else (step w s.toNet (.lose i)).map s.after
  | .lose i => (step w s.toNet (.lose i)).map s.after

end RpcBroker
