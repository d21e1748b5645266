import RpcBroker.Lib.Schedule
import RpcBroker.Model.Interface
import RpcBroker.Proofs.Deliveries
/-!
# RpcBroker.Proofs.RemoteCalls

**A remote call is a local call**: a stub that is called for a function some
registered server has returns what the function returns, but for negative numbers.

The four deliveries of one call come first, each as the packet it puts under way
(`asks`, `brokerReceives_forwards`, `serverReceives_answers`, `brokerReceives_answers`,
`clientReceives_returns`). `call_run` puts them together from any state in which the
operation is served, whatever else is under way, and `calls_return` runs the program:
the servers register, and then any clients make any calls, one after the other.
-/

namespace RpcBroker

open CLib Msgpack Machine

variable {E : Libs} {w : World} {s : Net E}

/-! ### One packet -/

/-- The packet sent last is delivered next. -/
theorem step_deliver_last (s : Net E) (call : Option Nat) (sent : Sent E.Buffer) :
    step w (s.send call [sent]) (.deliver s.flight.length) = receive w s ⟨sent, call⟩ := by
  have hm : (s.send call [sent]).flight[s.flight.length]? = some ⟨sent, call⟩ := by
    rw [Net.send_one]
    exact List.getElem?_concat_length
  have herase : (s.send call [sent]).flight.eraseIdx s.flight.length = s.flight := by
    rw [Net.send_one, List.eraseIdx_append_of_length_le (Nat.le_refl _), Nat.sub_self]
    exact List.append_nil _
  rw [step_deliver hm, herase]
  rfl

/-- The operation `op` is served at `d`: the broker sends its requests there, and the
server there has been acknowledged and has a function of that name. -/
structure Serves (w : World) (s : Net E) (op : CString) (d : Details) (node : ServerNode)
    (proto : Proto) : Prop where
  server : w.server d = some node
  registered : s.registered d = true
  routed : serverFor E (.str op) s.config.svc_repo = d.location
  listed : proto ∈ node.program.protos
  name : proto.name = op

variable {n : Nat} {call : ClientCall} {packet : E.Buffer} {d : Details} {node : ServerNode}
  {proto : Proto} {v : Arg}

/-- The same state with these requests recorded. -/
def Net.withRequests (s : Net E) (clnt_req_repo : List ClientReg) : Net E :=
  { s with config := { s.config with clnt_req_repo := clnt_req_repo } }

theorem brokerReceives_forwards (hid : 0 ≤ call.message_id)
    (hcarries : E.Carries packet (requestHeaders call.client call.message_id call.op call.args))
    (hrouted : serverFor E (.str call.op) s.config.svc_repo = d.location) :
    brokerReceives s ⟨⟨packet, w.broker.location⟩, some n⟩ =
      some ((s.withRequests (s.config.clnt_req_repo ++ [call.request.entry])).send (some n)
        [⟨packet, d.location⟩]) := by
  have hforwards : forwards E packet (.str call.op) s.config.svc_repo = [⟨packet, d.location⟩] := by
    rw [forwards, hrouted]
    exact if_neg (by simp [Details.location])
  rw [brokerReceives, readData_request hid hcarries, hforwards]
  rfl

/-- The blocks of other functions do nothing. -/
theorem mapM_stubBlock_others (program : ServerProgram) {made : Call} {op : CString}
    (hop : made.operation = .str op) {protos : List Proto} (hothers : op ∉ protos.map Proto.name) :
    ∃ blocks, protos.mapM (stubBlock E program made) = some blocks ∧ blocks.flatten = [] := by
  induction protos with
  | nil => exact ⟨[], rfl, rfl⟩
  | cons proto protos ih =>
      rw [List.map_cons, List.mem_cons, not_or] at hothers
      obtain ⟨blocks, hblocks, hnil⟩ := ih hothers.2
      exact ⟨[] :: blocks,
        mapM_cons_eq_some.mpr ⟨[], blocks, stubBlock_other hop hothers.1, hblocks, rfl⟩, hnil⟩

/-- Of all blocks, that of the function called sends its response. -/
theorem mapM_stubBlock_called {program : ServerProgram} (made : Call) {id : Int32} {as : List Arg}
    (hid : made.message_id = some id) (hop : made.operation = .str proto.name)
    (hread : readParams proto.params made.params = some as)
    (htype : (program.result proto.name as).type = proto.ret) {protos : List Proto}
    (hmem : proto ∈ protos) (hdistinct : (protos.map Proto.name).Nodup) :
    ∃ response blocks, protos.mapM (stubBlock E program made) = some blocks ∧
      blocks.flatten = [⟨response, made.broker.location⟩] ∧
      E.Carries response (responseHeaders proto.name id (program.result proto.name as)) := by
  induction protos with
  | nil => exact absurd hmem (by simp)
  | cons first protos ih =>
      rw [List.map_cons, List.nodup_cons] at hdistinct
      rcases List.mem_cons.mp hmem with rfl | hmem
      · obtain ⟨response, hresponse, hcarries⟩ :=
          stubBlock_called (E := E) hid hop hread htype
        obtain ⟨blocks, hblocks, hnil⟩ :=
          mapM_stubBlock_others (E := E) program hop hdistinct.1
        exact ⟨response, _ :: blocks,
          mapM_cons_eq_some.mpr ⟨_, blocks, hresponse, hblocks, rfl⟩, by simp [hnil], hcarries⟩
      · have hname : proto.name ≠ first.name := by
          intro heq
          exact hdistinct.1 (List.mem_map.mpr ⟨proto, hmem, heq⟩)
        obtain ⟨response, blocks, hblocks, hone, hcarries⟩ := ih hmem hdistinct.2
        exact ⟨response, [] :: blocks,
          mapM_cons_eq_some.mpr ⟨[], blocks, stubBlock_other hop hname, hblocks, rfl⟩, hone,
          hcarries⟩

/-- Arguments without negative integers are read back at their types. -/
theorem readParams_args {args : List Arg} (hargs : ∀ v, .int v ∈ args → 0 ≤ v) :
    readParams (args.map Arg.type) ((args.map Arg.object).map ParamPtr.ofObject) = some args := by
  induction args with
  | nil => rfl
  | cons a args ih =>
      have ha : (ParamPtr.ofObject a.object).read a.type = some a :=
        (read_ofObject_iff a).mpr fun v hv => hargs v (hv ▸ List.mem_cons_self ..)
      have hrest := ih fun v hv => hargs v (List.mem_cons_of_mem a hv)
      rw [List.map_cons, List.map_cons, List.map_cons, readParams, ha, hrest]
      rfl

/-- The server answers with what its function returns. -/
theorem serverReceives_answers (hserves : Serves w s call.op d node proto)
    (hid : 0 ≤ call.message_id)
    (hcarries : E.Carries packet (requestHeaders call.client call.message_id call.op call.args))
    (hargs : ∀ v, .int v ∈ call.args → 0 ≤ v) (hparams : proto.params = call.args.map Arg.type)
    (htype : (node.program.result call.op call.args).type = proto.ret) :
    ∃ response, serverReceives w d node s ⟨⟨packet, d.location⟩, some n⟩ =
        some (s.send (some n) [⟨response, w.broker.location⟩]) ∧
      E.Carries response (responseHeaders call.op call.message_id
        (node.program.result call.op call.args)) := by
  have hname := hserves.name
  have hread : readParams proto.params ((call.args.map Arg.object).map ParamPtr.ofObject) =
      some call.args := hparams ▸ readParams_args hargs
  obtain ⟨response, blocks, hblocks, hone, hresponse⟩ :=
    mapM_stubBlock_called (E := E)
      (callAt w.broker (some call.message_id) (.str call.op) (call.args.map Arg.object)) rfl
      (congrArg Ptr.str hname.symm) hread (hname ▸ htype) hserves.listed node.program.distinct
  have hsends : callMarshelResponseSend E node.program
      (callAt w.broker (some call.message_id) (.str call.op) (call.args.map Arg.object)) =
      some [⟨response, w.broker.location⟩] :=
    callMarshelResponseSend_eq_some.mpr ⟨blocks, hblocks, hone.symm⟩
  have hflag : Function.update s.registered d true = s.registered := by
    rw [← hserves.registered, Function.update_eq_self]
  refine ⟨response, ?_, hname ▸ hresponse⟩
  rw [serverReceives, hserves.registered, readAndProcess_registered hid hcarries, hsends]
  show some (Net.send { s with registered := Function.update s.registered d true } _ _) = _
  rw [hflag]

theorem brokerReceives_answers (hid : 0 ≤ call.message_id)
    (hcarries : E.Carries packet (responseHeaders call.op call.message_id v))
    (hclient : clientFor E call.message_id (.str call.op) s.config.clnt_req_repo =
      call.client.location) :
    brokerReceives s ⟨⟨packet, w.broker.location⟩, some n⟩ =
      some ((s.withRequests (s.config.clnt_req_repo.eraseP
        (answers E call.message_id (.str call.op)))).send (some n)
          [⟨packet, call.client.location⟩]) := by
  rw [brokerReceives, readData_response hid hcarries, hclient]
  rfl

theorem clientReceives_returns (hwaiting : s.waiting call.client = some n)
    (hcall : s.calls[n]? = some call) (htype : v.type = call.ret)
    (hcarries : E.Carries packet (responseHeaders call.op call.message_id v)) :
    clientReceives call.client s ⟨⟨packet, call.client.location⟩, some n⟩ =
      some { s with
        waiting := Function.update s.waiting call.client none
        returned := s.returned ++ [⟨n, some n, v.received⟩] } := by
  have hret : stubReturn E call.ret packet = .ok v.received := htype ▸ stubReturn_response hcarries
  simp only [clientReceives, hwaiting, hcall, hret, Option.bind_eq_bind, Option.bind_some]

/-! ### One call -/

/-- The call a stub makes at a client. -/
def StubCall.clientCall (call : StubCall) (client : Details) : ClientCall :=
  ⟨client, call.rand, .ofBytes call.proto.name.chars, call.args, call.proto.ret⟩

/-- A call that compiles, at an endpoint a client may have, with a number `rand()` may
give. -/
structure StubCall.Valid (w : World) (call : StubCall) (client : Details) : Prop where
  client : w.IsClient client
  rand : 0 ≤ call.rand
  types : call.args.map Arg.type = call.proto.params.map Prod.fst

/-- The state in which the call has been made and nothing sent yet. -/
def Net.asking (s : Net E) (call : ClientCall) : Net E :=
  { s with
    waiting := Function.update s.waiting call.client (some s.calls.length)
    calls := s.calls ++ [call] }

theorem step_action {call : StubCall} {client : Details} (hvalid : call.Valid w client)
    (hidle : s.waiting client = none) :
    ∃ packet, step w s (call.action client) =
        some ((s.asking (call.clientCall client)).send (some s.calls.length)
          [⟨packet, w.broker.location⟩]) ∧
      E.Carries packet (requestHeaders client call.rand (.ofBytes call.proto.name.chars)
        call.args) := by
  have htypes : call.args.map Arg.type = (call.proto.params.map declared).map Param.type := by
    rw [hvalid.types, List.map_map]
    rfl
  obtain ⟨ts, hts, hparse⟩ := packClientRequestData_parse client call.rand
    (.ofBytes call.proto.name.chars) (stubFormat_fits htypes)
  refine ⟨E.pack ts, ?_, carries_of_parse hparse⟩
  rw [StubCall.action, step, if_pos ⟨⟨hvalid.client.1, by simp [hvalid.client.2]⟩, by simp [hidle],
    hvalid.rand, htypes⟩, hts]
  rfl

/-- The state after a call has been answered: a request was recorded, and one taken out
again, and the stub has returned. -/
def Net.answered (s : Net E) (call : ClientCall) (value : StubResult) : Net E :=
  { s.withRequests ((s.config.clnt_req_repo ++ [call.request.entry]).eraseP
      (answers E call.message_id (.str call.op))) with
    calls := s.calls ++ [call]
    returned := s.returned ++ [⟨s.calls.length, some s.calls.length, value⟩] }

/-- The call of a stub, and the four deliveries it takes. -/
def StubCall.run (call : StubCall) (client : Details) (under : Nat) : List Action :=
  [call.action client, .deliver under, .deliver under, .deliver under, .deliver under]

/-- The first request pending under a key is the client's, if all are. -/
theorem clientFor_own {call : ClientCall} {repo : List ClientReg}
    (hown : ∀ entry ∈ repo, answers E call.message_id (.str call.op) entry = true →
      (⟨entry.address, entry.port⟩ : Location) = call.client.location) :
    clientFor E call.message_id (.str call.op) (repo ++ [call.request.entry]) =
      call.client.location := by
  rw [clientFor, List.find?_append]
  cases hfind : repo.find? (answers E call.message_id (.str call.op)) with
  | some entry => exact hown entry (List.mem_of_find?_eq_some hfind) (List.find?_some hfind)
  | none =>
      have hentry : answers E call.message_id (.str call.op) call.request.entry = true :=
        (answers_entry call.key call.request).trans (decide_eq_true rfl)
      rw [Option.none_or, List.find?_cons_of_pos hentry]
      rfl

/-- **One call**, from any state in which the operation is served and no other client's
request is pending under the message id and operation. -/
theorem call_run {call : StubCall} {client : Details} (hvalid : call.Valid w client)
    (hserves : Serves w s (.ofBytes call.proto.name.chars) d node call.proto.proto)
    (hargs : ∀ v, .int v ∈ call.args → 0 ≤ v)
    (htype : (node.program.result (.ofBytes call.proto.name.chars) call.args).type = call.proto.ret)
    (hidle : s.waiting client = none)
    (hown : ∀ entry ∈ s.config.clnt_req_repo,
      answers E call.rand (.str (.ofBytes call.proto.name.chars)) entry = true →
        (⟨entry.address, entry.port⟩ : Location) = client.location) :
    (call.run client s.flight.length).foldlM (step w) s = some (s.answered (call.clientCall client)
      (node.program.result (.ofBytes call.proto.name.chars) call.args).received) := by
  let made := call.clientCall client
  let asked := (s.asking made).withRequests (s.config.clnt_req_repo ++ [made.request.entry])
  let repo := asked.config.clnt_req_repo.eraseP (answers E made.message_id (.str made.op))
  -- The stub sends its request, and the broker sends it on.
  obtain ⟨request, hasks, hrequest⟩ := step_action (E := E) hvalid hidle
  have hforwards : step w ((s.asking made).send (some s.calls.length) [⟨request, w.broker.location⟩])
      (.deliver s.flight.length) = some (asked.send (some s.calls.length) [⟨request, d.location⟩]) :=
    (step_deliver_last (s.asking made) _ _).trans
      (receive_broker.trans (brokerReceives_forwards hvalid.rand hrequest hserves.routed))
  -- The server answers, and the broker finds the request the response is for.
  have hasked : Serves w asked made.op d node call.proto.proto := { hserves with }
  obtain ⟨response, hanswers, hresponse⟩ := serverReceives_answers (n := s.calls.length)
    hasked hvalid.rand hrequest hargs hvalid.types.symm htype
  have hserver : step w (asked.send (some s.calls.length) [⟨request, d.location⟩])
      (.deliver s.flight.length) =
      some (asked.send (some s.calls.length) [⟨response, w.broker.location⟩]) :=
    (step_deliver_last asked _ _).trans ((receive_server hserves.server).trans hanswers)
  have hfound : clientFor E made.message_id (.str made.op) asked.config.clnt_req_repo =
      made.client.location := clientFor_own hown
  have hbroker : step w (asked.send (some s.calls.length) [⟨response, w.broker.location⟩])
      (.deliver s.flight.length) =
      some ((asked.withRequests repo).send (some s.calls.length) [⟨response, client.location⟩]) :=
    (step_deliver_last asked _ _).trans (receive_broker.trans
      (brokerReceives_answers hvalid.rand hresponse hfound))
  -- The client has waited for nothing else.
  have hmade : (asked.withRequests repo).calls[s.calls.length]? = some made :=
    List.getElem?_concat_length
  have hclient : step w ((asked.withRequests repo).send (some s.calls.length)
      [⟨response, client.location⟩]) (.deliver s.flight.length) = some { asked.withRequests repo with
        waiting := Function.update asked.waiting client none
        returned := s.returned ++ [⟨s.calls.length, some s.calls.length,
          (node.program.result made.op call.args).received⟩] } :=
    (step_deliver_last (asked.withRequests repo) _ _).trans ((receive_client hvalid.client).trans
      (clientReceives_returns (Function.update_self ..) hmade htype hresponse))
  have hwaiting : Function.update asked.waiting client none = s.waiting := by
    show Function.update (Function.update s.waiting client _) client none = s.waiting
    rw [Function.update_idem, ← hidle, Function.update_eq_self]
  rw [hwaiting] at hclient
  exact schedule_cons.mpr ⟨_, hasks, schedule_cons.mpr ⟨_, hforwards, schedule_cons.mpr ⟨_, hserver,
    schedule_cons.mpr ⟨_, hbroker, schedule_cons.mpr ⟨_, hclient, rfl⟩⟩⟩⟩⟩

/-! ### Registered servers -/

/-- A server registers, and the two deliveries it takes. -/
def registerRun (d : Details) : List Action := [.register d, .deliver 0, .deliver 0]

/-- These servers, in this order, have registered; otherwise nothing is going on. -/
structure Stands (w : World) (s : Net E) (servers : List (Details × ServerNode)) : Prop where
  registered : ∀ r ∈ servers, w.server r.1 = some r.2 ∧ s.registered r.1 = true
  registry : List.Forall₂ (fun reg r => Advertises reg r.1 r.2.services) s.config.svc_repo servers
  pending : s.config.clnt_req_repo = []
  flight : s.flight = []
  idle : ∀ client, s.waiting client = none

theorem stands_init : Stands w (Net.init : Net E) [] where
  registered := by simp
  registry := .nil
  pending := rfl
  flight := rfl
  idle _ := rfl

/-- One more server registers. -/
theorem register_run {servers : List (Details × ServerNode)} (hs : Stands w s servers)
    (hd : w.server d = some node) (hlen : node.services.length < 0x80000000) :
    ∃ t : Net E, (registerRun d).foldlM (step w) s = some t ∧
      Stands w t (servers ++ [(d, node)]) ∧ t.calls = s.calls ∧ t.returned = s.returned := by
  let reg := (regHeaders E (registrationHeaders d node.services) .init).reg
  let added : Net E :=
    { s with config := { s.config with svc_repo := s.config.svc_repo ++ [reg] } }
  have hadv : Advertises reg d node.services := advertises_registration (E := E) d hlen
  have hnone : s.flight.length = 0 := by rw [hs.flight, List.length_nil]
  -- The server sends its registration, the broker adds and acknowledges it.
  obtain ⟨ts, hts, hparse⟩ := serviceRegisterWithBroker_parse (E := E) d node.named hlen
  obtain ⟨ack, hread, hack⟩ :=
    readData_ownRegistration s.config (carries_of_parse (E := E) hparse)
  have hregister : step w s (.register d) =
      some (s.send none [⟨E.pack ts, w.broker.location⟩]) := by
    simp only [step, hd, hts, Option.bind_eq_bind, Option.bind_some]
  have hbroker : step w (s.send none [⟨E.pack ts, w.broker.location⟩]) (.deliver 0) =
      some (added.send none [⟨ack, d.location⟩]) := by
    rw [← hnone, step_deliver_last, receive_broker, brokerReceives, hread]
  -- The acknowledgement makes the server answer requests from now on.
  have hserver : step w (added.send none [⟨ack, d.location⟩]) (.deliver 0) =
      some { added with registered := Function.update s.registered d true } := by
    rw [← hnone]
    refine (step_deliver_last added _ _).trans ((receive_server hd).trans ?_)
    rw [serverReceives, readAndProcess_ackHeaders hack]
    exact congrArg some (Net.send_nil ..)
  refine ⟨_, schedule_cons.mpr ⟨_, hregister, schedule_cons.mpr ⟨_, hbroker,
    schedule_cons.mpr ⟨_, hserver, rfl⟩⟩⟩, ⟨?_, ?_, hs.pending, hs.flight, hs.idle⟩, rfl, rfl⟩
  · intro r hr
    rcases List.mem_append.mp hr with hr | hr
    · obtain ⟨hserver, hregistered⟩ := hs.registered r hr
      refine ⟨hserver, ?_⟩
      show Function.update s.registered d true r.1 = true
      rw [Function.update_apply]
      split
      · rfl
      · exact hregistered
    · rw [List.mem_singleton.mp hr]
      exact ⟨hd, Function.update_self ..⟩
  · exact List.rel_append hs.registry (.cons hadv .nil)

/-- Servers register one after the other. -/
theorem servers_stand {servers : List (Details × ServerNode)}
    (hservers : ∀ r ∈ servers, w.server r.1 = some r.2 ∧ r.2.services.length < 0x80000000) :
    ∃ s : Net E, (servers.flatMap fun r => registerRun r.1).foldlM (step w) .init = some s ∧
      Stands w s servers ∧ s.calls = [] ∧ s.returned = [] := by
  have hphase : ∀ (s : Net E) (done : List (Details × ServerNode)) (r r' : Details × ServerNode),
      (Stands w s done ∧ s.calls = [] ∧ s.returned = []) →
      (r = r' ∧ w.server r.1 = some r.2 ∧ r.2.services.length < 0x80000000) →
      ∃ t : Net E, (registerRun r.1).foldlM (step w) s = some t ∧
        Stands w t (done ++ [r']) ∧ t.calls = [] ∧ t.returned = [] := by
    rintro s done r _ ⟨hs, hcalls, hreturned⟩ ⟨rfl, hd, hlen⟩
    obtain ⟨t, hrun, ht, htcalls, htreturned⟩ := register_run hs hd hlen
    exact ⟨t, hrun, ht, htcalls.trans hcalls, htreturned.trans hreturned⟩
  exact schedule_phases hphase ⟨stands_init, rfl, rfl⟩
    (List.forall₂_same.mpr fun r hr => ⟨rfl, hservers r hr⟩)

/-- The first of the servers to list an operation. -/
def Answering (servers : List (Details × ServerNode)) (op : CString) (d : Details)
    (node : ServerNode) : Prop :=
  ∃ before after, servers = before ++ (d, node) :: after ∧ op ∈ node.services ∧
    ∀ r ∈ before, op ∉ r.2.services

/-- The broker sends the requests for an operation to the first server to list it. -/
theorem serverFor_answering {servers : List (Details × ServerNode)} {svc_repo : List ServiceReg}
    (h : List.Forall₂ (fun reg r => Advertises reg r.1 r.2.services) svc_repo servers)
    {op : CString} (hop : Answering servers op d node) :
    serverFor E (.str op) svc_repo = d.location := by
  obtain ⟨before, after, rfl, hmem, hbefore⟩ := hop
  induction before generalizing svc_repo with
  | nil =>
      obtain ⟨reg, rest, hadv, -, rfl⟩ := List.forall₂_cons_right_iff.mp h
      rw [serverFor, List.find?_cons_of_pos ((listsService_advertises hadv op).mpr hmem)]
      simp only [Details.location, hadv.address, hadv.port]
  | cons r before ih =>
      obtain ⟨reg, rest, hadv, hrest, rfl⟩ := List.forall₂_cons_right_iff.mp h
      obtain ⟨hr, hbefore⟩ := List.forall_mem_cons.mp hbefore
      rw [serverFor, List.find?_cons_of_neg (mt (listsService_advertises hadv op).mp hr)]
      exact ih hrest hbefore

/-! ### Any calls -/

/-- A call that one of the servers answers, and what its function returns. -/
structure StubCall.Answered (w : World) (servers : List (Details × ServerNode)) (call : StubCall)
    (client : Details) (v : Arg) : Prop where
  valid : call.Valid w client
  args : ∀ i, .int i ∈ call.args → 0 ≤ i
  result : ∃ d node, Answering servers (.ofBytes call.proto.name.chars) d node ∧
    call.proto.proto ∈ node.program.protos ∧
    node.program.result (.ofBytes call.proto.name.chars) call.args = v
  type : v.type = call.proto.ret

/-- The returns of calls that have been made one after the other. -/
def returnsOf (results : List Arg) : List Return :=
  results.mapIdx fun i v => ⟨i, some i, v.received⟩

/-- These servers stand, and calls with these results have been made. -/
structure HasReturned (w : World) (servers : List (Details × ServerNode)) (s : Net E)
    (results : List Arg) : Prop where
  stands : Stands w s servers
  calls : s.calls.length = results.length
  returned : s.returned = returnsOf results

/-- One more call returns what the function returns. -/
theorem hasReturned_call {servers : List (Details × ServerNode)} {results : List Arg}
    (hs : HasReturned w servers s results) {c : Details × StubCall}
    (hc : c.2.Answered w servers c.1 v) :
    ∃ t : Net E, (c.2.run c.1 0).foldlM (step w) s = some t ∧
      HasReturned w servers t (results ++ [v]) := by
  obtain ⟨d, node, hanswering, hlisted, rfl⟩ := hc.result
  obtain ⟨before, after, hsplit, hmem, hbefore⟩ := id hanswering
  have hd := hs.stands.registered (d, node) (by simp [hsplit])
  have hserves : Serves w s (.ofBytes c.2.proto.name.chars) d node c.2.proto.proto :=
    ⟨hd.1, hd.2, serverFor_answering hs.stands.registry hanswering, hlisted, rfl⟩
  have hrun := call_run hc.valid hserves hc.args hc.type (hs.stands.idle c.1)
    (by rw [hs.stands.pending]; simp)
  rw [hs.stands.flight, List.length_nil] at hrun
  refine ⟨_, hrun, { hs.stands with pending := ?_ }, ?_, ?_⟩
  · show (s.config.clnt_req_repo ++ [_]).eraseP _ = []
    rw [hs.stands.pending]
    exact List.eraseP_cons_of_pos
      ((answers_entry (c.2.clientCall c.1).key (c.2.clientCall c.1).request).trans (decide_eq_true rfl))
  · show (s.calls ++ [_]).length = _
    rw [List.length_append, List.length_append, hs.calls]
    rfl
  · show s.returned ++ [_] = _
    rw [hs.returned, hs.calls, returnsOf, returnsOf, List.mapIdx_concat]

/-- **Remote calls return what the functions return.** Servers register, and clients make
any calls the servers have functions for, one after the other: each stub returns what the
function of the first server to list the operation returns, a negative number as 0, and
in the end nothing is under way and nothing pending. -/
theorem calls_return (E : Libs) (w : World) {servers : List (Details × ServerNode)}
    {calls : List (Details × StubCall)} {results : List Arg}
    (hservers : ∀ r ∈ servers, w.server r.1 = some r.2 ∧ r.2.services.length < 0x80000000)
    (hcalls : List.Forall₂ (fun c v => c.2.Answered w servers c.1 v) calls results) :
    ∃ s : Net E, (servers.flatMap (fun r => registerRun r.1) ++
        calls.flatMap fun c => c.2.run c.1 0).foldlM (step w) .init = some s ∧
      s.returned = returnsOf results ∧ s.flight = [] ∧ s.config.clnt_req_repo = [] := by
  obtain ⟨s, hregister, hs, hnocalls, hnoreturns⟩ := servers_stand (E := E) hservers
  have hstart : HasReturned w servers s [] :=
    ⟨hs, by rw [hnocalls, List.length_nil, List.length_nil], hnoreturns⟩
  obtain ⟨t, hrun, ht⟩ := schedule_phases (P := HasReturned w servers)
    (fun _ _ _ _ hs hc => hasReturned_call hs hc) hstart hcalls
  exact ⟨t, schedule_append.mpr ⟨s, hregister, hrun⟩, ht.returned, ht.stands.flight,
    ht.stands.pending⟩

open ServerInterface in
/-- The program as it is: one server, built from `server_interface.h`. -/
def interfaceWorld (L : StringLibrary) : World where
  broker := ⟨.lit "127.0.0.1", .lit "9090"⟩
  server := fun d => if d = exampleServer then some (serverNode L) else none
  apart := if_neg (by decide)

open ServerInterface in
/-- What the calls of `main` return. -/
def mainResults (L : StringLibrary) : List Arg :=
  [.str (.lit "20 jan 2012"), .str (L.strReverse (.lit "Bruce Mathews")), .str (.lit "broker v1"),
    .int 219, .str (.lit "sayHello()"),
    .str (L.strJoin (L.strJoin (.lit "labrador_") (.lit "alsatian_"))
      (L.strJoin (.lit "bulldog_") (.lit "spaniel"))), .int 378]

open ServerInterface in
/-- The server answers every operation of its interface. -/
theorem answering_serverInterface (L : StringLibrary) {proto : Prototype}
    (hproto : proto ∈ serverInterface) :
    Answering [(exampleServer, serverNode L)] (.ofBytes proto.name.chars) exampleServer
        (serverNode L) ∧
      proto.proto ∈ (serverNode L).program.protos := by
  have hlisted : ∀ proto ∈ serverInterface, CString.ofBytes proto.name.chars ∈ services := by decide
  exact ⟨⟨[], [], rfl, hlisted proto hproto, by simp⟩, List.mem_map_of_mem hproto⟩

open ServerInterface in
/-- Every call of `main` is answered. -/
theorem answered_mainCalls (L : StringLibrary) {rand : Nat → Int32} (hrand : ∀ i, 0 ≤ rand i) :
    List.Forall₂ (fun call v => call.Answered (interfaceWorld L) [(exampleServer, serverNode L)]
      exampleClient v) (mainCalls rand) (mainResults L) := by
  have hclient : (interfaceWorld L).IsClient exampleClient :=
    ⟨show exampleClient ≠ ⟨.lit "127.0.0.1", .lit "9090"⟩ by decide, rfl⟩
  have hresult : ∀ proto ∈ serverInterface, ∀ args, ∃ d node,
      Answering [(exampleServer, serverNode L)] (.ofBytes proto.name.chars) d node ∧
      proto.proto ∈ node.program.protos ∧
      node.program.result (.ofBytes proto.name.chars) args =
        interfaceResult L (.ofBytes proto.name.chars) args := by
    intro proto hproto args
    obtain ⟨hanswering, hlisted⟩ := answering_serverInterface L hproto
    exact ⟨_, _, hanswering, hlisted, rfl⟩
  refine .cons ?_ (.cons ?_ (.cons ?_ (.cons ?_ (.cons ?_ (.cons ?_ (.cons ?_ .nil))))))
  all_goals
    exact ⟨⟨hclient, hrand _, rfl⟩, by simp, hresult _ (by simp [serverInterface]) _, rfl⟩

open ServerInterface in
/-- The calls of `main`, with string functions that reverse and append. -/
theorem calls_return_main :
    ∃ s : Net Libs.reference, s.returned.map Return.value =
      [.ptr (.str (.lit "20 jan 2012")), .ptr (.str (.lit "swehtaM ecurB")),
        .ptr (.str (.lit "broker v1")), .int 219, .ptr (.str (.lit "sayHello()")),
        .ptr (.str (.lit "labrador_alsatian_bulldog_spaniel")), .int 378] := by
  let L : StringLibrary :=
    ⟨fun s => .ofBytes s.chars.reverse, fun s t => .ofBytes (s.chars ++ t.chars)⟩
  have hcalls : List.Forall₂ (fun c v => c.2.Answered (interfaceWorld L)
      [(exampleServer, serverNode L)] c.1 v)
      ((mainCalls fun _ => 1804289383).map (exampleClient, ·)) (mainResults L) :=
    List.forall₂_map_left_iff.mpr (answered_mainCalls L fun _ => by decide)
  obtain ⟨s, -, hreturned, -⟩ := calls_return Libs.reference (interfaceWorld L)
    (List.forall_mem_singleton.mpr ⟨rfl, by decide⟩) hcalls
  refine ⟨s, ?_⟩
  rw [hreturned]
  decide

end RpcBroker
