import RpcBroker.Proofs.Completion
import RpcBroker.Proofs.Interleavings
/-!
# RpcBroker.Proofs.Registrants

**What an acknowledgement means.** The broker's registry and what the servers believe agree
in every state of every run, with any losses and in any order (`registrants_agree`): what
the broker has registered are the tables of servers, a server that takes itself for
registered is in the registry, so every operation in its table is routed to some server
with that operation, and a request under way to a server is one for its table.

The acknowledgement is sent after the registration was added, and the registry only grows;
so the invariant (`Registrants`) says of an acknowledgement under way what it says of the
server that has taken it.
-/

namespace RpcBroker

open CLib Msgpack Machine

variable {E : Libs} {w : World} {s t : Net E}

/-! ### The invariant -/

/-- The registry has a registration of the server at `d`. -/
def HasRegistration (svc_repo : List ServiceReg) (d : Details) : Prop :=
  ∃ reg ∈ svc_repo, (⟨reg.address, reg.port⟩ : Location) = d.location

/-- A packet under way to a server is there for a reason: an acknowledgement because of a
registration, a request because of an entry in the table. -/
structure Founded (w : World) (svc_repo : List ServiceReg) (m : Flight E.Buffer) : Prop where
  ack : ∀ d node, w.server d = some node → m.sent.dest = d.location → IsAck E m.sent.packet →
    HasRegistration svc_repo d
  request : ∀ d node op, w.server d = some node → m.sent.dest = d.location →
    getReqType E m.sent.packet = .ok RequestType.serviceRequest.code →
      getOpName E m.sent.packet = .ok (.str op) → op ∈ node.services

/-- What the broker and the servers agree on. -/
structure Registrants (w : World) (s : Net E) : Prop where
  listed : ∀ reg ∈ s.config.svc_repo, ∃ d node, w.server d = some node ∧
    Advertises reg d node.services
  registered : ∀ d, s.registered d = true → HasRegistration s.config.svc_repo d
  flight : ∀ m ∈ s.flight, Founded w s.config.svc_repo m

theorem registrants_init : Registrants w (Net.init : Net E) where
  listed := by simp [Net.init, Config.init]
  registered := by simp [Net.init]
  flight := by simp [Net.init]

theorem HasRegistration.mono {svc_repo svc_repo' : List ServiceReg} {d : Details}
    (h : HasRegistration svc_repo d) (hsub : svc_repo ⊆ svc_repo') :
    HasRegistration svc_repo' d := by
  obtain ⟨reg, hreg, hloc⟩ := h
  exact ⟨reg, hsub hreg, hloc⟩

theorem Founded.mono {svc_repo svc_repo' : List ServiceReg} {m : Flight E.Buffer}
    (h : Founded w svc_repo m) (hsub : svc_repo ⊆ svc_repo') : Founded w svc_repo' m where
  ack d node hd hdest hack := (h.ack d node hd hdest hack).mono hsub
  request := h.request

/-- Nothing is said of packets that are not under way to a server. -/
theorem founded_of_elsewhere {svc_repo : List ServiceReg} {m : Flight E.Buffer} {d : Details}
    (hd : w.server d = none) (hdest : m.sent.dest = d.location) : Founded w svc_repo m where
  ack d' node hd' hdest' _ := by
    obtain rfl := Details.location_inj.mp (hdest.symm.trans hdest')
    exact absurd (hd.symm.trans hd') (by simp)
  request d' node op hd' hdest' _ _ := by
    obtain rfl := Details.location_inj.mp (hdest.symm.trans hdest')
    exact absurd (hd.symm.trans hd') (by simp)

/-- More packets under way. -/
theorem Registrants.send (h : Registrants w s) {call : Option Nat} {sents : List (Sent E.Buffer)}
    (hsents : ∀ sent ∈ sents, Founded w s.config.svc_repo ⟨sent, call⟩) :
    Registrants w (s.send call sents) :=
  { h with
    flight := by
      intro m hm
      rcases List.mem_append.mp hm with hm | hm
      · exact h.flight m hm
      · obtain ⟨sent, hsent, rfl⟩ := List.mem_map.mp hm
        exact hsents sent hsent }

/-- A packet less. -/
theorem Registrants.take (h : Registrants w s) (i : Nat) :
    Registrants w { s with flight := s.flight.eraseIdx i } :=
  { h with flight := fun m hm => h.flight m (List.mem_of_mem_eraseIdx hm) }

/-! ### The broker -/

/-- Where a registered operation is routed to, there is a server with it. -/
theorem serverFor_listed (h : Registrants w s) {op : CString} {reg : ServiceReg}
    (hfind : s.config.svc_repo.find? (listsService E (.str op)) = some reg) :
    ∃ d node, w.server d = some node ∧ op ∈ node.services ∧
      serverFor E (.str op) s.config.svc_repo = d.location := by
  obtain ⟨d, node, hd, hadv⟩ := h.listed reg (List.mem_of_find?_eq_some hfind)
  have hop : op ∈ node.services :=
    (listsService_advertises (E := E) hadv op).mp (List.find?_some hfind)
  refine ⟨d, node, hd, hop, ?_⟩
  simp only [serverFor, hfind]
  rw [hadv.address, hadv.port]
  rfl

/-- A request is sent on to a server with its operation, or to nobody. -/
theorem forwards_listed (h : Registrants w s) (packet : E.Buffer) (op : CString) :
    ∀ sent ∈ forwards E packet (.str op) s.config.svc_repo, sent.packet = packet ∧
      ∃ d node, w.server d = some node ∧ sent.dest = d.location ∧ op ∈ node.services := by
  intro sent hsent
  cases hfind : s.config.svc_repo.find? (listsService E (.str op)) with
  | none =>
      have hnone : forwards E packet (.str op) s.config.svc_repo = [] :=
        if_pos (.inl (by simp only [serverFor, hfind]))
      rw [hnone] at hsent
      exact absurd hsent (by simp)
  | some reg =>
      obtain ⟨d, node, hd, hop, hserver⟩ := serverFor_listed h hfind
      have hone : forwards E packet (.str op) s.config.svc_repo = [⟨packet, d.location⟩] := by
        rw [forwards, hserver]
        exact if_neg (by simp [Details.location])
      rw [hone] at hsent
      obtain rfl := List.mem_singleton.mp hsent
      exact ⟨rfl, d, node, hd, rfl, hop⟩

/-- A registration is in the registry when its acknowledgement is sent. -/
theorem registrants_broker_registration (h : Registrants w s) {d : Details} {node : ServerNode}
    {packet : E.Buffer} (hd : w.server d = some node) (hlen : node.services.length < 0x80000000)
    (hcarries : E.Carries packet (registrationHeaders d node.services))
    (hstep : brokerReceives s ⟨⟨packet, w.broker.location⟩, none⟩ = some t) :
    Registrants w t := by
  obtain ⟨ack, hread, hack⟩ := readData_ownRegistration s.config hcarries
  have hadv := advertises_registration (E := E) d hlen
  rw [brokerReceives, hread] at hstep
  obtain rfl := Option.some.inj hstep
  have hadded : Registrants w { s with config := { s.config with svc_repo := s.config.svc_repo ++
      [(regHeaders E (registrationHeaders d node.services) .init).reg] } } := {
    listed := by
      intro reg hreg
      rcases List.mem_append.mp hreg with hreg | hreg
      · exact h.listed reg hreg
      · exact ⟨d, node, hd, List.mem_singleton.mp hreg ▸ hadv⟩
    registered := fun d' hd' => (h.registered d' hd').mono (List.subset_append_left ..)
    flight := fun m hm => (h.flight m hm).mono (List.subset_append_left ..) }
  refine hadded.send ?_
  intro sent hsent
  obtain rfl := List.mem_singleton.mp hsent
  have htype : getReqType E ack = .ok RequestType.serviceRegistrationAck.code :=
    getReqType_ofInt hack
  refine ⟨?_, ?_⟩
  · intro d' node' _ hdest _
    refine ⟨_, List.mem_append_right _ (List.mem_singleton_self _), ?_⟩
    rw [hadv.address, hadv.port]
    exact hdest
  · intro d' node' op _ _ hrequest _
    exact absurd (reqType_unique htype hrequest) (by decide)

theorem registrants_broker_request (h : Registrants w s) {n : Nat} {call : ClientCall}
    {packet : E.Buffer} (hid : 0 ≤ call.message_id)
    (hcarries : E.Carries packet (requestHeaders call.client call.message_id call.op call.args))
    (hstep : brokerReceives s ⟨⟨packet, w.broker.location⟩, some n⟩ = some t) :
    Registrants w t := by
  rw [brokerReceives, readData_request hid hcarries] at hstep
  obtain rfl := Option.some.inj hstep
  have hrecorded : Registrants w { s with config := { s.config with
      clnt_req_repo := s.config.clnt_req_repo ++
        [(⟨call.client.location, ⟨call.message_id, call.op⟩⟩ : Request).entry] } } := { h with }
  refine hrecorded.send ?_
  intro sent hsent
  obtain ⟨hpacket, d, node, hd, hdest, hop⟩ := forwards_listed hrecorded packet call.op sent hsent
  have htype : getReqType E packet = .ok RequestType.serviceRequest.code :=
    getReqType_ofInt hcarries
  have hname : getOpName E packet = .ok (.str call.op) := by
    rw [getOpName_carries hcarries]
    simp [requestHeaders, firstStr_cons]
  refine ⟨?_, ?_⟩
  · intro d' node' _ _ hack
    rw [IsAck, hpacket] at hack
    exact absurd (reqType_unique htype hack) (by decide)
  · intro d' node' op hd' hdest' _ hop'
    obtain rfl := Details.location_inj.mp (hdest.symm.trans hdest')
    obtain rfl := Option.some.inj (hd.symm.trans hd')
    rw [hpacket, hname] at hop'
    obtain rfl := Ptr.str.inj (Except.ok.inj hop')
    exact hop

/-! ### A server -/

/-- A server changes its own flag only, for an acknowledgement that is founded, and sends
to the broker. -/
theorem registrants_server (h : Registrants w s) {d : Details} {node : ServerNode}
    {m : Flight E.Buffer} (hd : w.server d = some node) (hdest : m.sent.dest = d.location)
    (hfounded : Founded w s.config.svc_repo m) {isRegistered : Bool}
    {sents : List (Sent E.Buffer)}
    (hread : readAndProcessDataOnSocket E node.program w.broker (s.registered d) m.sent.packet =
      .ok (some (isRegistered, sents)))
    (hsents : ∀ sent ∈ sents, sent.dest = w.broker.location) :
    Registrants w (Net.send { s with
      registered := Function.update s.registered d isRegistered } m.call sents) := by
  have hflag : Registrants w { s with
      registered := Function.update s.registered d isRegistered } := { h with
    registered := by
      intro d' hd'
      have hflag : Function.update s.registered d isRegistered d' = true := hd'
      rw [Function.update_apply] at hflag
      split at hflag
      next heq =>
          rcases (readAndProcess_flag hread).mp hflag with hbefore | hack
          · exact heq ▸ h.registered d hbefore
          · exact heq ▸ hfounded.ack d node hd hdest hack
      next => exact h.registered d' hflag }
  exact hflag.send fun sent hsent => founded_of_elsewhere w.apart (hsents sent hsent)

/-! ### The system -/

/-- A client sends nothing, and writes down nothing but its own. -/
theorem registrants_client (h : Registrants w s) {c : Details} {m : Flight E.Buffer}
    (hstep : clientReceives c s m = some t) : Registrants w t := by
  unfold clientReceives at hstep
  split at hstep
  next => exact Option.some.inj hstep ▸ h
  next n hn =>
      obtain ⟨call, -, hstep⟩ := Option.bind_eq_some_iff.mp hstep
      split at hstep
      next =>
          obtain rfl := Option.some.inj hstep
          exact { h with }
      next => exact absurd hstep (by simp)

/-- Handling a packet keeps the agreement, at every stage. -/
theorem Registrants.receive {ways : List (Way E)} {pend : List Request}
    (htraffic : Traffic w s ways pend) (h : Registrants w s) {m : Flight E.Buffer} {stage : Stage}
    (hleg : Leg w s.calls m stage) (hfounded : Founded w s.config.svc_repo m)
    (howed : ∀ k, stage.owes = some k → owing k ways < pendingUnder k pend)
    (hfresh : ∀ n, m.call = some n → n ∉ s.accounted)
    (hstep : receive w s m = some t) : Registrants w t := by
  cases hleg with
  | registration hd hcarries hlen =>
      exact registrants_broker_registration h hd hlen hcarries (receive_broker.symm.trans hstep)
  | ack hd hcarries =>
      rw [receive_server hd] at hstep
      obtain ⟨isRegistered, sents, hread, rfl⟩ := serverReceives_some hstep
      have hnone : sents = [] := by
        rw [readAndProcess_ackHeaders hcarries] at hread
        exact (Prod.mk.inj (Option.some.inj (Except.ok.inj hread))).2.symm
      exact registrants_server h hd rfl hfounded hread (by simp [hnone])
  | @request n call packet hcall hcarries =>
      have hid := (htraffic.clients call (List.mem_of_getElem? hcall)).2
      exact registrants_broker_request h hid hcarries (receive_broker.symm.trans hstep)
  | @forwarded n call packet d node hcall hd hcarries =>
      have hid := (htraffic.clients call (List.mem_of_getElem? hcall)).2
      rw [receive_server hd] at hstep
      obtain ⟨isRegistered, sents, hread, rfl⟩ := serverReceives_some hstep
      refine registrants_server h hd rfl hfounded hread ?_
      rcases readAndProcess_request hid hcarries hread with
        rfl | ⟨-, proto, -, -, args, response, -, -, rfl⟩
      · simp
      · simp
  | @response n call packet v hcall hanswer hcarries =>
      obtain ⟨asker, hasker, -, hs, -⟩ :=
        brokerReceives_response htraffic hcall hanswer hcarries (hfresh _ rfl) (howed _ rfl)
      obtain rfl := Option.some.inj (hs.symm.trans (receive_broker.symm.trans hstep))
      have hanswered : Registrants w (s.withPending (pend.eraseP (Request.hasKey call.key))) :=
        { h with }
      refine hanswered.send fun sent hsent => ?_
      rw [List.mem_singleton.mp hsent]
      exact founded_of_elsewhere (htraffic.clients asker hasker).1.2 rfl
  | @reply n call asker packet v hcall hanswer hcarries hasker hkey =>
      rw [receive_client (htraffic.clients asker hasker).1] at hstep
      exact registrants_client h hstep

/-- **One step**, whatever it is. -/
theorem registrants_step {ways : List (Way E)} {pend : List Request}
    (htraffic : Traffic w s ways pend) (h : Registrants w s) {a : Action}
    (hstep : step w s a = some t) : Registrants w t := by
  cases a with
  | call client rand op params ret args =>
      rw [step] at hstep
      split at hstep
      next =>
          obtain ⟨ts, -, heq⟩ := Option.bind_eq_some_iff.mp hstep
          obtain rfl := Option.some.inj heq
          have hcalled : Registrants w { s with
              waiting := Function.update s.waiting client (some s.calls.length)
              calls := s.calls ++ [⟨client, rand, op, args, ret⟩] } := { h with }
          refine hcalled.send fun sent hsent => ?_
          rw [List.mem_singleton.mp hsent]
          exact founded_of_elsewhere w.apart rfl
      next => exact absurd hstep (by simp)
  | register d =>
      obtain ⟨node, -, hrest⟩ := Option.bind_eq_some_iff.mp hstep
      obtain ⟨ts, -, heq⟩ := Option.bind_eq_some_iff.mp hrest
      obtain rfl := Option.some.inj heq
      refine h.send fun sent hsent => ?_
      rw [List.mem_singleton.mp hsent]
      exact founded_of_elsewhere w.apart rfl
  | timeout client =>
      rw [step] at hstep
      split at hstep
      next =>
          obtain rfl := Option.some.inj hstep
          exact { h with }
      next => exact absurd hstep (by simp)
  | deliver i =>
      obtain ⟨m, hm, hreceive⟩ := Option.bind_eq_some_iff.mp hstep
      obtain ⟨stage, rest, hleg, hrest, howed, -, hfresh⟩ := htraffic.take hm
      exact (h.take i).receive hrest hleg (h.flight m (List.mem_of_getElem? hm)) howed hfresh hreceive
  | lose i =>
      rw [step] at hstep
      split at hstep
      next => exact Option.some.inj hstep ▸ h.take i
      next => exact absurd hstep (by simp)

theorem exists_registrants {allowed : Net E → Action → Prop}
    (h : Reached (step w) allowed .init s) : Registrants w s := by
  have hboth : (∃ ways pend, Traffic w s ways pend) ∧ Registrants w s := by
    refine Reached.invariant
      (P := fun s => (∃ ways pend, Traffic w s ways pend) ∧ Registrants w s) h
      ⟨⟨[], [], traffic_init⟩, registrants_init⟩ ?_
    intro s a t hs _ hstep
    obtain ⟨⟨ways, pend, htraffic⟩, hs⟩ := hs
    obtain ⟨_, ⟨ways', pend', htraffic', -⟩, -⟩ := traffic_step htraffic hstep
    exact ⟨⟨ways', pend', htraffic'⟩, registrants_step htraffic hs hstep⟩
  exact hboth.2

/-- **The broker and the servers agree** in every state of every run. -/
theorem registrants_agree (E : Libs) (w : World) {s : Net E}
    (h : Reached (step w) (fun _ _ => True) .init s) :
    (∀ reg ∈ s.config.svc_repo, ∃ d node, w.server d = some node ∧
      (⟨reg.address, reg.port⟩ : Location) = d.location ∧
      ∀ op, listsService E (.str op) reg = true ↔ op ∈ node.services) ∧
    (∀ d node op packet, w.server d = some node → s.registered d = true → op ∈ node.services →
      getOpName E packet = .ok (.str op) →
        ∃ d' node', w.server d' = some node' ∧ op ∈ node'.services ∧
          findServerForReq E packet s.config = .ok d'.location) ∧
    ∀ m ∈ s.flight, ∀ d node op, w.server d = some node → m.sent.dest = d.location →
      getReqType E m.sent.packet = .ok RequestType.serviceRequest.code →
        getOpName E m.sent.packet = .ok (.str op) → op ∈ node.services := by
  have hs := exists_registrants h
  refine ⟨?_, ?_, fun m hm => (hs.flight m hm).request⟩
  · intro reg hreg
    obtain ⟨d, node, hd, hadv⟩ := hs.listed reg hreg
    refine ⟨d, node, hd, ?_, listsService_advertises hadv⟩
    rw [hadv.address, hadv.port]
    rfl
  · intro d node op packet hd hregistered hop hname
    obtain ⟨reg, hreg, hloc⟩ := hs.registered d hregistered
    obtain ⟨d', node', hd', hadv⟩ := hs.listed reg hreg
    have hsame : d' = d := by
      rw [hadv.address, hadv.port] at hloc
      exact Details.location_inj.mp hloc
    obtain rfl : node' = node := Option.some.inj (hd'.symm.trans (hsame ▸ hd))
    have hlists := (listsService_advertises (E := E) hadv op).mpr hop
    obtain ⟨first, hfirst⟩ : ∃ first,
        s.config.svc_repo.find? (listsService E (.str op)) = some first :=
      Option.isSome_iff_exists.mp (List.find?_isSome.mpr ⟨reg, hreg, hlists⟩)
    obtain ⟨d'', node'', hd'', hop'', hserver⟩ := serverFor_listed hs hfirst
    exact ⟨d'', node'', hd'', hop'', findServerForReq_eq_ok.mpr ⟨_, hname, hserver.symm⟩⟩

/-- The server has its acknowledgement, so a request for `add` has somewhere to go. -/
theorem registrants_agree_add :
    ∃ s : Net Libs.reference, s.registered exampleServer = true ∧
      ∀ packet, getOpName Libs.reference packet = .ok (.str (.lit "add")) →
        ∃ d node, addWorld.server d = some node ∧ .lit "add" ∈ node.services ∧
          findServerForReq Libs.reference packet s.config = .ok d.location := by
  have hrun : ([.register exampleServer, .deliver 0, .deliver 0].foldlM (step addWorld)
      (.init : Net Libs.reference)).map (fun s => s.registered exampleServer) = some true := rfl
  obtain ⟨s, hs, hregistered⟩ := Option.map_eq_some_iff.mp hrun
  have hagree := (registrants_agree Libs.reference addWorld (reached_of_schedule hs)).2.1
  exact ⟨s, hregistered, fun packet =>
    hagree exampleServer _ (.lit "add") packet rfl hregistered (by decide)⟩

end RpcBroker
