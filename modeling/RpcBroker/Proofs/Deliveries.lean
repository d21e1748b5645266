import RpcBroker.Proofs.Replies
import RpcBroker.Proofs.Traffic
/-!
# RpcBroker.Proofs.Deliveries

**Every delivery is a hop**: what one step of the system does to its traffic. A
handler turns the packet it is given into at most one packet of a later stage, so
each delivery takes at least one hop off what is left (`traffic_step`), and a run
makes at most four deliveries for each call and two for each registration
(`deliveries_bounded`).
-/

namespace RpcBroker

open CLib Msgpack Machine

variable {E : Libs} {w : World} {s : Net E} {ways : List (Way E)} {pend : List Request}

/-! ### Sending -/

theorem Net.send_nil (call : Option Nat) : s.send call [] = s := by
  simp [Net.send]

theorem Net.send_one (call : Option Nat) (sent : Sent E.Buffer) :
    s.send call [sent] = { s with flight := s.flight ++ [⟨sent, call⟩] } := rfl

/-- A request goes to a server of the world, or nowhere. -/
theorem forwards_cases {svc_repo : List ServiceReg}
    (h : ∀ reg ∈ svc_repo, ∃ d node, w.server d = some node ∧
      (⟨reg.address, reg.port⟩ : Location) = d.location) (packet : E.Buffer) (op_name : Ptr) :
    forwards E packet op_name svc_repo = [] ∨
      ∃ d node, w.server d = some node ∧
        forwards E packet op_name svc_repo = [⟨packet, d.location⟩] := by
  unfold forwards serverFor
  cases hfind : svc_repo.find? (listsService E op_name) with
  | none => exact Or.inl (if_pos (Or.inl rfl))
  | some reg =>
      obtain ⟨d, node, hd, hloc⟩ := h reg (List.mem_of_find?_eq_some hfind)
      obtain ⟨haddress, hport⟩ := Location.mk.inj hloc
      refine Or.inr ⟨d, node, hd, ?_⟩
      simp only [haddress, hport]
      rw [if_neg (by simp)]
      rfl

/-! ### Pending entries -/

theorem pendingUnder_append (k : Key) (r : Request) :
    pendingUnder k (pend ++ [r]) = pendingUnder k pend + if r.key = k then 1 else 0 := by
  rw [pendingUnder, List.map_append, List.count_append, List.map_singleton, List.count_singleton]
  simp [pendingUnder]

theorem pendingUnder_eraseP (k taken : Key) :
    pendingUnder k (pend.eraseP (Request.hasKey taken)) =
      pendingUnder k pend - if taken = k then 1 else 0 := by
  have hcomp : (taken == ·) ∘ Request.key = Request.hasKey taken := by
    funext r
    exact decide_eq_decide.mpr eq_comm
  have herase : (pend.eraseP (Request.hasKey taken)).map Request.key =
      (pend.map Request.key).erase taken := by
    rw [List.erase_eq_eraseP, List.eraseP_map, hcomp]
  rw [pendingUnder, herase, List.count_erase]
  simp [pendingUnder]

/-- The entry the broker finds under a key. -/
theorem exists_pending {k : Key} (h : 0 < pendingUnder k pend) :
    ∃ r ∈ pend, r.key = k ∧ pend.find? (Request.hasKey k) = some r := by
  obtain ⟨r, hr, hkey⟩ := List.mem_map.mp (List.count_pos_iff.mp h)
  have hsome : (pend.find? (Request.hasKey k)).isSome := by
    rw [List.find?_isSome]
    exact ⟨r, hr, by simpa [Request.hasKey] using hkey⟩
  obtain ⟨first, hfirst⟩ := Option.isSome_iff_exists.mp hsome
  exact ⟨first, List.mem_of_find?_eq_some hfirst,
    by simpa [Request.hasKey] using List.find?_some hfirst, hfirst⟩

/-- The same state with these requests pending. -/
def Net.withPending (s : Net E) (pend : List Request) : Net E :=
  { s with config := { s.config with clnt_req_repo := pend.map Request.entry } }

/-! ### The broker -/

/-- What a step leads to: traffic again, with so many hops left. -/
def Leads (w : World) (s : Net E) (hops : Nat) : Prop :=
  ∃ ways pend, Traffic w s ways pend ∧ hopsLeft ways ≤ hops

theorem Traffic.leads (h : Traffic w s ways pend) {hops : Nat} (hle : hopsLeft ways ≤ hops) :
    Leads w s hops := ⟨ways, pend, h, hle⟩

variable {n : Nat} {call : ClientCall} {packet : E.Buffer}

/-- A request is recorded and, if a server lists its operation, sent on. -/
theorem brokerReceives_request (h : Traffic w s ways pend) (hcall : s.calls[n]? = some call)
    (hcarries : E.Carries packet (requestHeaders call.client call.message_id call.op call.args))
    (hfresh : n ∉ s.accounted) :
    ∃ s', brokerReceives s ⟨⟨packet, w.broker.location⟩, some n⟩ = some s' ∧
      Leads w s' (hopsLeft ways + 3) := by
  have hid : 0 ≤ call.message_id := (h.clients call (List.mem_of_getElem? hcall)).2
  have hrecorded : Traffic w { s with config := { s.config with
      clnt_req_repo := s.config.clnt_req_repo ++ [call.request.entry] } } ways
      (pend ++ [call.request]) := { h with
    pending := by simp [h.pending]
    asked := by
      intro r hr
      rcases List.mem_append.mp hr with hr | hr
      · exact h.asked r hr
      · exact ⟨call, List.mem_of_getElem? hcall, List.mem_singleton.mp hr⟩
    owed := by
      intro k
      rw [pendingUnder_append]
      exact Nat.le_trans (h.owed k) (Nat.le_add_right _ _) }
  refine ⟨_, by rw [brokerReceives, readData_request hid hcarries], ?_⟩
  rcases forwards_cases h.registry packet (.str call.op) with hnone | ⟨d, node, hd, hone⟩
  · rw [hnone, Net.send_nil]
    exact hrecorded.leads (Nat.le_add_right _ _)
  · rw [hone, Net.send_one]
    refine (hrecorded.push (.forwarded hcall hd hcarries) ?_ ?_).leads (hopsLeft_push ..).le
    · intro k hk
      exact Option.some.inj hk ▸ hfresh
    · intro k hk
      have hle := h.owed k
      rw [pendingUnder_append, if_pos (show call.request.key = k from Option.some.inj hk)]
      omega

/-- A response is sent to a client with a request pending under its key. -/
theorem brokerReceives_response (h : Traffic w s ways pend) (hcall : s.calls[n]? = some call)
    {v : Arg} (hanswer : IsAnswer w call v)
    (hcarries : E.Carries packet (responseHeaders call.op call.message_id v))
    (hfresh : n ∉ s.accounted) (howed : owing call.key ways < pendingUnder call.key pend) :
    ∃ asker ∈ s.calls, asker.key = call.key ∧
      brokerReceives s ⟨⟨packet, w.broker.location⟩, some n⟩ =
        some ((s.withPending (pend.eraseP (Request.hasKey call.key))).send (some n)
          [⟨packet, asker.client.location⟩]) ∧
      Leads w ((s.withPending (pend.eraseP (Request.hasKey call.key))).send (some n)
          [⟨packet, asker.client.location⟩]) (hopsLeft ways + 1) := by
  have hid : 0 ≤ call.message_id := (h.clients call (List.mem_of_getElem? hcall)).2
  obtain ⟨r, hr, hkey, hfind⟩ := exists_pending (Nat.zero_lt_of_lt howed)
  obtain ⟨asker, hasker, rfl⟩ := h.asked r hr
  have hclient : clientFor E call.message_id (.str call.op) s.config.clnt_req_repo =
      asker.client.location := by
    have hentry := clientFor_map_entry (E := E) call.key pend
    rw [hfind, ← h.pending] at hentry
    exact hentry
  have herase : s.config.clnt_req_repo.eraseP (answers E call.message_id (.str call.op)) =
      (pend.eraseP (Request.hasKey call.key)).map Request.entry := by
    rw [h.pending, List.eraseP_map, ← answers_comp_entry (E := E) call.key]
    rfl
  have hanswered : Traffic w (s.withPending (pend.eraseP (Request.hasKey call.key))) ways
      (pend.eraseP (Request.hasKey call.key)) := { h with
    pending := rfl
    asked := fun r hr => h.asked r (List.mem_of_mem_eraseP hr)
    owed := by
      intro k
      have hle := h.owed k
      rw [pendingUnder_eraseP]
      by_cases hk : call.key = k
      · rw [if_pos hk]
        rw [hk] at howed
        omega
      · rw [if_neg hk]
        exact hle }
  refine ⟨asker, hasker, hkey, ?_, ?_⟩
  · rw [brokerReceives, readData_response hid hcarries, hclient, herase]
    rfl
  · rw [Net.send_one]
    refine (hanswered.push (.reply hcall hanswer hcarries hasker hkey) ?_ ?_).leads
      (hopsLeft_push ..).le
    · intro k hk
      exact Option.some.inj hk ▸ hfresh
    · intro k hk
      exact absurd hk (by simp [Stage.owes])

/-- A registration is added and acknowledged. -/
theorem brokerReceives_registration (h : Traffic w s ways pend) {d : Details} {node : ServerNode}
    (hd : w.server d = some node) (hlen : node.services.length < 0x80000000)
    (hcarries : E.Carries packet (registrationHeaders d node.services)) :
    ∃ s', brokerReceives s ⟨⟨packet, w.broker.location⟩, none⟩ = some s' ∧
      Leads w s' (hopsLeft ways + 1) := by
  obtain ⟨ack, hread, hack⟩ := readData_ownRegistration s.config hcarries
  have hadv := advertises_registration (E := E) d hlen
  refine ⟨_, by rw [brokerReceives, hread], ?_⟩
  rw [Net.send_one]
  have hadded : Traffic w { s with config := { s.config with svc_repo := s.config.svc_repo ++
      [(regHeaders E (registrationHeaders d node.services) .init).reg] } } ways pend := { h with
    registry := by
      intro reg hreg
      rcases List.mem_append.mp hreg with hreg | hreg
      · exact h.registry reg hreg
      · rw [List.mem_singleton.mp hreg]
        exact ⟨d, node, hd, by rw [hadv.address, hadv.port]; rfl⟩ }
  refine (hadded.push (.ack hd hack) (by simp) ?_).leads (hopsLeft_push ..).le
  intro k hk
  exact absurd hk (by simp [Stage.owes])

/-! ### A server -/

/-- A server that handles a request sends at most the response to it. -/
theorem serverReceives_request (h : Traffic w s ways pend) (hcall : s.calls[n]? = some call)
    {d : Details} {node : ServerNode} (hd : w.server d = some node)
    (hcarries : E.Carries packet (requestHeaders call.client call.message_id call.op call.args))
    (hfresh : n ∉ s.accounted) (howed : owing call.key ways < pendingUnder call.key pend)
    {s' : Net E} (hstep : serverReceives w d node s ⟨⟨packet, d.location⟩, some n⟩ = some s') :
    Leads w s' (hopsLeft ways + 2) := by
  have hid : 0 ≤ call.message_id := (h.clients call (List.mem_of_getElem? hcall)).2
  obtain ⟨isRegistered, sents, hread, rfl⟩ := serverReceives_some hstep
  have hflag : Traffic w { s with registered := Function.update s.registered d isRegistered }
      ways pend := { h with }
  rcases readAndProcess_request hid hcarries hread with
    rfl | ⟨-, proto, hproto, hname, args, response, hargs, hresponse, rfl⟩
  · rw [Net.send_nil]
    exact hflag.leads (Nat.le_add_right _ _)
  · rw [Net.send_one]
    have hanswer : IsAnswer w call (node.program.result call.op args) :=
      ⟨d, node, proto, args, hd, hproto, hname, hargs, rfl⟩
    refine (hflag.push (.response hcall hanswer hresponse) ?_ ?_).leads (hopsLeft_push ..).le
    · intro k hk
      exact Option.some.inj hk ▸ hfresh
    · intro k hk
      exact Option.some.inj hk ▸ howed

theorem serverReceives_ack (h : Traffic w s ways pend) {d : Details} {node : ServerNode}
    {id : Int32} (hcarries : E.Carries packet (ackHeaders id)) :
    ∃ s', serverReceives w d node s ⟨⟨packet, d.location⟩, none⟩ = some s' ∧
      Leads w s' (hopsLeft ways) := by
  refine ⟨_, by rw [serverReceives, readAndProcess_ackHeaders hcarries], ?_⟩
  rw [Net.send_nil]
  have hflag : Traffic w { s with registered := Function.update s.registered d true } ways pend :=
    { h with }
  exact hflag.leads (Nat.le_refl _)

/-! ### A client -/

/-- A client makes a call under the next number. -/
theorem traffic_call (h : Traffic w s ways pend) (hclient : w.IsClient call.client)
    (hid : 0 ≤ call.message_id)
    (hcarries : E.Carries packet (requestHeaders call.client call.message_id call.op call.args)) :
    Leads w (Net.send { s with
      waiting := Function.update s.waiting call.client (some s.calls.length)
      calls := s.calls ++ [call] } (some s.calls.length) [⟨packet, w.broker.location⟩])
      (hopsLeft ways + 4) := by
  have hlast : (s.calls ++ [call])[s.calls.length]? = some call := by simp
  have hcalled : Traffic w { s with
      waiting := Function.update s.waiting call.client (some s.calls.length)
      calls := s.calls ++ [call] } ways pend := { h with
    clients := by
      intro other hother
      rcases List.mem_append.mp hother with hother | hother
      · exact h.clients other hother
      · rw [List.mem_singleton.mp hother]
        exact ⟨hclient, hid⟩
    asked := by
      intro r hr
      obtain ⟨other, hother, hr⟩ := h.asked r hr
      exact ⟨other, List.mem_append_left _ hother, hr⟩
    legs := fun way hway => (h.legs way hway).append [call]
    waiting := by
      intro c k hk
      by_cases hc : c = call.client
      · rw [hc] at hk ⊢
        simp only [Function.update_self, Option.some.injEq] at hk
        refine ⟨⟨call, hk ▸ hlast, rfl⟩, ?_⟩
        intro hmem
        obtain ⟨r, hr, hrk⟩ := List.mem_map.mp hmem
        have hlt := (h.returned r hr).1
        omega
      · simp only [Function.update_of_ne hc] at hk
        obtain ⟨⟨other, hother, hown⟩, hnot⟩ := h.waiting c k hk
        exact ⟨⟨other, getElem?_append_of_some [call] hother, hown⟩, hnot⟩
    returned := by
      intro r hr
      obtain ⟨hlt, k, htook, own, asker, other, v, hown, hasker, hsame, hother, hrest⟩ :=
        h.returned r hr
      refine ⟨by rw [List.length_append]; omega, k, htook, own, asker, other, v,
        getElem?_append_of_some [call] hown, List.mem_append_left _ hasker, hsame,
        getElem?_append_of_some [call] hother, hrest⟩ }
  rw [Net.send_one]
  refine (hcalled.push (.request hlast hcarries) ?_ ?_).leads (hopsLeft_push ..).le
  · intro k hk hmem
    have hlt := h.accounted_lt (n := k) hmem
    obtain rfl : s.calls.length = k := Option.some.inj hk
    omega
  · intro k hk
    exact absurd hk (by simp [Stage.owes])

/-- A client gives up. -/
theorem Traffic.idle (h : Traffic w s ways pend) (client : Details) :
    Traffic w { s with waiting := Function.update s.waiting client none } ways pend :=
  { h with
    waiting := by
      intro c k hk
      by_cases hc : c = client
      · rw [hc] at hk
        exact absurd hk (by simp)
      · simp only [Function.update_of_ne hc] at hk
        exact h.waiting c k hk }

/-- A client that waits takes whatever response comes to its endpoint. -/
theorem clientReceives_reply (h : Traffic w s ways pend) {asker : ClientCall}
    (hcall : s.calls[n]? = some call) {v : Arg} (hanswer : IsAnswer w call v)
    (hcarries : E.Carries packet (responseHeaders call.op call.message_id v))
    (hasker : asker ∈ s.calls) (hkey : asker.key = call.key) (hfresh : n ∉ s.accounted) :
    ∃ s', clientReceives asker.client s ⟨⟨packet, asker.client.location⟩, some n⟩ = some s' ∧
      Leads w s' (hopsLeft ways) := by
  unfold clientReceives
  cases hwaiting : s.waiting asker.client with
  | none => exact ⟨s, rfl, h.leads (Nat.le_refl _)⟩
  | some k =>
      obtain ⟨⟨own, hown, hclient⟩, hnot⟩ := h.waiting _ _ hwaiting
      obtain ⟨value, hvalue⟩ := stubReturn_returns hcarries own.ret
      simp only [hown, Option.bind_eq_bind, Option.bind_some, hvalue]
      refine ⟨_, rfl, ?_⟩
      have hidle := h.idle asker.client
      have hreturned : Traffic w { s with
          waiting := Function.update s.waiting asker.client none
          returned := s.returned ++ [⟨k, some n, value⟩] } ways pend := { hidle with
        once := by
          have hperm : (n :: s.accounted).Perm (s.flight.filterMap Flight.call ++
              (s.returned ++ [(⟨k, some n, value⟩ : Return)]).filterMap Return.taken) := by
            rw [List.filterMap_append, ← List.append_assoc]
            exact (List.perm_append_comm : ([n] ++ s.accounted).Perm (s.accounted ++ [n]))
          exact hperm.nodup_iff.mp (List.nodup_cons.mpr ⟨hfresh, h.once⟩)
        waiting := by
          intro c j hj
          obtain ⟨hmade, hfree⟩ := hidle.waiting c j hj
          refine ⟨hmade, ?_⟩
          rw [List.map_append, List.mem_append]
          rintro (hmem | hmem)
          · exact hfree hmem
          · -- Two clients do not wait for one call.
            obtain rfl : j = k := List.mem_singleton.mp hmem
            obtain ⟨other, hother, hc⟩ := hmade
            obtain rfl : other = own := Option.some.inj (hother.symm.trans hown)
            rw [← hc, hclient] at hj
            simp at hj
        returned := by
          intro r hr
          rcases List.mem_append.mp hr with hr | hr
          · exact h.returned r hr
          · rw [List.mem_singleton.mp hr]
            refine ⟨(List.getElem?_eq_some_iff.mp hown).1, n, rfl, own, asker, call, v, hown, hasker,
              hclient.symm, hcall, hkey, hanswer, ?_⟩
            intro htype
            rw [← htype, stubReturn_response hcarries] at hvalue
            exact (Except.ok.inj hvalue).symm
        returnedOnce := by
          rw [List.map_append]
          refine List.nodup_append.mpr ⟨h.returnedOnce, List.nodup_singleton _, ?_⟩
          intro a ha b hb hab
          rw [List.mem_singleton.mp hb] at hab
          obtain rfl : a = k := hab
          exact hnot ha }
      exact hreturned.leads (Nat.le_refl _)

/-! ### The system -/

/-- A delivery is the handling of a packet by its receiver. -/
theorem step_deliver {i : Nat} {m : Flight E.Buffer} (hm : s.flight[i]? = some m) :
    step w s (.deliver i) = receive w { s with flight := s.flight.eraseIdx i } m := by
  rw [step, hm]
  rfl

/-- What comes of a packet that is handled. -/
theorem Traffic.receive (h : Traffic w s ways pend) {m : Flight E.Buffer} {stage : Stage}
    (hleg : Leg w s.calls m stage) (hfresh : ∀ n, m.call = some n → n ∉ s.accounted)
    (howed : ∀ k, stage.owes = some k → owing k ways < pendingUnder k pend) {s' : Net E}
    (hstep : receive w s m = some s') : Leads w s' (hopsLeft ways + (stage.hops - 1)) := by
  cases hleg with
  | registration hd hcarries hlen =>
      obtain ⟨s₁, hs₁, hleads⟩ := brokerReceives_registration h hd hlen hcarries
      rw [receive_broker, hs₁] at hstep
      exact Option.some.inj hstep ▸ hleads
  | ack hd hcarries =>
      obtain ⟨s₁, hs₁, hleads⟩ := serverReceives_ack h hcarries
      rw [receive_server hd, hs₁] at hstep
      exact Option.some.inj hstep ▸ hleads
  | request hcall hcarries =>
      obtain ⟨s₁, hs₁, hleads⟩ := brokerReceives_request h hcall hcarries (hfresh _ rfl)
      rw [receive_broker, hs₁] at hstep
      exact Option.some.inj hstep ▸ hleads
  | forwarded hcall hd hcarries =>
      rw [receive_server hd] at hstep
      exact serverReceives_request h hcall hd hcarries (hfresh _ rfl) (howed _ rfl) hstep
  | response hcall hanswer hcarries =>
      obtain ⟨asker, -, -, hs₁, hleads⟩ :=
        brokerReceives_response h hcall hanswer hcarries (hfresh _ rfl) (howed _ rfl)
      rw [receive_broker, hs₁] at hstep
      exact Option.some.inj hstep ▸ hleads
  | reply hcall hanswer hcarries hasker hkey =>
      obtain ⟨s₁, hs₁, hleads⟩ :=
        clientReceives_reply h hcall hanswer hcarries hasker hkey (hfresh _ rfl)
      rw [receive_client (h.clients _ hasker).1, hs₁] at hstep
      exact Option.some.inj hstep ▸ hleads

/-- How many packets an action takes off the network. -/
def Action.taken : Action → Nat
  | .deliver _ => 1
  | .lose _ => 1
  | _ => 0

/-- How many deliveries an action makes possible. -/
def Action.brings : Action → Nat
  | .call .. => 4
  | .register _ => 2
  | _ => 0

/-- **One step of the system**, whatever it is. -/
theorem traffic_step (h : Traffic w s ways pend) {a : Action} {s' : Net E}
    (hstep : step w s a = some s') :
    ∃ hops, Leads w s' hops ∧ hops + a.taken ≤ hopsLeft ways + a.brings := by
  cases a with
  | call client rand op params ret args =>
      rw [step] at hstep
      split at hstep
      next hguard =>
          obtain ⟨⟨hbroker, hserver⟩, -, hrand, htypes⟩ := hguard
          obtain ⟨ts, hts, hparse⟩ :=
            packClientRequestData_parse client rand op (stubFormat_fits htypes)
          rw [hts] at hstep
          obtain rfl := Option.some.inj hstep
          have hclient : w.IsClient (ClientCall.mk client rand op args ret).client :=
            ⟨hbroker, Option.isNone_iff_eq_none.mp hserver⟩
          exact ⟨_, traffic_call h hclient hrand (carries_of_parse hparse), Nat.le_refl _⟩
      next => exact absurd hstep (by simp)
  | register d =>
      rw [step, Option.bind_eq_bind, Option.bind_eq_some_iff] at hstep
      obtain ⟨node, hd, hstep⟩ := hstep
      rw [Option.bind_eq_bind, Option.bind_eq_some_iff] at hstep
      obtain ⟨ts, hts, hstep⟩ := hstep
      obtain rfl := Option.some.inj hstep
      have hlen : node.services.length < 0x80000000 := serviceRegisterWithBroker_some hts
      obtain ⟨ts', hts', hparse⟩ := serviceRegisterWithBroker_parse (E := E) d node.named hlen
      obtain rfl : ts = ts' := Option.some.inj (hts.symm.trans hts')
      rw [Net.send_one]
      refine ⟨_, (h.push (.registration hd (carries_of_parse hparse) hlen) (by simp) ?_).leads
        (hopsLeft_push ..).le, Nat.le_refl _⟩
      intro k hk
      exact absurd hk (by simp [Stage.owes])
  | timeout client =>
      rw [step] at hstep
      split at hstep
      next =>
          obtain rfl := Option.some.inj hstep
          exact ⟨_, (h.idle client).leads (Nat.le_refl _), Nat.le_refl _⟩
      next => exact absurd hstep (by simp)
  | deliver i =>
      have hm : ∃ m, s.flight[i]? = some m := by
        rw [step, Option.bind_eq_bind, Option.bind_eq_some_iff] at hstep
        obtain ⟨m, hm, -⟩ := hstep
        exact ⟨m, hm⟩
      obtain ⟨m, hm⟩ := hm
      rw [step_deliver hm] at hstep
      obtain ⟨stage, rest, hleg, hrest, howed, hhops, hfresh⟩ := h.take hm
      refine ⟨_, hrest.receive hleg hfresh howed hstep, ?_⟩
      have hpos := stage.hops_pos
      simp only [Action.taken, Action.brings]
      omega
  | lose i =>
      rw [step] at hstep
      split at hstep
      next hlt =>
          obtain rfl := Option.some.inj hstep
          obtain ⟨stage, rest, -, hrest, -, hhops, -⟩ :=
            h.take (List.getElem?_eq_getElem hlt)
          refine ⟨_, hrest.leads (Nat.le_refl _), ?_⟩
          have hpos := stage.hops_pos
          simp only [Action.taken, Action.brings]
          omega
      next => exact absurd hstep (by simp)

/-- **Every state of every run.** -/
theorem exists_traffic {s : Net E} {allowed : Net E → Action → Prop}
    (h : Reached (step w) allowed .init s) : ∃ ways pend, Traffic w s ways pend := by
  refine Reached.invariant (P := fun s => ∃ ways pend, Traffic w s ways pend) h
    ⟨[], [], traffic_init⟩ ?_
  intro s a s' h _ hstep
  obtain ⟨ways, pend, hs⟩ := h
  obtain ⟨_, ⟨ways', pend', hs', -⟩, -⟩ := traffic_step hs hstep
  exact ⟨ways', pend', hs'⟩

end RpcBroker
