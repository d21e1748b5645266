import RpcBroker.Proofs.Deliveries
/-!
# RpcBroker.Proofs.Interleavings

**What holds of every run of the system**, with message ids that repeat, packets that
overtake each other or are lost, and clients that give up and call again.

Such a run may hand a client the answer to another's call; these results say how far
that goes. No call is answered twice (`answered_once`), and what a stub takes is an
answer some server gave, to a call under a key the client used itself
(`returns_genuine`). A response always finds a client (`response_finds_client`). No
packet circulates (`deliveries_bounded`), and the only one that cannot be delivered is a
request whose stub reads what it was not sent (`deliverable_iff`).
-/

namespace RpcBroker

open CLib Msgpack Machine

variable {E : Libs} {w : World}

/-- A state a schedule leads to is reached. -/
theorem reached_of_schedule {actions : List Action} {s : Net E}
    (hrun : actions.foldlM (step w) .init = some s) :
    Reached (step w) (fun _ _ => True) .init s :=
  .of_foldlM (fun _ _ _ hstep => ⟨trivial, hstep⟩) .start hrun

/-! ### Answers -/

/-- **No call is answered twice**: of all packets under way and all responses taken, no
two belong to one call, and no call returns twice. -/
theorem answered_once (E : Libs) (w : World) {s : Net E}
    (h : Reached (step w) (fun _ _ => True) .init s) :
    (s.flight.filterMap Flight.call ++ s.returned.filterMap Return.taken).Nodup ∧
      (s.returned.map Return.call).Nodup := by
  obtain ⟨ways, pend, hs⟩ := exists_traffic h
  exact ⟨hs.once, hs.returnedOnce⟩

/-- The run in which two clients use one message id, and the first takes the answer to
the second. -/
def crossedRun : List Action :=
  [callAdd exampleClient 1 2, .deliver 0, .register exampleServer, .deliver 0, .deliver 0,
    callAdd ⟨.lit "127.0.0.1", .lit "9092"⟩ 3 4, .deliver 0, .deliver 0, .deliver 0, .deliver 0]

theorem crossedRun_reaches :
    ∃ s : Net Libs.reference, s.returned = [⟨0, some 1, .int 7⟩] ∧
      crossedRun.foldlM (step addWorld) (.init : Net Libs.reference) = some s := by
  have hrun : (crossedRun.foldlM (step addWorld) (.init : Net Libs.reference)).map Net.returned =
      some [⟨0, some 1, .int 7⟩] := rfl
  obtain ⟨s, hs, hreturned⟩ := Option.map_eq_some_iff.mp hrun
  exact ⟨s, hreturned, hs⟩

theorem answered_once_crossed :
    ∃ s : Net Libs.reference, s.returned = [⟨0, some 1, .int 7⟩] ∧
      1 ∉ s.flight.filterMap Flight.call := by
  obtain ⟨s, hreturned, hrun⟩ := crossedRun_reaches
  have honce := (answered_once Libs.reference addWorld (reached_of_schedule hrun)).1
  rw [hreturned] at honce
  exact ⟨s, hreturned, fun hmem => (List.nodup_append.mp honce).2.2 1 hmem 1 (by simp) rfl⟩

/-- **Whatever a stub returns is genuine**: it is read from the answer of a server's
function to a call that was made, with the message id and the operation of a call made
at the stub's own endpoint. -/
theorem returns_genuine (E : Libs) (w : World) {s : Net E}
    (h : Reached (step w) (fun _ _ => True) .init s) :
    ∀ r ∈ s.returned, ∃ n, r.taken = some n ∧
      ∃ own asker call v, s.calls[r.call]? = some own ∧ asker ∈ s.calls ∧
        asker.client = own.client ∧ s.calls[n]? = some call ∧
        asker.message_id = call.message_id ∧ asker.op = call.op ∧
        IsAnswer w call v ∧ (v.type = own.ret → r.value = v.received) := by
  obtain ⟨ways, pend, hs⟩ := exists_traffic h
  intro r hr
  obtain ⟨-, n, htaken, own, asker, call, v, hown, hasker, hclient, hcall, hkey, hrest⟩ :=
    hs.returned r hr
  obtain ⟨hid, hop⟩ := Key.mk.inj hkey
  exact ⟨n, htaken, own, asker, call, v, hown, hasker, hclient, hcall, hid, hop, hrest⟩

/-- The answer the first client took is one to a call of `add` under its id. -/
theorem returns_genuine_crossed :
    ∃ s : Net Libs.reference, s.returned = [⟨0, some 1, .int 7⟩] ∧
      ∃ call v, s.calls[1]? = some call ∧ IsAnswer addWorld call v := by
  obtain ⟨s, hreturned, hrun⟩ := crossedRun_reaches
  obtain ⟨n, htaken, -, -, call, v, -, -, -, hcall, -, -, hanswer, -⟩ :=
    returns_genuine Libs.reference addWorld (reached_of_schedule hrun) ⟨0, some 1, .int 7⟩
      (by simp [hreturned])
  obtain rfl : 1 = n := Option.some.inj htaken
  exact ⟨s, hreturned, call, v, hcall, hanswer⟩

/-! ### Responses -/

/-- A response on its way to the broker is what it is read as. -/
theorem Leg.of_answered {calls : List ClientCall} {m : Flight E.Buffer} {stage : Stage}
    (h : Leg w calls m stage) (hclients : ∀ call ∈ calls, w.IsClient call.client ∧ 0 ≤ call.message_id)
    (hdest : m.sent.dest = w.broker.location) {k : Key} (hread : Reads E m.sent.packet (.answered k)) :
    ∃ n call v, m = ⟨⟨m.sent.packet, w.broker.location⟩, some n⟩ ∧ calls[n]? = some call ∧
      call.key = k ∧ stage = .response k ∧ IsAnswer w call v ∧
      E.Carries m.sent.packet (responseHeaders call.op call.message_id v) := by
  cases hread with
  | answered htype hid hop =>
      cases h with
      | registration hd hcarries => exact absurd (reqType_unique htype (getReqType_ofInt hcarries)) (by decide)
      | ack hd hcarries => exact absurd (reqType_unique htype (getReqType_ofInt hcarries)) (by decide)
      | request hcall hcarries =>
          exact absurd (reqType_unique htype (getReqType_ofInt hcarries)) (by decide)
      | forwarded hcall hd hcarries =>
          exact absurd (reqType_unique htype (getReqType_ofInt hcarries)) (by decide)
      | @response n call packet v hcall hanswer hcarries =>
          have hnonneg := (hclients call (List.mem_of_getElem? hcall)).2
          have hkey : call.key = k := by
            cases reads_response hnonneg hcarries with
            | answered _ hid' hop' =>
                obtain ⟨id, op⟩ := k
                obtain rfl := Except.ok.inj (hid'.symm.trans hid)
                obtain rfl := Ptr.str.inj (Except.ok.inj (hop'.symm.trans hop))
                rfl
          exact ⟨n, call, v, rfl, hcall, hkey, hkey ▸ rfl, hanswer, hcarries⟩
      | reply hcall hanswer hcarries hasker =>
          exact absurd (Details.location_inj.mp hdest) (hclients _ hasker).1.1

/-- **A response always finds a client**: delivered to the broker, it takes one entry off
the pending list and is sent on, as it is, to a client that has made a call with its
message id and operation. -/
theorem response_finds_client (E : Libs) (w : World) {s : Net E}
    (h : Reached (step w) (fun _ _ => True) .init s) {i : Nat} {m : Flight E.Buffer} {k : Key}
    (hm : s.flight[i]? = some m) (hdest : m.sent.dest = w.broker.location)
    (hread : Reads E m.sent.packet (.answered k)) :
    ∃ s' asker, step w s (.deliver i) = some s' ∧ asker ∈ s.calls ∧ asker.key = k ∧
      s'.flight = s.flight.eraseIdx i ++ [⟨⟨m.sent.packet, asker.client.location⟩, m.call⟩] ∧
      s'.config.clnt_req_repo.length + 1 = s.config.clnt_req_repo.length := by
  obtain ⟨ways, pend, hs⟩ := exists_traffic h
  obtain ⟨stage, rest, hleg, hrest, howed, -, hfresh⟩ := hs.take hm
  obtain ⟨n, call, v, hflight, hcall, rfl, rfl, hanswer, hcarries⟩ :=
    hleg.of_answered hs.clients hdest hread
  have hn : m.call = some n := by rw [hflight]
  obtain ⟨asker, hasker, hkey, hreceived, -⟩ :=
    brokerReceives_response hrest hcall hanswer hcarries (hfresh n hn) (howed _ rfl)
  rw [← receive_broker, ← hflight] at hreceived
  refine ⟨_, asker, (step_deliver hm).trans hreceived, hasker, hkey, by rw [hn]; rfl, ?_⟩
  obtain ⟨r, hr, hrkey, -⟩ := exists_pending (Nat.zero_lt_of_lt (howed _ rfl))
  have hlen := List.length_eraseP_of_mem (p := Request.hasKey call.key) hr
    (by simpa [Request.hasKey] using hrkey)
  have hpos := List.length_pos_of_mem hr
  rw [hs.pending, List.length_map]
  show ((pend.eraseP _).map Request.entry).length + 1 = _
  rw [List.length_map, hlen]
  omega

/-- The response to the second client's call. -/
theorem response_finds_client_crossed :
    ∃ (s s' : Net Libs.reference) (asker : ClientCall), asker ∈ s.calls ∧
      step addWorld s (.deliver 0) = some s' := by
  have hrun : ((crossedRun.take 8).foldlM (step addWorld) (.init : Net Libs.reference)).bind
      (fun s => s.flight[0]?.map fun m => (m.sent.packet, m.sent.dest)) =
      some (packetOf (responseHeaders (.lit "add") 1804289383 (.int 7)), addWorld.broker.location) :=
    rfl
  obtain ⟨s, hs, hflight⟩ := Option.bind_eq_some_iff.mp hrun
  obtain ⟨m, hm, hsent⟩ := Option.map_eq_some_iff.mp hflight
  obtain ⟨hpacket, hdest⟩ := Prod.mk.inj hsent
  have hread : Reads Libs.reference m.sent.packet (.answered ⟨1804289383, .lit "add"⟩) :=
    hpacket ▸ .answered rfl rfl rfl
  obtain ⟨s', asker, hstep, hasker, -⟩ :=
    response_finds_client Libs.reference addWorld (reached_of_schedule hs) hm hdest hread
  exact ⟨s, s', asker, hasker, hstep⟩

/-! ### Deliveries -/

/-- Every packet has a hop left. -/
theorem length_le_hopsLeft (ways : List (Way E)) : ways.length ≤ hopsLeft ways := by
  induction ways with
  | nil => exact Nat.le_refl 0
  | cons way ways ih =>
      have hpos := way.2.hops_pos
      rw [hopsLeft, List.map_cons, List.sum_cons, List.length_cons]
      rw [hopsLeft] at ih
      omega

/-- **No packet circulates**: in any run, the packets delivered or lost and those still
under way are no more than four for each call and two for each registration. -/
theorem deliveries_bounded (E : Libs) (w : World) {actions : List Action} {s : Net E}
    (hrun : actions.foldlM (step w) .init = some s) :
    s.flight.length + (actions.map Action.taken).sum ≤ (actions.map Action.brings).sum := by
  have hstep : ∀ (s : Net E) (n : Nat) (a : Action) (t : Net E), Leads w s n →
      step w s a = some t → ∃ m, Leads w t m ∧ m + a.taken ≤ n + a.brings := by
    intro s n a t h ha
    obtain ⟨ways, pend, hs, hle⟩ := h
    obtain ⟨hops, hleads, hpaid⟩ := traffic_step hs ha
    exact ⟨hops, hleads, by omega⟩
  have hinit : Leads w (Net.init : Net E) 0 := traffic_init.leads (Nat.le_refl 0)
  obtain ⟨m, ⟨ways, pend, hs, hle⟩, hpaid⟩ := schedule_potential hstep hinit hrun
  have hlen : ways.length = s.flight.length := by
    rw [← hs.flight.length_eq, List.length_map]
  have hhops := length_le_hopsLeft ways
  omega

/-- After the crossed run, with two calls and one registration, nothing is under way. -/
theorem deliveries_bounded_crossed :
    ∃ s : Net Libs.reference, s.returned = [⟨0, some 1, .int 7⟩] ∧ s.flight.length + 7 ≤ 10 := by
  obtain ⟨s, hreturned, hrun⟩ := crossedRun_reaches
  exact ⟨s, hreturned, deliveries_bounded Libs.reference addWorld hrun⟩

theorem serverReceives_isSome_iff {d : Details} {node : ServerNode} {s : Net E}
    {m : Flight E.Buffer} :
    (∃ s', serverReceives w d node s m = some s') ↔
      ∃ r, readAndProcessDataOnSocket E node.program w.broker (s.registered d) m.sent.packet =
        .ok (some r) := by
  constructor
  · intro h
    obtain ⟨s', hs'⟩ := h
    obtain ⟨isRegistered, sents, hread, -⟩ := serverReceives_some hs'
    exact ⟨_, hread⟩
  · intro h
    obtain ⟨⟨isRegistered, sents⟩, hread⟩ := h
    exact ⟨_, by rw [serverReceives, hread]⟩

/-- **What can be delivered**: every packet under way, unless it is a request for a
registered server whose stub reads what it was not sent. -/
theorem deliverable_iff (E : Libs) (w : World)
    (htyped : ∀ d node, w.server d = some node → node.program.Typed) {s : Net E}
    (h : Reached (step w) (fun _ _ => True) .init s) {i : Nat} {m : Flight E.Buffer}
    (hm : s.flight[i]? = some m) :
    (∃ s', step w s (.deliver i) = some s') ↔
      ∀ d node n call, m.sent.dest = d.location → w.server d = some node →
        s.registered d = true → m.call = some n → s.calls[n]? = some call →
        StubReads node.program call.op call.args := by
  obtain ⟨ways, pend, hs⟩ := exists_traffic h
  obtain ⟨stage, rest, hleg, hrest, howed, -, hfresh⟩ := hs.take hm
  have hbroker : ∀ d node, w.broker.location = d.location → w.server d = some node → False := by
    intro d node hloc hd
    exact World.server_ne_broker hd (Details.location_inj.mp hloc).symm
  rw [step_deliver hm]
  cases hleg with
  | registration hd hcarries hlen =>
      obtain ⟨s', hs', -⟩ := brokerReceives_registration hrest hd hlen hcarries
      exact iff_of_true ⟨s', receive_broker.trans hs'⟩ fun _ _ _ _ _ _ _ hn => absurd hn (by simp)
  | ack hd hcarries =>
      obtain ⟨s', hs', -⟩ := serverReceives_ack (w := w) hrest hcarries
      exact iff_of_true ⟨s', (receive_server hd).trans hs'⟩
        fun _ _ _ _ _ _ _ hn => absurd hn (by simp)
  | request hcall hcarries =>
      obtain ⟨s', hs', -⟩ := brokerReceives_request hrest hcall hcarries (hfresh _ rfl)
      exact iff_of_true ⟨s', receive_broker.trans hs'⟩
        fun d node _ _ hloc hd => (hbroker d node hloc hd).elim
  | @forwarded n call packet d node hcall hd hcarries =>
      have hid := (hs.clients call (List.mem_of_getElem? hcall)).2
      rw [receive_server hd, serverReceives_isSome_iff,
        readAndProcess_returns_iff (htyped d node hd) hid hcarries]
      constructor
      · intro hreads d' node' n' call' hloc hd' hregistered hn hcall'
        obtain rfl := Details.location_inj.mp hloc
        obtain rfl := Option.some.inj (hd.symm.trans hd')
        obtain rfl := Option.some.inj hn
        obtain rfl := Option.some.inj (hcall.symm.trans hcall')
        exact hreads hregistered
      · intro hall hregistered
        exact hall d node n call rfl hd hregistered rfl hcall
  | response hcall hanswer hcarries =>
      obtain ⟨asker, -, -, hs', -⟩ :=
        brokerReceives_response hrest hcall hanswer hcarries (hfresh _ rfl) (howed _ rfl)
      exact iff_of_true ⟨_, receive_broker.trans hs'⟩
        fun d node _ _ hloc hd => (hbroker d node hloc hd).elim
  | @reply n call asker packet v hcall hanswer hcarries hasker hkey =>
      have hclient := (hs.clients _ hasker).1
      obtain ⟨s', hs', -⟩ :=
        clientReceives_reply hrest hcall hanswer hcarries hasker hkey (hfresh _ rfl)
      refine iff_of_true ⟨s', (receive_client hclient).trans hs'⟩ ?_
      intro d node _ _ hloc hd
      rw [← Details.location_inj.mp hloc, hclient.2] at hd
      exact absurd hd (by simp)

theorem typed_addWorld : ∀ d node, addWorld.server d = some node → node.program.Typed := by
  intro d node hd
  simp only [addWorld] at hd
  split at hd
  next =>
      obtain rfl := Option.some.inj hd
      intro proto hproto as
      rw [List.mem_singleton.mp hproto]
      simp only
      split <;> rfl
  next => exact absurd hd (by simp)

/-- A request of the run, at the server. -/
theorem deliverable_crossed :
    ∃ s s' : Net Libs.reference, step addWorld s (.deliver 0) = some s' := by
  have hrun : ((crossedRun.take 7).foldlM (step addWorld) (.init : Net Libs.reference)).bind
      (fun s => s.flight[0]?.map fun m => (m.call, s.calls[1]?.map fun call => (call.op, call.args)))
      = some (some 1, some (.lit "add", [.int 3, .int 4])) := rfl
  obtain ⟨s, hs, hflight⟩ := Option.bind_eq_some_iff.mp hrun
  obtain ⟨m, hm, hsent⟩ := Option.map_eq_some_iff.mp hflight
  obtain ⟨hn, hcall⟩ := Prod.mk.inj hsent
  obtain ⟨call, hget, hargs⟩ := Option.map_eq_some_iff.mp hcall
  obtain ⟨hop, hargs⟩ := Prod.mk.inj hargs
  refine ⟨s, (deliverable_iff Libs.reference addWorld typed_addWorld (reached_of_schedule hs) hm).mpr
    ?_⟩
  intro d node n call' _ hd _ hn' hcall' proto hproto _
  obtain rfl : 1 = n := Option.some.inj (hn.symm.trans hn')
  obtain rfl := Option.some.inj (hget.symm.trans hcall')
  simp only [addWorld] at hd
  split at hd
  next =>
      obtain rfl := Option.some.inj hd
      rw [List.mem_singleton.mp hproto, hargs]
      rfl
  next => exact absurd hd (by simp)

end RpcBroker
