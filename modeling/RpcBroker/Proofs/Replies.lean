import RpcBroker.Proofs.Outstanding
/-!
# RpcBroker.Proofs.Replies

**Replies reach the client that asked**, over every run of the whole system that
is `Orderly`: no request comes to the broker while one of another endpoint is
pending there under its message id and operation, no stub is called where a
packet of an earlier call, one its client gave up on, is still to come, and no
function a server calls returns what the stub does not read back, a negative `int`
or a value of another type.

The servers' and the clients' steps keep the invariant as the broker's do, and
`inv_step` puts them together by the stage of the packet that is delivered.

The message id is what `rand()` gives, and nothing makes it different from that
of another client. When two clients ask for one operation under one id the
first response goes to the first of them, whoever it is for.
-/

namespace RpcBroker

open CLib Msgpack

variable {E : Libs} {w : World} {A : ClientCall → Arg → Prop}

/-! ### What is claimed -/

/-- Every packet on its way to a client is the response to a call of that client,
and every value a stub has returned is the answer to its own call. -/
structure RepliesReachCaller (w : World) (s : Net E) : Prop where
  forwarded : ∀ m ∈ s.flight, ∀ c, w.IsClient c → m.sent.dest = c.location →
    ∃ n call v, m.call = some n ∧ s.calls[n]? = some call ∧ call.client = c ∧
      IsAnswer w call v ∧
      E.Carries m.sent.packet (responseHeaders call.op call.message_id v)
  returned : ∀ r ∈ s.returned, r.taken = some r.call ∧
    ∃ call v, s.calls[r.call]? = some call ∧ IsAnswer w call v ∧ r.value = v.returned

/-- If the packet at position `i` is a request for the broker, no request from
another endpoint is pending under its message id and operation. -/
def KeyUnclaimed (w : World) (s : Net E) (i : Nat) : Prop :=
  ∀ m ∈ s.flight[i]?, m.sent.dest = w.broker.location →
    ∀ r, Reads E m.sent.packet (.asked r) → ∀ entry ∈ s.config.clnt_req_repo,
      entry.message_id = r.key.message_id → entry.operation = .str r.key.operation →
      (⟨entry.address, entry.port⟩ : Location) = r.source

/-- No packet of a call of `client` is under way. -/
def NothingUnderWay (s : Net E) (client : Details) : Prop :=
  ∀ m ∈ s.flight, ∀ n ∈ m.call, ∀ call ∈ s.calls[n]?, call.client ≠ client

/-- What keeps the calls apart. -/
def Apart (w : World) (s : Net E) : Action → Prop
  | .deliver i => KeyUnclaimed w s i
  | .call client .. => NothingUnderWay s client
  | _ => True

/-- The stub reads the value back: it is of the stub's result type, and no negative
`int`. -/
def ReadBack (call : ClientCall) (v : Arg) : Prop :=
  v.type = call.ret ∧
    match v with
    | .int i => 0 ≤ i
    | .str _ => True

/-- A step that keeps the calls apart and at which no function returns what its stub does
not read back. -/
def Orderly (w : World) (s : Net E) (a : Action) : Prop :=
  Apart w s a ∧
    match a with
    | .deliver i => AnswersAt ReadBack w s i
    | _ => True

instance (s : Net E) (i : Nat) : Decidable (KeyUnclaimed w s i) :=
  decidable_of_iff (∀ m ∈ s.flight[i]?, m.sent.dest = w.broker.location →
      ∀ r ∈ requestOf E m.sent.packet, ∀ entry ∈ s.config.clnt_req_repo,
        entry.message_id = r.key.message_id → entry.operation = .str r.key.operation →
        (⟨entry.address, entry.port⟩ : Location) = r.source)
    ⟨fun h m hm hdest r hr => h m hm hdest r (requestOf_eq_some.mpr hr),
      fun h m hm hdest r hr => h m hm hdest r (requestOf_eq_some.mp hr)⟩

instance (s : Net E) (client : Details) : Decidable (NothingUnderWay s client) :=
  inferInstanceAs (Decidable (∀ m ∈ s.flight, ∀ n ∈ m.call, ∀ call ∈ s.calls[n]?,
    call.client ≠ client))

instance (s : Net E) (a : Action) : Decidable (Apart w s a) :=
  match a with
  | .deliver i => inferInstanceAs (Decidable (KeyUnclaimed w s i))
  | .call client .. => inferInstanceAs (Decidable (NothingUnderWay s client))
  | .register _ => .isTrue trivial
  | .timeout _ => .isTrue trivial
  | .lose _ => .isTrue trivial

instance (call : ClientCall) (v : Arg) : Decidable (ReadBack call v) :=
  match v with
  | .int i => inferInstanceAs (Decidable (CType.int = call.ret ∧ 0 ≤ i))
  | .str _ => inferInstanceAs (Decidable (CType.charPtr = call.ret ∧ True))

instance (s : Net E) (i : Nat) : Decidable (AnswersAt ReadBack w s i) :=
  inferInstanceAs (Decidable (∀ m ∈ s.flight[i]?, ∀ d ∈ m.sent.dest.details?,
    ∀ node ∈ w.server d, s.registered d = true → ∀ n ∈ m.call, ∀ call ∈ s.calls[n]?,
      ∀ proto ∈ node.program.protos, proto.name = call.op →
        ∀ args ∈ readParams proto.params ((call.args.map Arg.object).map ParamPtr.ofObject),
          ReadBack call (node.program.result call.op args)))

instance (s : Net E) (a : Action) : Decidable (Orderly w s a) :=
  match a with
  | .deliver i => inferInstanceAs (Decidable (Apart w s (.deliver i) ∧ AnswersAt ReadBack w s i))
  | .call client rand op params ret args =>
      inferInstanceAs (Decidable (Apart w s (.call client rand op params ret args) ∧ True))
  | .register d => inferInstanceAs (Decidable (Apart w s (.register d) ∧ True))
  | .timeout d => inferInstanceAs (Decidable (Apart w s (.timeout d) ∧ True))
  | .lose i => inferInstanceAs (Decidable (Apart w s (.lose i) ∧ True))

/-- What is read back is the value. -/
theorem ReadBack.received {call : ClientCall} {v : Arg} (h : ReadBack call v) :
    v.received = v.returned := by
  cases v with
  | int i => exact congrArg StubResult.int (if_pos h.2)
  | str s => rfl

/-- The invariant says what is claimed. -/
theorem Inv.repliesReachCaller {s : Net E} {pend : List Request}
    (h : Inv w (fun call v => IsAnswer w call v ∧ ReadBack call v) s pend) :
    RepliesReachCaller w s where
  returned := by
    intro r hr
    obtain ⟨htaken, call, v, hcall, ⟨hanswer, hread⟩, hvalue⟩ := h.returned r hr
    exact ⟨htaken, call, v, hcall, hanswer, (hvalue hread.1).trans hread.received⟩
  forwarded := by
    intro m hm c hc hdest
    cases h.flight m hm with
    | registration => exact absurd (Details.location_inj.mp hdest).symm hc.1
    | request => exact absurd (Details.location_inj.mp hdest).symm hc.1
    | response => exact absurd (Details.location_inj.mp hdest).symm hc.1
    | ack hd =>
        rw [Details.location_inj.mp hdest, hc.2] at hd
        exact absurd hd (by simp)
    | forwarded _ hd =>
        rw [Details.location_inj.mp hdest, hc.2] at hd
        exact absurd hd (by simp)
    | reply hlatest hanswer hcarries =>
        exact ⟨_, _, _, rfl, hlatest.1, Details.location_inj.mp hdest, hanswer.1, hcarries⟩

/-! ### The servers' steps -/

/-- A server sends its registration. -/
theorem inv_register {s : Net E} {pend : List Request} (h : Inv w A s pend)
    {d : Details} {node : ServerNode} {ts : List Token} (hd : w.server d = some node)
    (hts : serviceRegisterWithBroker E d node.services = some ts) :
    Inv w A (s.send none [⟨E.pack ts, w.broker.location⟩]) pend := by
  have hlen : node.services.length < 0x80000000 := serviceRegisterWithBroker_some hts
  obtain ⟨ts', hts', hparse⟩ := serviceRegisterWithBroker_parse (E := E) d node.named hlen
  obtain rfl : ts = ts' := Option.some.inj (hts.symm.trans hts')
  refine h.send ?_ (by simp)
  intro sent hsent
  rw [List.mem_singleton.mp hsent]
  exact .registration hd hlen (carries_of_parse hparse)

theorem serverReceives_some {d : Details} {node : ServerNode} {s s' : Net E} {m : Flight E.Buffer}
    (h : serverReceives w d node s m = some s') :
    ∃ isRegistered sents, readAndProcessDataOnSocket E node.program w.broker (s.registered d)
        m.sent.packet = .ok (some (isRegistered, sents)) ∧
      s' = Net.send { s with registered := Function.update s.registered d isRegistered }
        m.call sents := by
  unfold serverReceives at h
  split at h
  next isRegistered sents hread =>
      exact ⟨isRegistered, sents, hread, (Option.some.inj h).symm⟩
  next => exact absurd h (by simp)

/-- A server answers a request, or not. -/
theorem inv_server_forwarded {s s' : Net E} {pend : List Request} (h : Inv w A s pend)
    {n : Nat} {call : ClientCall} {packet : E.Buffer} {d : Details} {node : ServerNode}
    (hlatest : Latest s.calls n call)
    (hcarries : E.Carries packet (requestHeaders call.client call.message_id call.op call.args))
    (hpend : call.request ∈ pend) (hfresh : ∀ m ∈ s.flight, m.call ≠ some n)
    (hanswers : s.registered d = true → AnswersAre A node call)
    (hstep : serverReceives w d node s ⟨⟨packet, d.location⟩, some n⟩ = some s') :
    Inv w A s' pend := by
  obtain ⟨isRegistered, sents, hread, rfl⟩ := serverReceives_some hstep
  have hid : 0 ≤ call.message_id := (h.clients call (List.mem_of_getElem? hlatest.1)).2
  have hinv : Inv w A { s with registered := Function.update s.registered d isRegistered } pend :=
    { h with }
  rcases readAndProcess_request hid hcarries hread with
    rfl | ⟨hregistered, proto, hproto, hname, args, response, hargs, hresponse, rfl⟩
  · exact hinv.sendOne (Nat.zero_le 1) hfresh (by simp)
  · refine hinv.sendOne (Nat.le_refl 1) hfresh ?_
    intro sent hsent
    rw [List.mem_singleton.mp hsent]
    exact .response hlatest (hanswers hregistered proto hproto hname args hargs) hresponse hpend

/-- An acknowledged server knows that it is registered. -/
theorem inv_server_ack {s s' : Net E} {pend : List Request} (h : Inv w A s pend)
    {d : Details} {node : ServerNode} {packet : E.Buffer} {id : Int32}
    (hcarries : E.Carries packet (ackHeaders id))
    (hstep : serverReceives w d node s ⟨⟨packet, d.location⟩, none⟩ = some s') :
    Inv w A s' pend := by
  obtain ⟨isRegistered, sents, hread, rfl⟩ := serverReceives_some hstep
  have hinv : Inv w A { s with registered := Function.update s.registered d isRegistered } pend :=
    { h with }
  rw [readAndProcess_ack hcarries hread]
  exact hinv.send (by simp) (by simp)

/-! ### The clients' steps -/

/-- A client makes a call under the next number. -/
theorem inv_call {s : Net E} {pend : List Request} (h : Inv w A s pend) (call : ClientCall)
    {ts : List Token} (hclient : w.IsClient call.client) (hid : 0 ≤ call.message_id)
    (hnothing : NothingUnderWay s call.client)
    (hcarries : E.Carries (E.pack ts)
      (requestHeaders call.client call.message_id call.op call.args)) :
    Inv w A (Net.send { s with
      waiting := Function.update s.waiting call.client (some s.calls.length)
      calls := s.calls ++ [call] } (some s.calls.length)
        [⟨E.pack ts, w.broker.location⟩]) pend := by
  have hlast : Latest (s.calls ++ [call]) s.calls.length call := latest_append s.calls call
  have hinv : Inv w A { s with
      waiting := Function.update s.waiting call.client (some s.calls.length)
      calls := s.calls ++ [call] } pend := { h with
    clients := by
      intro other hother
      rcases List.mem_append.mp hother with hother | hother
      · exact h.clients other hother
      · rw [List.mem_singleton.mp hother]
        exact ⟨hclient, hid⟩
    waiting := by
      intro c n hn
      by_cases hc : c = call.client
      · rw [hc] at hn ⊢
        simp only [Function.update_self, Option.some.injEq] at hn
        exact ⟨call, hn ▸ hlast, rfl⟩
      · simp only [Function.update_of_ne hc] at hn
        obtain ⟨other, hother, rfl⟩ := h.waiting c n hn
        exact ⟨other, hother.append (Ne.symm hc), rfl⟩
    flight := by
      -- The packets under way are of other clients, whose latest calls stay the latest.
      intro m hm
      refine (h.flight m hm).imp fun n other hn hother => ⟨hother.append ?_, fun hp => hp⟩
      exact (hnothing m hm n hn other hother.1).symm
    returned := by
      intro r hr
      obtain ⟨htaken, other, v, hother, hrest⟩ := h.returned r hr
      obtain ⟨hlt, -⟩ := List.getElem?_eq_some_iff.mp hother
      exact ⟨htaken, other, v, by rw [List.getElem?_append_left hlt, hother], hrest⟩ }
  refine hinv.sendOne (Nat.le_refl 1) ?_ ?_
  · intro m hm hcall
    obtain ⟨other, hother⟩ := (h.flight m hm).latest hcall
    obtain ⟨hlt, -⟩ := List.getElem?_eq_some_iff.mp hother.1
    omega
  · intro sent hsent
    rw [List.mem_singleton.mp hsent]
    exact .request hlast hcarries

/-- A client stops waiting. -/
theorem Inv.idle {s : Net E} {pend : List Request} (h : Inv w A s pend) (client : Details) :
    Inv w A { s with waiting := Function.update s.waiting client none } pend :=
  { h with
    waiting := by
      intro c n hn
      by_cases hc : c = client
      · rw [hc] at hn
        exact absurd hn (by simp)
      · simp only [Function.update_of_ne hc] at hn
        exact h.waiting c n hn }

/-- A client that waits takes the response and returns. The call it waits for is
its latest, as is the call of the packet. -/
theorem inv_client_reply {s s' : Net E} {pend : List Request} (h : Inv w A s pend)
    {n : Nat} {call : ClientCall} {packet : E.Buffer} {v : Arg}
    (hlatest : Latest s.calls n call) (hanswer : A call v)
    (hcarries : E.Carries packet (responseHeaders call.op call.message_id v))
    (hstep : clientReceives call.client s ⟨⟨packet, call.client.location⟩, some n⟩ = some s') :
    Inv w A s' pend := by
  unfold clientReceives at hstep
  cases hwaiting : s.waiting call.client with
  | none =>
      rw [hwaiting] at hstep
      exact Option.some.inj hstep ▸ h
  | some k =>
      obtain ⟨other, hother, hclient⟩ := h.waiting _ _ hwaiting
      obtain rfl : k = n := hlatest.unique hother hclient
      rw [hwaiting] at hstep
      simp only [hlatest.1, Option.bind_eq_bind, Option.bind_some] at hstep
      cases hret : stubReturn E call.ret packet with
      | error e =>
          rw [hret] at hstep
          exact absurd hstep (by simp)
      | ok value =>
          rw [hret] at hstep
          obtain rfl := Option.some.inj hstep
          exact { h.idle call.client with
            returned := by
              intro r hr
              rcases List.mem_append.mp hr with hr | hr
              · exact h.returned r hr
              · rw [List.mem_singleton.mp hr]
                refine ⟨rfl, call, v, hlatest.1, hanswer, ?_⟩
                intro htype
                rw [← htype, stubReturn_response hcarries] at hret
                exact (Except.ok.inj hret).symm }

/-! ### The system's steps -/

theorem receive_broker {s : Net E} {packet : E.Buffer} {call : Option Nat} :
    receive w s ⟨⟨packet, w.broker.location⟩, call⟩ =
      brokerReceives s ⟨⟨packet, w.broker.location⟩, call⟩ := by
  simp [receive]

theorem receive_server {s : Net E} {packet : E.Buffer} {call : Option Nat} {d : Details}
    {node : ServerNode} (hd : w.server d = some node) :
    receive w s ⟨⟨packet, d.location⟩, call⟩ =
      serverReceives w d node s ⟨⟨packet, d.location⟩, call⟩ := by
  simp [receive, World.server_ne_broker hd, hd]

theorem receive_client {s : Net E} {packet : E.Buffer} {call : Option Nat} {c : Details}
    (hc : w.IsClient c) :
    receive w s ⟨⟨packet, c.location⟩, call⟩ =
      clientReceives c s ⟨⟨packet, c.location⟩, call⟩ := by
  simp [receive, hc.1, hc.2]

/-- What is pending under the key of a request comes from its own client. -/
theorem pending_source {s : Net E} {pend : List Request} (h : Inv w A s pend) {i n : Nat}
    {call : ClientCall} {packet : E.Buffer}
    (hm : s.flight[i]? = some ⟨⟨packet, w.broker.location⟩, some n⟩)
    (hlatest : Latest s.calls n call)
    (hcarries : E.Carries packet (requestHeaders call.client call.message_id call.op call.args))
    (hunclaimed : KeyUnclaimed w s i) :
    ∀ r ∈ pend, r.key = call.key → r.source = call.client.location := by
  intro r hr hkey
  have hid : 0 ≤ call.message_id := (h.clients call (List.mem_of_getElem? hlatest.1)).2
  have hentry : r.entry ∈ s.config.clnt_req_repo := by
    rw [h.pending]
    exact List.mem_map.mpr ⟨r, hr, rfl⟩
  exact hunclaimed _ hm rfl _ (reads_request hid hcarries) _ hentry
    (congrArg Key.message_id hkey) (congrArg (fun k : Key => Ptr.str k.operation) hkey)

/-- A packet is delivered. -/
theorem inv_deliver {s s' : Net E} {pend : List Request} (h : Inv w A s pend) {i : Nat}
    {m : Flight E.Buffer} (hm : s.flight[i]? = some m)
    (hunclaimed : KeyUnclaimed w s i) (hanswers : AnswersAt A w s i)
    (hstep : receive w { s with flight := s.flight.eraseIdx i } m = some s') :
    ∃ pend', Inv w A s' pend' := by
  have hlose := h.lose i
  have halone := h.alone hm
  cases h.flight m (List.mem_of_getElem? hm) with
  | registration hd hlen hcarries =>
      rw [receive_broker] at hstep
      exact ⟨_, inv_broker_registration hlose hd hlen hcarries hstep⟩
  | ack hd hcarries =>
      rw [receive_server hd] at hstep
      exact ⟨_, inv_server_ack hlose hcarries hstep⟩
  | request hlatest hcarries =>
      rw [receive_broker] at hstep
      exact ⟨_, inv_broker_request hlose hlatest hcarries (halone _ rfl)
        (pending_source h hm hlatest hcarries hunclaimed) hstep⟩
  | forwarded hlatest hd hcarries hpend =>
      rw [receive_server hd] at hstep
      exact ⟨_, inv_server_forwarded hlose hlatest hcarries hpend (halone _ rfl)
        (fun hregistered => hanswers _ hm _ rfl _ hd hregistered _ rfl _ hlatest.1) hstep⟩
  | response hlatest hanswer hcarries hpend =>
      rw [receive_broker] at hstep
      exact ⟨_, inv_broker_response hlose hlatest hanswer hcarries hpend (halone _ rfl) hstep⟩
  | reply hlatest hanswer hcarries =>
      have hclient := (h.clients _ (List.mem_of_getElem? hlatest.1)).1
      rw [receive_client hclient] at hstep
      exact ⟨_, inv_client_reply hlose hlatest hanswer hcarries hstep⟩

/-- **One step of the system** that keeps the calls apart keeps the invariant. -/
theorem inv_step {s s' : Net E} {a : Action} (h : ∃ pend, Inv w A s pend) (hapart : Apart w s a)
    (hanswers : ∀ i, a = .deliver i → AnswersAt A w s i) (hstep : step w s a = some s') :
    ∃ pend, Inv w A s' pend := by
  obtain ⟨pend, h⟩ := h
  cases a with
  | call client rand op params ret args =>
      rw [step] at hstep
      split at hstep
      next hguard =>
          obtain ⟨⟨hbroker, hserver⟩, -, hrand, htypes⟩ := hguard
          obtain ⟨ts, hts, hparse⟩ :=
            packClientRequestData_parse client rand op (stubFormat_fits htypes)
          rw [hts] at hstep
          obtain rfl := Option.some.inj hstep
          exact ⟨pend, inv_call h ⟨client, rand, op, args, ret⟩
            ⟨hbroker, Option.isNone_iff_eq_none.mp hserver⟩ hrand hapart
            (carries_of_parse hparse)⟩
      next => exact absurd hstep (by simp)
  | register d =>
      rw [step, Option.bind_eq_bind, Option.bind_eq_some_iff] at hstep
      obtain ⟨node, hd, hstep⟩ := hstep
      rw [Option.bind_eq_bind, Option.bind_eq_some_iff] at hstep
      obtain ⟨ts, hts, hstep⟩ := hstep
      obtain rfl := Option.some.inj hstep
      exact ⟨pend, inv_register h hd hts⟩
  | timeout client =>
      rw [step] at hstep
      split at hstep
      next => exact ⟨pend, Option.some.inj hstep ▸ h.idle client⟩
      next => exact absurd hstep (by simp)
  | deliver i =>
      rw [step, Option.bind_eq_bind, Option.bind_eq_some_iff] at hstep
      obtain ⟨m, hm, hstep⟩ := hstep
      exact inv_deliver h hm hapart (hanswers i rfl) hstep
  | lose i =>
      rw [step] at hstep
      split at hstep
      next => exact ⟨pend, Option.some.inj hstep ▸ h.lose i⟩
      next => exact absurd hstep (by simp)

/-! ### Every run -/

/-- **Replies reach the client that asked** in every state of every orderly run. -/
theorem replies_reach_caller (E : Libs) (w : World) {s : Net E}
    (h : Machine.Reached (step w) (Orderly w) .init s) : RepliesReachCaller w s := by
  have hinv : ∃ pend, Inv w (fun call v => IsAnswer w call v ∧ ReadBack call v) s pend := by
    refine h.invariant (P := fun s => ∃ pend, Inv w _ s pend) ⟨[], inv_init⟩ ?_
    intro s a t hs horderly hstep
    refine inv_step hs horderly.1 ?_ hstep
    intro i ha
    subst ha
    exact (answersAt_isAnswer s i).and horderly.2
  obtain ⟨pend, hinv⟩ := hinv
  exact hinv.repliesReachCaller

/-- A server of `add`. -/
def addWorld : World where
  broker := ⟨.lit "127.0.0.1", .lit "9090"⟩
  server := fun d =>
    if d = exampleServer then
      some {
        program := {
          protos := [⟨.int, .lit "add", [.int, .int]⟩]
          distinct := by decide
          result := fun _ args =>
            match args with
            | [.int x, .int y] => .int (x + y)
            | _ => .int 0 }
        services := [.lit "add"]
        named := by decide }
    else none
  apart := by decide

/-- `add(x, y)`, the first call of a client process. Nobody seeds `rand()`, so the
message id is the same for every such process. -/
def callAdd (client : Details) (x y : Int32) : Action :=
  .call client 1804289383 (.lit "add") [⟨.int, .lit "num1"⟩, ⟨.int, .lit "num2"⟩] .int [.int x, .int y]

/-- The server registers, and a client's call goes all the way. -/
theorem replies_reach_caller_add :
    ∃ s : Net Libs.reference, s.returned = [⟨0, some 0, .int 219⟩] ∧
      RepliesReachCaller addWorld s := by
  have hrun : ([.register exampleServer, .deliver 0, .deliver 0, callAdd exampleClient 20 199,
      .deliver 0, .deliver 0, .deliver 0, .deliver 0].foldlM (fun (s : Net Libs.reference) a =>
        if Orderly addWorld s a then step addWorld s a else none) .init).map Net.returned =
      some [⟨0, some 0, .int 219⟩] := rfl
  obtain ⟨s, hs, hreturned⟩ := Option.map_eq_some_iff.mp hrun
  refine ⟨s, hreturned, replies_reach_caller _ addWorld (.of_foldlM ?_ .start hs)⟩
  intro s a t hstep
  split at hstep
  next horderly => exact ⟨horderly, hstep⟩
  next => exact absurd hstep (by simp)

/-- A client asks for `add(1, 2)` before there is a server, and waits. When the
server is there another client asks for `add(3, 4)` under the same message id.
The response goes to the first, whose stub returns 7. -/
theorem replies_reach_caller_sameId :
    ¬ ∀ (E : Libs) (w : World) (s : Net E),
      Machine.Reached (step w) (fun _ _ => True) .init s → RepliesReachCaller w s := by
  intro h
  have hrun : ([callAdd exampleClient 1 2, .deliver 0, .register exampleServer, .deliver 0,
      .deliver 0, callAdd ⟨.lit "127.0.0.1", .lit "9092"⟩ 3 4, .deliver 0, .deliver 0, .deliver 0,
      .deliver 0].foldlM (step addWorld) (.init : Net Libs.reference)).map Net.returned =
      some [⟨0, some 1, .int 7⟩] := rfl
  obtain ⟨s, hs, hreturned⟩ := Option.map_eq_some_iff.mp hrun
  have hreach := h _ addWorld s (.of_foldlM (fun _ _ _ hstep => ⟨trivial, hstep⟩) .start hs)
  have htaken := (hreach.returned ⟨0, some 1, .int 7⟩ (by simp [hreturned])).1
  exact absurd htaken (by decide)

end RpcBroker
