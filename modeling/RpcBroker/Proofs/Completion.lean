import RpcBroker.Proofs.RemoteCalls
import RpcBroker.Proofs.Routing
import RpcBroker.Proofs.Serving
/-!
# RpcBroker.Proofs.Completion

**No call is forgotten**: in a run in which nothing is lost, nobody gives up and every
stub that is called has a function behind it, each call has returned what the function
returns or has a packet under way that can be delivered next (`calls_get_through`). So
when nothing is under way, every call has returned.

A call goes through four stages (`OnItsWay`). A delivery takes the call of its packet to
the next one (`OnItsWay.advance`) and leaves the others where they are, because handling
a packet only adds to the state (`Extends`).
-/

namespace RpcBroker

open CLib Msgpack Machine

variable {E : Libs} {w : World} {s s' : Net E}

/-! ### What handling a packet leaves alone -/

/-- `s'` has everything `s` has, and who waits is what it was but for the endpoint of
the packet `m`. -/
structure Extends (m : Flight E.Buffer) (s s' : Net E) : Prop where
  calls : s'.calls = s.calls
  registry : s.config.svc_repo <+: s'.config.svc_repo
  registered : ∀ d, s.registered d = true → s'.registered d = true
  flight : s.flight <+: s'.flight
  returned : s.returned <+: s'.returned
  waiting : ∀ c, m.sent.dest ≠ c.location → s'.waiting c = s.waiting c

theorem Extends.refl (m : Flight E.Buffer) (s : Net E) : Extends m s s :=
  ⟨rfl, List.prefix_rfl, fun _ h => h, List.prefix_rfl, List.prefix_rfl, fun _ _ => rfl⟩

theorem brokerReceives_extends {m : Flight E.Buffer} (h : brokerReceives s m = some s') :
    Extends m s s' := by
  obtain ⟨config, sents, hread, rfl⟩ := brokerReceives_some h
  refine ⟨rfl, ?_, fun _ h => h, List.prefix_append .., List.prefix_rfl, fun _ _ => rfl⟩
  show s.config.svc_repo <+: config.svc_repo
  rw [readData_registry hread]
  exact List.prefix_append ..

theorem serverReceives_extends {d : Details} {node : ServerNode} {m : Flight E.Buffer}
    (h : serverReceives w d node s m = some s') : Extends m s s' := by
  obtain ⟨isRegistered, sents, hread, rfl⟩ := serverReceives_some h
  refine ⟨rfl, List.prefix_rfl, ?_, List.prefix_append .., List.prefix_rfl, fun _ _ => rfl⟩
  intro d' hd'
  show Function.update s.registered d isRegistered d' = true
  rw [Function.update_apply]
  split
  next heq =>
      rw [← heq, hd'] at hread
      exact (readAndProcess_flag hread).mpr (Or.inl rfl)
  next => exact hd'

theorem clientReceives_extends {c : Details} {m : Flight E.Buffer}
    (hdest : m.sent.dest = c.location) (h : clientReceives c s m = some s') : Extends m s s' := by
  unfold clientReceives at h
  cases hwaiting : s.waiting c with
  | none =>
      rw [hwaiting] at h
      exact Option.some.inj h ▸ .refl m s
  | some n =>
      rw [hwaiting] at h
      obtain ⟨call, -, h⟩ := Option.bind_eq_some_iff.mp h
      cases hret : stubReturn E call.ret m.sent.packet with
      | error e =>
          rw [hret] at h
          exact absurd h (by simp)
      | ok value =>
          rw [hret] at h
          obtain rfl := Option.some.inj h
          refine ⟨rfl, List.prefix_rfl, fun _ h => h, List.prefix_rfl, List.prefix_append .., ?_⟩
          intro c' hc'
          refine Function.update_of_ne ?_ ..
          intro heq
          obtain rfl := heq
          exact hc' hdest

theorem location_of_details? {l : Location} {d : Details} (h : l.details? = some d) :
    l = d.location := by
  unfold Location.details? at h
  split at h
  next haddress hport =>
      obtain rfl := Option.some.inj h
      cases l
      exact Location.mk.injEq .. ▸ ⟨haddress, hport⟩
  next => exact absurd h (by simp)

/-- **Handling a packet only adds.** -/
theorem receive_extends {m : Flight E.Buffer} (h : receive w s m = some s') : Extends m s s' := by
  unfold receive at h
  split at h
  next => exact Option.some.inj h ▸ .refl m s
  next d hd =>
      split at h
      · exact brokerReceives_extends h
      · split at h
        next => exact serverReceives_extends h
        next => exact clientReceives_extends (location_of_details? hd) h

/-! ### Backed calls -/

/-- A registration that is found stays the first. -/
theorem serverFor_prefix {svc_repo svc_repo' : List ServiceReg} (h : svc_repo <+: svc_repo')
    {op_name : Ptr} {d : Details} (hrouted : serverFor E op_name svc_repo = d.location) :
    serverFor E op_name svc_repo' = d.location := by
  obtain ⟨more, rfl⟩ := h
  unfold serverFor at hrouted ⊢
  rw [List.find?_append]
  cases hfind : svc_repo.find? (listsService E op_name) with
  | none =>
      rw [hfind] at hrouted
      exact absurd (Location.mk.inj hrouted).1 (by simp)
  | some reg =>
      rw [hfind] at hrouted
      exact hrouted

/-- A call with a function behind it: the server the broker sends its requests to takes
these arguments, none of them negative, and returns what the stub expects. -/
structure Backed (w : World) (s : Net E) (call : ClientCall) (d : Details) (node : ServerNode)
    (proto : Proto) : Prop where
  serves : Serves w s call.op d node proto
  params : proto.params = call.args.map Arg.type
  args : ∀ i, .int i ∈ call.args → 0 ≤ i
  type : (node.program.result call.op call.args).type = proto.ret
  ret : proto.ret = call.ret

variable {m : Flight E.Buffer} {n : Nat} {call : ClientCall} {d : Details} {node : ServerNode}
  {proto : Proto} {pend : List Request}

/-- It stays backed whatever is handled. -/
theorem Backed.extends (hext : Extends m s s') (h : Backed w s call d node proto) :
    Backed w s' call d node proto :=
  { h with
    serves := { h.serves with
      registered := hext.registered d h.serves.registered
      routed := serverFor_prefix hext.registry h.serves.routed } }

/-- A packet of the call `n`, which the server at `d` answers. -/
inductive OnItsWay (w : World) (call : ClientCall) (n : Nat) (d : Details) (node : ServerNode) :
    Flight E.Buffer → Prop
  | request {packet : E.Buffer} (hcarries : E.Carries packet
      (requestHeaders call.client call.message_id call.op call.args)) :
      OnItsWay w call n d node ⟨⟨packet, w.broker.location⟩, some n⟩
  | forwarded {packet : E.Buffer} (hcarries : E.Carries packet
      (requestHeaders call.client call.message_id call.op call.args)) :
      OnItsWay w call n d node ⟨⟨packet, d.location⟩, some n⟩
  | response {packet : E.Buffer} (hcarries : E.Carries packet
      (responseHeaders call.op call.message_id (node.program.result call.op call.args))) :
      OnItsWay w call n d node ⟨⟨packet, w.broker.location⟩, some n⟩
  | reply {packet : E.Buffer} (hcarries : E.Carries packet
      (responseHeaders call.op call.message_id (node.program.result call.op call.args))) :
      OnItsWay w call n d node ⟨⟨packet, call.client.location⟩, some n⟩

theorem OnItsWay.call_eq (h : OnItsWay w call n d node m) : m.call = some n := by
  cases h <;> rfl

/-- The call has returned what the function returns, or its client waits and a packet of
it is under way. -/
def GetsThrough (w : World) (s : Net E) (call : ClientCall) (n : Nat) (d : Details)
    (node : ServerNode) : Prop :=
  (⟨n, some n, (node.program.result call.op call.args).received⟩ : Return) ∈ s.returned ∨
    s.waiting call.client = some n ∧ ∃ m ∈ s.flight, OnItsWay w call n d node m

/-! ### One delivery -/

/-- What is pending under the key of a call is its own request. -/
theorem clientFor_pending (h : Inv w (IsAnswer w) s pend) (hpend : call.request ∈ pend) :
    clientFor E call.message_id (.str call.op) s.config.clnt_req_repo = call.client.location := by
  have hentry := clientFor_map_entry (E := E) call.key pend
  have hfind : pend.find? (Request.hasKey call.key) = some call.request := find?_request h hpend rfl
  rw [hfind, ← h.pending] at hentry
  exact hentry

/-- The request a response to the broker answers is pending. -/
theorem Content.pending {calls : List ClientCall} (h : Content w (IsAnswer w) calls pend m)
    (hclient : w.IsClient call.client) (hn : m.call = some n) (hcall : calls[n]? = some call)
    (hdest : m.sent.dest = w.broker.location) {v : Arg}
    (hcarries : E.Carries m.sent.packet (responseHeaders call.op call.message_id v)) :
    call.request ∈ pend := by
  have htype : getReqType E m.sent.packet = .ok RequestType.serviceRequestResponse.code :=
    getReqType_ofInt hcarries
  cases h with
  | registration => exact absurd hn (by simp)
  | ack => exact absurd hn (by simp)
  | request _ hc => exact absurd (reqType_unique htype (getReqType_ofInt hc)) (by decide)
  | forwarded _ _ hc => exact absurd (reqType_unique htype (getReqType_ofInt hc)) (by decide)
  | response hlatest _ _ hpend =>
      obtain rfl := Option.some.inj hn
      obtain rfl := Option.some.inj (hlatest.1.symm.trans hcall)
      exact hpend
  | reply hlatest =>
      obtain rfl := Option.some.inj hn
      obtain rfl := Option.some.inj (hlatest.1.symm.trans hcall)
      exact absurd (Details.location_inj.mp hdest) hclient.1

/-- **A delivery takes a call one stage further.** -/
theorem OnItsWay.advance (h : Inv w (IsAnswer w) s pend) (hcontent : Content w (IsAnswer w) s.calls pend m)
    (hbacked : Backed w s call d node proto) (hcall : s.calls[n]? = some call)
    (hwaiting : s.waiting call.client = some n) (hway : OnItsWay w call n d node m) :
    ∃ s', receive w s m = some s' ∧ GetsThrough w s' call n d node := by
  obtain ⟨hclient, hid⟩ := h.clients call (List.mem_of_getElem? hcall)
  cases hway with
  | request hcarries =>
      refine ⟨_, receive_broker.trans
        (brokerReceives_forwards hid hcarries hbacked.serves.routed), Or.inr ⟨hwaiting, ?_⟩⟩
      exact ⟨_, List.mem_append_right _ (List.mem_singleton_self _), .forwarded hcarries⟩
  | forwarded hcarries =>
      obtain ⟨response, hanswers, hresponse⟩ := serverReceives_answers (n := n) hbacked.serves hid
        hcarries hbacked.args hbacked.params hbacked.type
      refine ⟨_, (receive_server hbacked.serves.server).trans hanswers, Or.inr ⟨hwaiting, ?_⟩⟩
      exact ⟨_, List.mem_append_right _ (List.mem_singleton_self _), .response hresponse⟩
  | @response packet hcarries =>
      have hpend : call.request ∈ pend := hcontent.pending hclient rfl hcall rfl hcarries
      refine ⟨_, receive_broker.trans
        (brokerReceives_answers hid hcarries (clientFor_pending h hpend)), Or.inr ⟨hwaiting, ?_⟩⟩
      exact ⟨_, List.mem_append_right _ (List.mem_singleton_self _), .reply hcarries⟩
  | reply hcarries =>
      refine ⟨_, (receive_client hclient).trans (clientReceives_returns hwaiting hcall
        (hbacked.type.trans hbacked.ret) hcarries), Or.inl ?_⟩
      exact List.mem_append_right _ (List.mem_singleton_self _)

/-- Nobody but the call's own packets comes to a client that waits. -/
theorem dest_ne_of_waiting (h : Inv w (IsAnswer w) s pend) {i : Nat} (hm : s.flight[i]? = some m)
    (hcall : s.calls[n]? = some call) (hwaiting : s.waiting call.client = some n)
    {own : Flight E.Buffer} (hown : own ∈ s.flight.eraseIdx i) (hn : own.call = some n) :
    m.sent.dest ≠ call.client.location := by
  intro hdest
  have hclient := (h.clients call (List.mem_of_getElem? hcall)).1
  have hserver : ∀ {d : Details} {node : ServerNode}, w.server d = some node →
      d.location ≠ call.client.location := by
    intro d node hd heq
    rw [Details.location_inj.mp heq, hclient.2] at hd
    exact absurd hd (by simp)
  have hbroker : w.broker.location ≠ call.client.location :=
    fun heq => hclient.1 (Details.location_inj.mp heq).symm
  cases h.flight m (List.mem_of_getElem? hm) with
  | registration => exact hbroker hdest
  | ack hd => exact hserver hd hdest
  | request => exact hbroker hdest
  | forwarded _ hd => exact hserver hd hdest
  | response => exact hbroker hdest
  | @reply k other packet v hlatest =>
      -- The client waits for its latest call, so the reply is to the same one.
      obtain ⟨latest, hlast, hsame⟩ := h.waiting _ _ hwaiting
      obtain rfl : n = k := hlatest.unique hlast (hsame.trans (Details.location_inj.mp hdest).symm)
      exact h.alone hm n rfl own hown hn

/-! ### Every run -/

/-- What keeps calls apart and packets on their way, and sees to it that every call is
backed. -/
def Careful (w : World) (s : Net E) : Action → Prop
  | .call client rand op _ ret args => NothingUnderWay s client ∧
      ∃ d node proto, Backed w s ⟨client, rand, op, args, ret⟩ d node proto
  | .deliver i => KeyUnclaimed w s i
  | .register _ => True
  | .timeout _ => False
  | .lose _ => False

theorem Careful.apart {a : Action} (h : Careful w s a) : Apart w s a := by
  cases a with
  | call client rand op params ret args => exact h.1
  | deliver i => exact h
  | register d => trivial
  | timeout client => trivial
  | lose i => trivial

/-- Every call is backed, and gets through. -/
def AllGetThrough (w : World) (s : Net E) : Prop :=
  ∀ n call, s.calls[n]? = some call →
    ∃ d node proto, Backed w s call d node proto ∧ GetsThrough w s call n d node

/-- A delivery. -/
theorem getsThrough_deliver (h : Inv w (IsAnswer w) s pend) (hall : AllGetThrough w s) {i : Nat}
    (hm : s.flight[i]? = some m)
    (hstep : receive w { s with flight := s.flight.eraseIdx i } m = some s') :
    AllGetThrough w s' := by
  have hext := receive_extends hstep
  intro n call hcall
  rw [hext.calls] at hcall
  obtain ⟨d, node, proto, hbacked, hway⟩ := hall n call hcall
  have hkept : Backed w { s with flight := s.flight.eraseIdx i } call d node proto :=
    { hbacked with serves := { hbacked.serves with } }
  refine ⟨d, node, proto, hkept.extends hext, ?_⟩
  rcases hway with hreturned | ⟨hwaiting, own, hown, hway⟩
  · exact Or.inl (hext.returned.subset hreturned)
  · obtain ⟨hlt, hget⟩ := List.getElem?_eq_some_iff.mp hm
    have hsplit : own ∈ m :: s.flight.eraseIdx i := by
      rw [← hget]
      exact (List.getElem_cons_eraseIdx_perm hlt).mem_iff.mpr hown
    rcases List.mem_cons.mp hsplit with rfl | hother
    · obtain ⟨t, ht, hgets⟩ := hway.advance (h.lose i)
        (h.flight own (List.mem_of_getElem? hm)) hkept hcall hwaiting
      obtain rfl := Option.some.inj (hstep.symm.trans ht)
      exact hgets
    · have hne := dest_ne_of_waiting h hm hcall hwaiting hother hway.call_eq
      exact Or.inr ⟨(hext.waiting _ hne).trans hwaiting, own, hext.flight.subset hother, hway⟩

/-- A client calls a stub. -/
theorem getsThrough_call (hall : AllGetThrough w s) {packet : E.Buffer}
    (hidle : s.waiting call.client = none) (hbacked : Backed w s call d node proto)
    (hcarries : E.Carries packet (requestHeaders call.client call.message_id call.op call.args)) :
    AllGetThrough w ((s.asking call).send (some s.calls.length) [⟨packet, w.broker.location⟩]) := by
  intro n other hother
  have hkept : ∀ {other : ClientCall} {d : Details} {node : ServerNode} {proto : Proto},
      Backed w s other d node proto →
      Backed w ((s.asking call).send (some s.calls.length) [⟨packet, w.broker.location⟩]) other d
        node proto := fun hother => { hother with serves := { hother.serves with } }
  rcases Nat.lt_or_ge n s.calls.length with hlt | hge
  · have hold : s.calls[n]? = some other := (List.getElem?_append_left hlt).symm.trans hother
    obtain ⟨d, node, proto, hb, hway⟩ := hall n other hold
    refine ⟨d, node, proto, hkept hb, ?_⟩
    rcases hway with hreturned | ⟨hwaiting, own, hown, hway⟩
    · exact Or.inl hreturned
    · -- The client that calls was waiting for nothing.
      have hne : other.client ≠ call.client := by
        intro heq
        rw [heq, hidle] at hwaiting
        exact absurd hwaiting (by simp)
      exact Or.inr ⟨(Function.update_of_ne hne ..).trans hwaiting, own,
        List.mem_append_left _ hown, hway⟩
  · have hnew : [call][n - s.calls.length]? = some other :=
      (List.getElem?_append_right hge).symm.trans hother
    obtain rfl := List.mem_singleton.mp (List.mem_of_getElem? hnew)
    have hn : n = s.calls.length := by
      have hlt := (List.getElem?_eq_some_iff.mp hnew).1
      rw [List.length_singleton] at hlt
      omega
    subst hn
    exact ⟨d, node, proto, hkept hbacked, Or.inr ⟨Function.update_self .., _,
      List.mem_append_right _ (List.mem_singleton_self _), .request hcarries⟩⟩

/-- A server sends its registration. -/
theorem getsThrough_register (hall : AllGetThrough w s) (sent : Sent E.Buffer) :
    AllGetThrough w (s.send none [sent]) := by
  intro n call hcall
  obtain ⟨d, node, proto, hbacked, hway⟩ := hall n call hcall
  refine ⟨d, node, proto, { hbacked with serves := { hbacked.serves with } }, ?_⟩
  rcases hway with hreturned | ⟨hwaiting, own, hown, hway⟩
  · exact Or.inl hreturned
  · exact Or.inr ⟨hwaiting, own, List.mem_append_left _ hown, hway⟩

/-- One careful step. -/
theorem getsThrough_step {a : Action} (h : Inv w (IsAnswer w) s pend) (hall : AllGetThrough w s)
    (hcareful : Careful w s a) (hstep : step w s a = some s') : AllGetThrough w s' := by
  cases a with
  | call client rand op params ret args =>
      obtain ⟨-, d, node, proto, hbacked⟩ := hcareful
      rw [step] at hstep
      split at hstep
      next hguard =>
          obtain ⟨-, hidle, -, htypes⟩ := hguard
          obtain ⟨ts, hts, hparse⟩ :=
            packClientRequestData_parse client rand op (stubFormat_fits htypes)
          rw [hts] at hstep
          obtain rfl := Option.some.inj hstep
          exact getsThrough_call hall (Option.isNone_iff_eq_none.mp hidle) hbacked
            (carries_of_parse hparse)
      next => exact absurd hstep (by simp)
  | register d =>
      rw [step, Option.bind_eq_bind, Option.bind_eq_some_iff] at hstep
      obtain ⟨node, -, hstep⟩ := hstep
      rw [Option.bind_eq_bind, Option.bind_eq_some_iff] at hstep
      obtain ⟨ts, -, hstep⟩ := hstep
      exact Option.some.inj hstep ▸ getsThrough_register hall _
  | timeout client => exact hcareful.elim
  | deliver i =>
      rw [step, Option.bind_eq_bind, Option.bind_eq_some_iff] at hstep
      obtain ⟨m, hm, hstep⟩ := hstep
      exact getsThrough_deliver h hall hm hstep
  | lose i => exact hcareful.elim

/-- **No call is forgotten**: in every state of a careful run every call has a function
behind it, and has returned what that returns, or its client waits and a packet of the
call is under way, which can be delivered next. -/
theorem calls_get_through (E : Libs) (w : World) {s : Net E}
    (h : Reached (step w) (Careful w) .init s) {n : Nat} {call : ClientCall}
    (hcall : s.calls[n]? = some call) :
    ∃ d node proto, Backed w s call d node proto ∧
      ((⟨n, some n, (node.program.result call.op call.args).received⟩ : Return) ∈ s.returned ∨
        s.waiting call.client = some n ∧ ∃ i m s', s.flight[i]? = some m ∧ m.call = some n ∧
          step w s (.deliver i) = some s') := by
  have hinit : (∃ pend, Inv w (IsAnswer w) (Net.init : Net E) pend) ∧ AllGetThrough w (Net.init : Net E) :=
    ⟨⟨[], inv_init⟩, fun n call hcall => absurd hcall (by simp [Net.init])⟩
  have hinv : (∃ pend, Inv w (IsAnswer w) s pend) ∧ AllGetThrough w s := by
    refine h.invariant (P := fun s => (∃ pend, Inv w (IsAnswer w) s pend) ∧ AllGetThrough w s) hinit ?_
    intro s a t h hcareful hstep
    obtain ⟨⟨pend, hs⟩, hall⟩ := h
    exact ⟨inv_step ⟨pend, hs⟩ hcareful.apart (fun i _ => answersAt_isAnswer s i) hstep, getsThrough_step hs hall hcareful hstep⟩
  obtain ⟨⟨pend, hs⟩, hall⟩ := hinv
  obtain ⟨d, node, proto, hbacked, hway⟩ := hall n call hcall
  refine ⟨d, node, proto, hbacked, ?_⟩
  rcases hway with hreturned | ⟨hwaiting, own, hown, hway⟩
  · exact Or.inl hreturned
  · obtain ⟨i, hi⟩ := List.mem_iff_getElem?.mp hown
    have hkept : Backed w { s with flight := s.flight.eraseIdx i } call d node proto :=
      { hbacked with serves := { hbacked.serves with } }
    obtain ⟨t, ht, -⟩ := hway.advance (hs.lose i) (hs.flight own hown) hkept hcall hwaiting
    exact Or.inr ⟨hwaiting, i, own, t, hi, hway.call_eq, (step_deliver hi).trans ht⟩

/-- A step at which nothing is called and nothing lost. -/
def Action.isQuiet : Action → Bool
  | .register _ => true
  | .deliver _ => true
  | _ => false

/-- Such a step is careful if it keeps the calls apart. -/
theorem careful_of_quiet {a : Action} (hquiet : a.isQuiet = true) (h : Apart w s a) :
    Careful w s a := by
  cases a with
  | register d => trivial
  | deliver i => exact h
  | call client rand op params ret args => exact absurd hquiet (by simp [Action.isQuiet])
  | timeout client => exact absurd hquiet (by simp [Action.isQuiet])
  | lose i => exact absurd hquiet (by simp [Action.isQuiet])

/-- The server registers, and `add(20, 199)` is called. -/
theorem calls_get_through_add :
    ∃ s : Net Libs.reference, s.waiting exampleClient = some 0 ∧
      ∃ i t, step addWorld s (.deliver i) = some t := by
  let quietly : Net Libs.reference → Action → Option (Net Libs.reference) := fun s a =>
    if a.isQuiet = true ∧ Apart addWorld s a then step addWorld s a else none
  have hrun : ([.register exampleServer, .deliver 0, .deliver 0].foldlM quietly .init).map
      (fun s => (s.registered exampleServer, serverFor Libs.reference (.str (.lit "add"))
        s.config.svc_repo, s.flight.length, (step addWorld s (callAdd exampleClient 20 199)).map
          fun t => (t.calls, t.returned, t.waiting exampleClient))) =
      some (true, exampleServer.location, 0,
        some ([⟨exampleClient, 1804289383, .lit "add", [.int 20, .int 199], .int⟩], [], some 0)) := rfl
  obtain ⟨s, hs, hfacts⟩ := Option.map_eq_some_iff.mp hrun
  simp only [Prod.mk.injEq] at hfacts
  obtain ⟨hregistered, hrouted, hflight, hcall⟩ := hfacts
  obtain ⟨t, ht, hcall⟩ := Option.map_eq_some_iff.mp hcall
  simp only [Prod.mk.injEq] at hcall
  obtain ⟨hcalls, hreturned, hwaiting⟩ := hcall
  have hreached : Reached (step addWorld) (Careful addWorld) .init s := by
    refine .of_foldlM ?_ .start hs
    intro s a t hstep
    simp only [quietly] at hstep
    split at hstep
    next hsure => exact ⟨careful_of_quiet hsure.1 hsure.2, hstep⟩
    next => exact absurd hstep (by simp)
  have hcareful : Careful addWorld s (callAdd exampleClient 20 199) := by
    refine ⟨?_, exampleServer, _, ⟨.int, .lit "add", [.int, .int]⟩,
      ⟨rfl, hregistered, hrouted, List.mem_singleton_self _, rfl⟩, rfl, by simp, rfl, rfl⟩
    intro m hm
    rw [List.length_eq_zero_iff.mp hflight] at hm
    exact absurd hm (by simp)
  obtain ⟨d, node, proto, -, hreturned' | ⟨-, i, -, t', -, -, hstep⟩⟩ :=
    calls_get_through _ addWorld (hreached.step hcareful ht) (n := 0) (by rw [hcalls]; rfl)
  · rw [hreturned] at hreturned'
    exact absurd hreturned' (by simp)
  · exact ⟨t, hwaiting, i, t', hstep⟩

end RpcBroker
