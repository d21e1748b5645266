import RpcBroker.Proofs.Readings
/-!
# RpcBroker.Proofs.Serving

**Requests and the acknowledgement**, in whatever order a server handles them.

A server can be asked as soon as the broker has added it to the registry, and the
acknowledgement travels on a connection of its own. A request that is handled
before it is turned away by the guard on `isRegistered`; one handled after it is
passed on (`served_iff_acknowledged`).
-/

namespace RpcBroker

open CLib Msgpack

variable {E : Libs}

/-! ### The guard -/

/-- Is the packet an acknowledgement? -/
def IsAck (E : Libs) (packet : E.Buffer) : Prop :=
  getReqType E packet = .ok RequestType.serviceRegistrationAck.code

/-- The handler follows its branch: it makes calls in one of them only, and what it
leaves in `isRegistered` is what the branch says. -/
theorem readAndProcess_branch (program : ServerProgram) (broker : Details) (isRegistered : Bool)
    (packet : E.Buffer) :
    readAndProcessDataOnSocket E program broker isRegistered packet =
      processBranch E isRegistered packet >>= fun p =>
        match p.2 with
        | .marshalCall => do
            let calls ← unpackMarshalCallSend E packet broker
            return do
              let sents ← calls.mapM (callMarshelResponseSend E program)
              some (p.1, sents.flatten)
        | _ => return some (p.1, []) := by
  unfold readAndProcessDataOnSocket processBranch
  cases getReqType E packet with
  | error e => rfl
  | ok t =>
      simp only [bind, Except.bind, pure, Except.pure]
      split
      · rfl
      · split
        · rfl
        · cases isRegistered <;> rfl

/-- An acknowledgement sets `isRegistered`; nothing clears it. -/
theorem processBranch_flag {isRegistered isRegistered' : Bool} {packet : E.Buffer} {b : Branch}
    (h : processBranch E isRegistered packet = .ok (isRegistered', b)) :
    isRegistered' = true ↔ isRegistered = true ∨ IsAck E packet := by
  unfold processBranch at h
  obtain ⟨t, htype, h⟩ := bind_eq_ok.mp h
  rw [IsAck, htype, Except.ok.injEq]
  split at h
  next hack =>
      obtain ⟨rfl, -⟩ := Prod.mk.inj (pure_eq_ok.mp h)
      simp [hack]
  next hack =>
      split at h
      · obtain ⟨rfl, -⟩ := Prod.mk.inj (pure_eq_ok.mp h)
        simp [hack]
      · obtain ⟨rfl, -⟩ := Prod.mk.inj (pure_eq_ok.mp h)
        simp [hack]

/-- So with the handler. -/
theorem readAndProcess_flag {program : ServerProgram} {broker : Details}
    {isRegistered isRegistered' : Bool} {packet : E.Buffer} {sents : List (Sent E.Buffer)}
    (h : readAndProcessDataOnSocket E program broker isRegistered packet =
      .ok (some (isRegistered', sents))) :
    isRegistered' = true ↔ isRegistered = true ∨ IsAck E packet := by
  rw [readAndProcess_branch] at h
  obtain ⟨⟨flag, branch⟩, hbranch, h⟩ := bind_eq_ok.mp h
  have hflag : flag = isRegistered' := by
    cases branch with
    | marshalCall =>
        obtain ⟨calls, -, h⟩ := bind_eq_ok.mp h
        obtain ⟨outs, -, h⟩ := Option.bind_eq_some_iff.mp (pure_eq_ok.mp h)
        exact (Prod.mk.inj (Option.some.inj h)).1
    | registered => exact (Prod.mk.inj (Option.some.inj (pure_eq_ok.mp h))).1
    | notRegistered => exact (Prod.mk.inj (Option.some.inj (pure_eq_ok.mp h))).1
    | unknown => exact (Prod.mk.inj (Option.some.inj (pure_eq_ok.mp h))).1
  exact hflag ▸ processBranch_flag hbranch

/-- A request is passed on if `isRegistered` is set, and turned away if not. -/
theorem processBranch_request {isRegistered isRegistered' : Bool} {packet : E.Buffer} {b : Branch}
    (htype : getReqType E packet = .ok RequestType.serviceRequest.code)
    (h : processBranch E isRegistered packet = .ok (isRegistered', b)) :
    b = if isRegistered then .marshalCall else .notRegistered := by
  unfold processBranch at h
  rw [htype] at h
  cases isRegistered with
  | true => exact (Prod.mk.inj (Except.ok.inj h)).2.symm
  | false => exact (Prod.mk.inj (Except.ok.inj h)).2.symm

/-- After any packets, `isRegistered` is set if it was before or an acknowledgement
is among them. -/
theorem run_flag {isRegistered isRegistered' : Bool} {packets : List E.Buffer}
    {branches : List Branch}
    (h : Machine.run (processBranch E) isRegistered packets = .ok (isRegistered', branches)) :
    isRegistered' = true ↔ isRegistered = true ∨ ∃ packet ∈ packets, IsAck E packet := by
  induction packets generalizing isRegistered branches with
  | nil =>
      obtain ⟨rfl, -⟩ := Prod.mk.inj (Except.ok.inj h)
      simp
  | cons packet packets ih =>
      obtain ⟨middle, b, branches', hstep, hrest, rfl⟩ := Machine.run_cons.mp h
      rw [ih hrest, processBranch_flag hstep, List.exists_mem_cons_iff, or_assoc]

/-! ### What the broker sends a server -/

/-- Whatever the broker sends has a request type. -/
theorem sent_typed {config config' : Config} {packet : E.Buffer} {sent : List (Sent E.Buffer)}
    (h : readData E config packet = .ok (config', sent)) :
    ∀ s ∈ sent, ∃ t, getReqType E s.packet = .ok t := by
  cases readData_iff.mp h with
  | @request entry op_name htype hread hop =>
      intro s hs
      unfold forwards at hs
      split at hs
      · exact absurd hs (by simp)
      · obtain rfl := List.mem_singleton.mp hs
        exact ⟨_, htype⟩
  | @registration scan ack htype hscan hack =>
      simp only [sendSvcReqAck, bind_eq_ok, pure_eq_ok] at hack
      obtain ⟨id, -, port, -, address, -, rfl⟩ := hack
      intro s hs
      obtain rfl := List.mem_singleton.mp hs
      exact ⟨_, getReqType_ofInt (carries_of_parse (packSvcReqAck_parse id))⟩
  | @response id op htype hread =>
      intro s hs
      obtain rfl := List.mem_singleton.mp hs
      exact ⟨_, htype⟩
  | ignored => exact fun s hs => absurd hs (by simp)

/-- The packets handed to `send_req` for an endpoint, in order. -/
def sentTo (server : Location) (sent : List (Sent E.Buffer)) : List E.Buffer :=
  (sent.filter fun s => decide (s.dest = server)).map Sent.packet

/-! ### Every order -/

/-- **A request is served exactly when the acknowledgement was handled before
it.** The broker adds a registration, sends the acknowledgement, and then handles
any number of packets. In whatever order the server, which starts unregistered,
handles what the broker sent it, it gets through all of it; a request is passed to
`unpack_marshal_call_send` if an acknowledgement came before it, and is discarded
as "Not registered yet" if none did. -/
theorem served_iff_acknowledged (E : Libs) {config config' : Config} {registration : E.Buffer}
    {packets : List E.Buffer} {ack : E.Buffer} {server : Location}
    {outs : List (List (Sent E.Buffer))}
    (hrun : brokerRun E config (registration :: packets) = .ok (config', [⟨ack, server⟩] :: outs))
    {order : List E.Buffer} (horder : order.Perm (ack :: sentTo server outs.flatten)) :
    ∃ isRegistered branches,
      Machine.run (processBranch E) false order = .ok (isRegistered, branches) ∧
      ∀ before packet after, order = before ++ packet :: after →
        getReqType E packet = .ok RequestType.serviceRequest.code →
        ((∃ a ∈ before, IsAck E a) → branches[before.length]? = some .marshalCall) ∧
        ((¬ ∃ a ∈ before, IsAck E a) → branches[before.length]? = some .notRegistered) := by
  have htyped : ∀ packet ∈ order, ∃ t, getReqType E packet = .ok t := by
    have hall := Machine.run_outputs hrun fun _ _ _ _ => sent_typed
    rw [List.forall_mem_cons] at hall
    intro packet hmem
    rcases List.mem_cons.mp (horder.mem_iff.mp hmem) with rfl | hsent
    · exact hall.1 _ (List.mem_singleton_self _)
    · obtain ⟨s, hs, rfl⟩ := List.mem_map.mp hsent
      obtain ⟨sent, hsents, hs'⟩ := List.mem_flatten.mp (List.mem_filter.mp hs).1
      exact hall.2 sent hsents s hs'
  have hreturns : ∃ r, Machine.run (processBranch E) false order = .ok r := by
    refine Machine.run_returns_iff.mpr ?_
    intro before packet after isRegistered branches hsplit _
    obtain ⟨t, ht⟩ := htyped packet (by simp [hsplit])
    unfold processBranch
    rw [ht]
    simp only [bind, Except.bind, pure, Except.pure]
    split
    · exact ⟨_, rfl⟩
    · split <;> exact ⟨_, rfl⟩
  obtain ⟨⟨isRegistered, branches⟩, hserver⟩ := hreturns
  refine ⟨isRegistered, branches, hserver, ?_⟩
  intro before packet after hsplit htype
  rw [hsplit] at hserver
  obtain ⟨flag, us, flag', b, vs, hbefore, hstep, -, hat⟩ := Machine.run_at hserver
  -- What came before decides the flag, and the flag decides the branch.
  have hflag := run_flag hbefore
  have hbranch := processBranch_request htype hstep
  rw [hat, hbranch]
  refine ⟨?_, ?_⟩
  · intro hack
    rw [if_pos (hflag.mpr (Or.inr hack))]
  · intro hnone
    have hclear : ¬ flag = true := fun hset => (hflag.mp hset).elim (by simp) hnone
    rw [if_neg hclear]

/-- The acknowledgement of a server's registration of `add`. -/
def addAck : Libs.reference.Buffer := packetOf (ackHeaders 0)

/-- The broker acknowledges the registration and forwards a request. -/
theorem brokerRun_add :
    ∃ config, brokerRun Libs.reference .init [addRegistration, addRequest] = .ok (config,
      [[⟨addAck, exampleServer.location⟩], [⟨addRequest, exampleServer.location⟩]]) :=
  ⟨_, rfl⟩

/-- The request is handled behind the acknowledgement. -/
theorem served_add :
    ∃ isRegistered branches, Machine.run (processBranch Libs.reference) false [addAck, addRequest] =
      .ok (isRegistered, branches) ∧ branches[1]? = some .marshalCall := by
  obtain ⟨config, hrun⟩ := brokerRun_add
  have horder : [addAck, addRequest].Perm (addAck :: sentTo exampleServer.location
      [[⟨addRequest, exampleServer.location⟩]].flatten) := .refl _
  obtain ⟨isRegistered, branches, hserver, hserved⟩ :=
    served_iff_acknowledged Libs.reference hrun horder
  refine ⟨isRegistered, branches, hserver, ?_⟩
  exact (hserved [addAck] addRequest [] rfl rfl).1 ⟨addAck, List.mem_singleton_self _, rfl⟩

/-- Handled before the acknowledgement, it is dropped. -/
theorem served_tooEarly :
    ¬ ∀ (E : Libs) (config config' : Config) (registration : E.Buffer) (packets : List E.Buffer)
        (ack : E.Buffer) (server : Location) (outs : List (List (Sent E.Buffer)))
        (order : List E.Buffer),
      brokerRun E config (registration :: packets) = .ok (config', [⟨ack, server⟩] :: outs) →
      order.Perm (ack :: sentTo server outs.flatten) →
      ∃ isRegistered branches,
        Machine.run (processBranch E) false order = .ok (isRegistered, branches) ∧
        ∀ (before : List E.Buffer) packet after, order = before ++ packet :: after →
          getReqType E packet = .ok RequestType.serviceRequest.code →
          branches[before.length]? = some Branch.marshalCall := by
  intro h
  obtain ⟨config, hrun⟩ := brokerRun_add
  have horder : [addRequest, addAck].Perm (addAck :: sentTo exampleServer.location
      [[⟨addRequest, exampleServer.location⟩]].flatten) := .swap _ _ _
  obtain ⟨isRegistered, branches, hserver, hserved⟩ := h Libs.reference _ _ _ _ _ _ _ _ hrun horder
  have hbranches : Machine.run (processBranch Libs.reference) false [addRequest, addAck] =
      .ok (true, [.notRegistered, .registered]) := rfl
  obtain ⟨-, rfl⟩ := Prod.mk.inj (Except.ok.inj (hbranches.symm.trans hserver))
  have hfirst := hserved [] addRequest [addAck] rfl rfl
  exact absurd hfirst (by simp)

end RpcBroker
