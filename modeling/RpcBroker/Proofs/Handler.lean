import RpcBroker.Spec.History
/-!
# RpcBroker.Proofs.Handler

**What one packet does to the broker.** `Handled` lists it, one constructor for
each kind of packet, and `readData_iff` says that the handler `readData`
succeeds exactly as listed. Every result about runs of the broker takes a step
apart with `cases` on `Handled`; the readers and the nested loops of the handler
are not looked at again.

The two searches come out as list functions. The server for an operation is
the first registration that lists it (`serverFor`); the client of a response is
the first pending request with its id and operation, and it is that entry that
goes (`clientFor`, `List.eraseP`).
-/

namespace RpcBroker

open CLib Msgpack

variable {E : Libs}

/-! ### `Except` -/

/-- A sequence of two computations succeeds when both do. -/
theorem bind_eq_ok {α β ε : Type} {x : Except ε α} {f : α → Except ε β} {b : β} :
    (x >>= f) = .ok b ↔ ∃ a, x = .ok a ∧ f a = .ok b := by
  cases x with
  | error e => simp [bind, Except.bind]
  | ok a => simp [bind, Except.bind]

theorem pure_eq_ok {α ε : Type} {a b : α} : (pure a : Except ε α) = .ok b ↔ a = b := by
  simp [pure, Except.pure]

theorem mapError_eq_ok {α ε δ : Type} {x : Except ε α} {φ : ε → δ} {r : α} :
    x.mapError φ = .ok r ↔ x = .ok r := by
  cases x with
  | error e => simp [Except.mapError]
  | ok r => simp [Except.mapError]

/-! ### The two searches -/

/-- Where the first registration that lists an operation is. -/
def serverFor (E : Libs) (op_name : Ptr) (svc_repo : List ServiceReg) : Location :=
  match svc_repo.find? (listsService E op_name) with
  | some reg => ⟨reg.address, reg.port⟩
  | none => ⟨.null, .null⟩

/-- What is sent for a request: the packet itself, to the server for its
operation. -/
def forwards (E : Libs) (packet : E.Buffer) (op_name : Ptr) (svc_repo : List ServiceReg) :
    List (Sent E.Buffer) :=
  if (serverFor E op_name svc_repo).address = .null ∨ (serverFor E op_name svc_repo).port = .null
    then []
  else [⟨packet, serverFor E op_name svc_repo⟩]

/-- Has the pending request `entry` this id and operation? -/
def answers (E : Libs) (id : Int32) (op : Ptr) (entry : ClientReg) : Bool :=
  decide (id = entry.message_id) && E.strEquals op entry.operation

/-- Where the first pending request with this id and operation came from. -/
def clientFor (E : Libs) (id : Int32) (op : Ptr) (pending : List ClientReg) : Location :=
  match pending.find? (answers E id op) with
  | some entry => ⟨entry.address, entry.port⟩
  | none => ⟨.unassigned, .unassigned⟩

@[simp] theorem regClntReq_svc_repo (op : Ptr) (src : Location) (id : Int32) (config : Config) :
    (regClntReq op src id config).svc_repo = config.svc_repo := rfl

theorem findServerForReq_eq_ok {packet : E.Buffer} {config : Config} {dest : Location} :
    findServerForReq E packet config = .ok dest ↔
      ∃ op_name, getOpName E packet = .ok op_name ∧ dest = serverFor E op_name config.svc_repo := by
  unfold findServerForReq serverFor
  rw [bind_eq_ok]
  refine exists_congr fun op_name => and_congr_right fun _ => ?_
  cases config.svc_repo.find? (listsService E op_name) with
  | none => rw [pure_eq_ok, eq_comm]
  | some reg => rw [pure_eq_ok, eq_comm]

/-- With the packet's id and operation in hand, the loop over the pending
requests is a search and a removal. -/
theorem findClientLoop_eq {packet : E.Buffer} {id : Int32} {op : Ptr}
    (hid : getHdrInt E packet Hdr.messageId.text = .ok id)
    (hop : getHdrStr E packet Hdr.operation.text = .ok op) (dest : Location)
    (pending : List ClientReg) :
    findClientLoop E packet dest pending =
      .ok (match pending.find? (answers E id op) with
          | some entry => ⟨entry.address, entry.port⟩
          | none => dest,
        pending.eraseP (answers E id op)) := by
  induction pending with
  | nil => rfl
  | cons entry rest ih =>
      rw [findClientLoop, hid, hop]
      simp only [bind, Except.bind]
      cases hans : answers E id op entry with
      | true =>
          have hguard := hans
          rw [answers] at hguard
          rw [if_pos hguard, List.find?_cons_of_pos hans, List.eraseP_cons_of_pos hans]
          rfl
      | false =>
          have hneg : ¬ answers E id op entry = true := by simp [hans]
          have hguard := hneg
          rw [answers] at hguard
          rw [if_neg hguard, List.find?_cons_of_neg hneg, List.eraseP_cons_of_neg hneg, ih]
          rfl

/-- The loop reads the packet only if there is a pending request to compare it
with. -/
theorem findClientLoop_reads {packet : E.Buffer} {dest : Location} {pending : List ClientReg}
    {r : Location × List ClientReg} (h : findClientLoop E packet dest pending = .ok r)
    (hne : pending ≠ []) :
    ∃ id op, getHdrInt E packet Hdr.messageId.text = .ok id ∧
      getHdrStr E packet Hdr.operation.text = .ok op := by
  cases pending with
  | nil => exact absurd rfl hne
  | cons entry rest =>
      rw [findClientLoop, bind_eq_ok] at h
      obtain ⟨id, hid, h⟩ := h
      rw [bind_eq_ok] at h
      obtain ⟨op, hop, -⟩ := h
      exact ⟨id, op, hid, hop⟩

/-! ### One step of the broker -/

/-- `config` handles `packet` and becomes the second configuration; the list is
what it sends. -/
inductive Handled (E : Libs) (config : Config) (packet : E.Buffer) :
    Config → List (Sent E.Buffer) → Prop
  /-- A request is recorded as pending and, if a registered server lists its
  operation, forwarded to the first one. -/
  | request {entry : ClientReg} {op_name : Ptr}
      (htype : getReqType E packet = .ok RequestType.serviceRequest.code)
      (hread : RequestRead E packet entry) (hop : getOpName E packet = .ok op_name) :
      Handled E config packet
        { config with clnt_req_repo := config.clnt_req_repo ++ [entry] }
        (forwards E packet op_name config.svc_repo)
  /-- A registration is decoded and added, and acknowledged. -/
  | registration {scan : RegScan} {ack : Sent E.Buffer}
      (htype : getReqType E packet = .ok RequestType.serviceRegistration.code)
      (hscan : unpackServiceRegistrationBuffer E packet = .ok scan)
      (hack : sendSvcReqAck E packet = .ok ack) :
      Handled E config packet { config with svc_repo := config.svc_repo ++ [scan.reg] } [ack]
  /-- A response takes the first pending request it answers off the list and is
  forwarded to where that request came from. With no pending requests its
  headers are not read. -/
  | response {id : Int32} {op : Ptr}
      (htype : getReqType E packet = .ok RequestType.serviceRequestResponse.code)
      (hread : config.clnt_req_repo ≠ [] →
        getHdrInt E packet Hdr.messageId.text = .ok id ∧
          getHdrStr E packet Hdr.operation.text = .ok op) :
      Handled E config packet
        { config with clnt_req_repo := config.clnt_req_repo.eraseP (answers E id op) }
        [⟨packet, clientFor E id op config.clnt_req_repo⟩]
  /-- Any other packet is ignored. -/
  | ignored {t : Int32} (htype : getReqType E packet = .ok t)
      (hreq : t ≠ RequestType.serviceRequest.code)
      (hreg : t ≠ RequestType.serviceRegistration.code)
      (hresp : t ≠ RequestType.serviceRequestResponse.code) :
      Handled E config packet config []

/-- The part of the handler that deals with a request. -/
theorem request_eq_ok {config config' : Config} {packet : E.Buffer}
    {sent : List (Sent E.Buffer)} :
    (do
      let _op ← getHdrStr E packet Hdr.operation.text
      let sender ← getSenderAddress E packet
      let msg_id ← getHdrInt E packet Hdr.messageId.text
      let req_op ← getHdrStr E packet Hdr.operation.text
      let config := regClntReq req_op sender msg_id config
      let dest ← findServerForReq E packet config
      if dest.address = .null ∨ dest.port = .null then
        return (config, [])
      else
        return (config, [⟨packet, dest⟩])) = Except.ok (config', sent) ↔
      ∃ entry op_name, RequestRead E packet entry ∧ getOpName E packet = .ok op_name ∧
        config' = { config with clnt_req_repo := config.clnt_req_repo ++ [entry] } ∧
        sent = forwards E packet op_name config.svc_repo := by
  simp only [getSenderAddress, bind_eq_ok, pure_eq_ok, findServerForReq_eq_ok]
  constructor
  · intro h
    obtain ⟨_, -, _, ⟨port, hport, address, haddress, rfl⟩, id, hid, op, hop, dest,
      ⟨op_name, hname, rfl⟩, h⟩ := h
    refine ⟨⟨address, port, op, id⟩, op_name, ⟨hop, haddress, hport, hid⟩, hname, ?_⟩
    rw [regClntReq_svc_repo] at h
    unfold forwards
    by_cases hnull : (serverFor E op_name config.svc_repo).address = .null ∨
        (serverFor E op_name config.svc_repo).port = .null
    · rw [if_pos hnull] at h ⊢
      obtain ⟨rfl, rfl⟩ := Prod.mk.inj (pure_eq_ok.mp h)
      exact ⟨rfl, rfl⟩
    · rw [if_neg hnull] at h ⊢
      obtain ⟨rfl, rfl⟩ := Prod.mk.inj (pure_eq_ok.mp h)
      exact ⟨rfl, rfl⟩
  · intro h
    obtain ⟨entry, op_name, hread, hname, rfl, rfl⟩ := h
    refine ⟨_, hread.operation, _, ⟨_, hread.port, _, hread.address, rfl⟩, _,
      hread.message_id, _, hread.operation, _, ⟨op_name, hname, rfl⟩, ?_⟩
    rw [regClntReq_svc_repo, forwards]
    split <;> rfl

/-- **The handler, step by step.** `readData` succeeds exactly in the ways
`Handled` lists. -/
theorem readData_iff {config config' : Config} {packet : E.Buffer}
    {sent : List (Sent E.Buffer)} :
    readData E config packet = .ok (config', sent) ↔ Handled E config packet config' sent := by
  unfold readData
  rw [bind_eq_ok]
  constructor
  · intro h
    obtain ⟨t, htype, h⟩ := h
    by_cases hreq : t = RequestType.serviceRequest.code
    · rw [if_pos hreq, request_eq_ok] at h
      obtain ⟨entry, op_name, hread, hop, rfl, rfl⟩ := h
      exact .request (hreq ▸ htype) hread hop
    · rw [if_neg hreq] at h
      by_cases hreg : t = RequestType.serviceRegistration.code
      · simp only [if_pos hreg, regSvcReq, bind_eq_ok, pure_eq_ok] at h
        obtain ⟨_, ⟨scan, hscan, ack, hack, rfl⟩, h⟩ := h
        obtain ⟨rfl, rfl⟩ := Prod.mk.inj h
        exact .registration (hreg ▸ htype) hscan hack
      · rw [if_neg hreg] at h
        by_cases hresp : t = RequestType.serviceRequestResponse.code
        · simp only [if_pos hresp, findClientForResponse, bind_eq_ok, pure_eq_ok] at h
          obtain ⟨_, ⟨⟨dest, rest⟩, hloop, rfl⟩, h⟩ := h
          obtain ⟨rfl, rfl⟩ := Prod.mk.inj h
          -- With nothing pending the packet is not read: any id and operation do.
          by_cases hne : config.clnt_req_repo = []
          · rw [hne] at hloop
            obtain ⟨rfl, rfl⟩ := Prod.mk.inj (Except.ok.inj hloop)
            have hstep := @Handled.response E config packet 0 .null (hresp ▸ htype) (absurd hne)
            simpa [hne, clientFor] using hstep
          · obtain ⟨id, op, hid, hop⟩ := findClientLoop_reads hloop hne
            rw [findClientLoop_eq hid hop] at hloop
            obtain ⟨rfl, rfl⟩ := Prod.mk.inj (Except.ok.inj hloop)
            exact .response (hresp ▸ htype) fun _ => ⟨hid, hop⟩
        · rw [if_neg hresp] at h
          obtain ⟨rfl, rfl⟩ := Prod.mk.inj (pure_eq_ok.mp h)
          exact .ignored htype hreq hreg hresp
  · intro h
    cases h with
    | @request entry op_name htype hread hop =>
        refine ⟨_, htype, ?_⟩
        rw [if_pos rfl, request_eq_ok]
        exact ⟨entry, op_name, hread, hop, rfl, rfl⟩
    | @registration scan ack htype hscan hack =>
        refine ⟨_, htype, ?_⟩
        rw [if_neg (by decide), if_pos rfl]
        simp only [regSvcReq, bind_eq_ok, pure_eq_ok]
        exact ⟨_, ⟨scan, hscan, ack, hack, rfl⟩, rfl⟩
    | @response id op htype hread =>
        refine ⟨_, htype, ?_⟩
        rw [if_neg (by decide), if_neg (by decide), if_pos rfl]
        simp only [findClientForResponse, bind_eq_ok, pure_eq_ok]
        by_cases hne : config.clnt_req_repo = []
        · rw [hne]
          exact ⟨_, ⟨(⟨.unassigned, .unassigned⟩, []), rfl, rfl⟩, rfl⟩
        · obtain ⟨hid, hop⟩ := hread hne
          exact ⟨_, ⟨_, findClientLoop_eq hid hop _ _, rfl⟩, rfl⟩
    | ignored htype hreq hreg hresp =>
        refine ⟨_, htype, ?_⟩
        rw [if_neg hreq, if_neg hreg, if_neg hresp]
        rfl

/-! ### Steps by event -/

theorem RequestRead.unique {packet : E.Buffer} {a b : ClientReg} (ha : RequestRead E packet a)
    (hb : RequestRead E packet b) : a = b := by
  have hop := Except.ok.inj (ha.operation.symm.trans hb.operation)
  have haddress := Except.ok.inj (ha.address.symm.trans hb.address)
  have hport := Except.ok.inj (ha.port.symm.trans hb.port)
  have hid := Except.ok.inj (ha.message_id.symm.trans hb.message_id)
  cases a
  cases b
  simp only [ClientReg.mk.injEq]
  exact ⟨haddress, hport, hop, hid⟩

/-- A packet has one request type. -/
theorem reqType_unique {packet : E.Buffer} {s t : RequestType}
    (hs : getReqType E packet = .ok s.code) (ht : getReqType E packet = .ok t.code) : s = t :=
  RequestType.code_inj.mp (Except.ok.inj (hs.symm.trans ht))

/-- A packet read as a request is handled as that request. -/
theorem handled_asked {config config' : Config} {packet : E.Buffer} {sent : List (Sent E.Buffer)}
    {r : Request} (hread : Reads E packet (.asked r)) (h : Handled E config packet config' sent) :
    config' = { config with clnt_req_repo := config.clnt_req_repo ++ [r.entry] } ∧
      ∃ op_name, getOpName E packet = .ok op_name ∧
        sent = forwards E packet op_name config.svc_repo := by
  cases hread with
  | asked htype hread =>
      cases h with
      | request htype' hread' hop =>
          rw [hread'.unique hread]
          exact ⟨rfl, _, hop, rfl⟩
      | registration htype' => exact absurd (reqType_unique htype htype') (by decide)
      | response htype' => exact absurd (reqType_unique htype htype') (by decide)
      | ignored htype' hreq => exact absurd (Except.ok.inj (htype'.symm.trans htype)) hreq

/-- A packet read as a response is handled as that response. -/
theorem handled_answered {config config' : Config} {packet : E.Buffer}
    {sent : List (Sent E.Buffer)} {k : Key} (hread : Reads E packet (.answered k))
    (h : Handled E config packet config' sent) :
    config' = { config with clnt_req_repo :=
        config.clnt_req_repo.eraseP (answers E k.message_id (.str k.operation)) } ∧
      sent = [⟨packet, clientFor E k.message_id (.str k.operation) config.clnt_req_repo⟩] := by
  cases hread with
  | answered htype hid hop =>
      cases h with
      | request htype' => exact absurd (reqType_unique htype htype') (by decide)
      | registration htype' => exact absurd (reqType_unique htype htype') (by decide)
      | ignored htype' _ _ hresp =>
          exact absurd (Except.ok.inj (htype'.symm.trans htype)) hresp
      | @response id op htype' hread' =>
          by_cases hne : config.clnt_req_repo = []
          · simp [hne, clientFor]
          · obtain ⟨hid', hop'⟩ := hread' hne
            rw [Except.ok.inj (hid.symm.trans hid'), Except.ok.inj (hop.symm.trans hop')]
            exact ⟨rfl, rfl⟩

/-- No other packet touches the pending requests. -/
theorem handled_other {config config' : Config} {packet : E.Buffer}
    {sent : List (Sent E.Buffer)} (hread : Reads E packet .other)
    (h : Handled E config packet config' sent) : config'.clnt_req_repo = config.clnt_req_repo := by
  cases hread with
  | other htype hreq hresp =>
      cases h with
      | request htype' => exact absurd (Except.ok.inj (htype.symm.trans htype')) hreq
      | response htype' => exact absurd (Except.ok.inj (htype.symm.trans htype')) hresp
      | registration => rfl
      | ignored => rfl

end RpcBroker
