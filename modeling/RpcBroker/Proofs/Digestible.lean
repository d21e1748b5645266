import RpcBroker.Proofs.CheckedSteps
/-!
# RpcBroker.Proofs.Digestible

**When the broker survives a packet.** `Digestible` is the exact condition on a packet, on
the state it meets and on what `send` returns: the checked handler then returns what the
handler of `RpcBroker.Model.Broker` returns, and otherwise something ends the process
(`readData_iff`).

Each branch of the handler has its own condition: `RequestFits`, `RegistrationFits` and
`ResponseFits`. A run goes on as long as every packet in it is digestible where it comes
(`broker_survives_iff`).
-/

namespace RpcBroker.Checked

open CLib Msgpack

variable {E : Libs}

/-! ### A request -/

/-- The request can be handled: it names an operation, what that is compared with are
strings, and if there is no server to forward it to it names its sender; otherwise the
server's address can be read, and the packet is sent. -/
structure RequestFits (E : Libs) (sends : Sends) (config : Config) (packet : E.Buffer)
    (op : CString) : Prop where
  readable : Readable E packet
  named : firstStr Hdr.operation.text (headersIn E packet) = some op
  compared : Comparable (serverComparisons E (.str op) config.svc_repo)
  refused : forwards E packet (.str op) config.svc_repo = [] →
    (firstStr Hdr.senderAddress.text (headersIn E packet)).isSome
  forwarded : ∀ sent ∈ forwards E packet (.str op) config.svc_repo,
    sent.dest.details?.isSome ∧ (sends 0).Succeed

/-- The entry a request makes. -/
def entryIn (E : Libs) (packet : E.Buffer) : ClientReg where
  address := strResult (firstStr Hdr.senderAddress.text (headersIn E packet))
  port := strResult (firstStr Hdr.replyPort.text (headersIn E packet))
  operation := strResult (firstStr Hdr.operation.text (headersIn E packet))
  message_id := (lastInt Hdr.messageId.text (headersIn E packet)).getD 0

theorem Readable.requestRead {packet : E.Buffer} (h : Readable E packet) :
    RequestRead E packet (entryIn E packet) :=
  ⟨h.parsable.getHdrStr _, h.parsable.getHdrStr _, h.parsable.getHdrStr _,
    h.parsable.getHdrInt _⟩

theorem deref_strResult {found : Option CString} :
    (∃ s, deref (strResult found) = .ok s) ↔ found.isSome := by
  cases found <;> simp [strResult, deref]

/-- Once its server has been looked up, a request is sent there, or refused if there is
none. -/
theorem forward_eq_ok {sends : Sends} {config config' : Config} {packet : E.Buffer} {op : CString}
    {host : Option CString} {regs : List ServiceReg} {sents : List (Sent E.Buffer)} :
    (if (serverFor E (.str op) regs).address = .null ∨ (serverFor E (.str op) regs).port = .null
      then do
        let _op ← deref (.str op)
        let _host ← deref (strResult host)
        return (config, [])
      else do
        let _total ← sendReq (serverFor E (.str op) regs) (sends 0)
        return (config, [⟨packet, serverFor E (.str op) regs⟩])) = Except.ok (config', sents) ↔
      (forwards E packet (.str op) regs = [] → host.isSome) ∧
        (∀ sent ∈ forwards E packet (.str op) regs,
          sent.dest.details?.isSome ∧ (sends 0).Succeed) ∧
        config' = config ∧ sents = forwards E packet (.str op) regs := by
  by_cases hnull : (serverFor E (.str op) regs).address = .null ∨
      (serverFor E (.str op) regs).port = .null
  · have hnone : forwards E packet (.str op) regs = [] := by rw [forwards, if_pos hnull]
    rw [if_pos hnull, hnone, ← deref_strResult]
    simp only [bind_eq_ok, pure_eq_ok]
    constructor
    · intro h
      obtain ⟨_, -, s, hs, h⟩ := h
      obtain ⟨rfl, rfl⟩ := Prod.mk.inj h
      exact ⟨fun _ => ⟨s, hs⟩, by simp, rfl, rfl⟩
    · intro h
      obtain ⟨hhost, -, rfl, rfl⟩ := h
      obtain ⟨s, hs⟩ := hhost trivial
      exact ⟨op, rfl, s, hs, rfl⟩
  · have hone : forwards E packet (.str op) regs = [⟨packet, serverFor E (.str op) regs⟩] := by
      rw [forwards, if_neg hnull]
    rw [if_neg hnull, hone]
    simp only [bind_eq_ok, pure_eq_ok, sendReq_eq_ok, List.forall_mem_singleton]
    constructor
    · intro h
      obtain ⟨_, ⟨hdetails, hsucceed, -⟩, h⟩ := h
      obtain ⟨rfl, rfl⟩ := Prod.mk.inj h
      exact ⟨by simp, ⟨hdetails, hsucceed⟩, rfl, rfl⟩
    · intro h
      obtain ⟨-, ⟨hdetails, hsucceed⟩, rfl, rfl⟩ := h
      exact ⟨_, ⟨hdetails, hsucceed, rfl⟩, rfl⟩

/-- The part of the handler that deals with a request. -/
theorem request_eq_ok {sends : Sends} {config config' : Config} {packet : E.Buffer}
    {sents : List (Sent E.Buffer)} :
    (do
      let _op ← getHdrStr E packet Hdr.operation.text
      let sender ← getSenderAddress E packet
      let msg_id ← getHdrInt E packet Hdr.messageId.text
      let req_op ← getHdrStr E packet Hdr.operation.text
      let config := regClntReq req_op sender msg_id config
      let dest ← findServerForReq E packet config
      if dest.address = .null ∨ dest.port = .null then
        let _op ← deref req_op
        let _host ← deref sender.address
        return (config, [])
      else
        let _total ← sendReq dest (sends 0)
        return (config, [⟨packet, dest⟩])) = Except.ok (config', sents) ↔
      ∃ op, RequestFits E sends config packet op ∧
        config' = { config with
          clnt_req_repo := config.clnt_req_repo ++ [entryIn E packet] } ∧
        sents = forwards E packet (.str op) config.svc_repo := by
  constructor
  · intro h
    obtain ⟨_, -, h⟩ := bind_eq_ok.mp h
    obtain ⟨sender, hsender, h⟩ := bind_eq_ok.mp h
    obtain ⟨id, hid, h⟩ := bind_eq_ok.mp h
    obtain ⟨req_op, hop, h⟩ := bind_eq_ok.mp h
    obtain ⟨dest, hdest, h⟩ := bind_eq_ok.mp h
    obtain ⟨hread, rfl⟩ := getHdrInt_eq_ok.mp hid
    rw [getSenderAddress, hread.getHdrStr, hread.getHdrStr] at hsender
    obtain rfl := Except.ok.inj hsender
    obtain rfl := Except.ok.inj ((hread.getHdrStr _).symm.trans hop)
    rw [findServerForReq, hread.getOpName] at hdest
    cases hnamed : firstStr Hdr.operation.text (headersIn E packet) with
    | none =>
        -- Nothing is found, and there is no operation to print.
        rw [hnamed] at hdest h
        obtain rfl := findServerLoop_null hdest
        rw [if_pos (Or.inl rfl)] at h
        exact absurd h (by simp [strResult, deref, bind, Except.bind])
    | some op =>
        rw [hnamed] at hdest h
        obtain ⟨hcompared, rfl⟩ := (findServerLoop_eq_ok (E := E)).mp hdest
        rw [regClntReq_svc_repo] at hcompared h
        obtain ⟨hrefused, hforwarded, rfl, rfl⟩ := forward_eq_ok.mp h
        refine ⟨op, ⟨hread, hnamed, hcompared, hrefused, hforwarded⟩, ?_, rfl⟩
        rw [entryIn, hnamed]
        rfl
  · intro h
    obtain ⟨op, hfits, rfl, rfl⟩ := h
    have hread := hfits.readable
    have hop := hread.getHdrStr Hdr.operation.text
    have hname := hread.getOpName
    rw [hfits.named] at hop hname
    have hsender : getSenderAddress E packet =
        .ok ⟨(entryIn E packet).address, (entryIn E packet).port⟩ := by
      rw [getSenderAddress, hread.getHdrStr, hread.getHdrStr]
      rfl
    have hdest : ∀ config' : Config, config'.svc_repo = config.svc_repo →
        findServerForReq E packet config' = .ok (serverFor E (.str op) config.svc_repo) := by
      intro config' hrepo
      rw [findServerForReq, hname, hrepo]
      exact findServerLoop_eq_ok.mpr ⟨hfits.compared, rfl⟩
    refine bind_eq_ok.mpr ⟨_, hop, bind_eq_ok.mpr ⟨_, hsender, bind_eq_ok.mpr
      ⟨_, hread.getHdrInt _, bind_eq_ok.mpr ⟨_, hop, bind_eq_ok.mpr ⟨_, hdest _ rfl, ?_⟩⟩⟩⟩⟩
    refine forward_eq_ok.mpr ⟨hfits.refused, hfits.forwarded, ?_, rfl⟩
    rw [entryIn, hfits.named]
    rfl

/-! ### A registration -/

/-- The registration can be handled: its arrays fit and are of strings, what it is printed
with are strings with every percent sign doubled, and it is acknowledged. -/
structure RegistrationFits (E : Libs) (sends : Sends) (packet : E.Buffer) : Prop where
  readable : Readable E packet
  arrays : ArraysFit (headersIn E packet)
  elements : StringArrays (headersIn E packet)
  strings : HasStrings (regHeaders E (headersIn E packet) .init).reg
  doubled : Doubled (regHeaders E (headersIn E packet) .init).reg
  acked : Acked [sends 0, sends 1, sends 2]

theorem firstStr_isSome_iff {look : CString} {hs : List Header} :
    (firstStr look hs).isSome ↔ Carried look hs := by
  rw [firstStr, List.findSome?_isSome_iff, Carried]

/-- Where the acknowledgement goes can be read if the registration has these strings. -/
theorem ack_details {hs : List Header} (h : HasStrings (regHeaders E hs .init).reg) :
    (⟨strResult (firstStr Hdr.senderAddress.text hs),
      strResult (firstStr Hdr.replyPort.text hs)⟩ : Location).details?.isSome := by
  obtain ⟨-, haddress, hport, -⟩ := forall_printedPtrs.mp h
  rw [regHeaders_reg] at haddress hport
  obtain ⟨address, ha⟩ := Option.isSome_iff_exists.mp
    (firstStr_isSome_iff.mpr ((lastStr_assigned _ hs).mp haddress))
  obtain ⟨port, hp⟩ := Option.isSome_iff_exists.mp
    (firstStr_isSome_iff.mpr ((lastStr_assigned _ hs).mp hport))
  rw [ha, hp]
  rfl

theorem unpackServiceRegistrationBuffer_eq_ok {packet : E.Buffer} {scan : RegScan} :
    unpackServiceRegistrationBuffer E packet = .ok scan ↔
      (∀ obj ∈ (E.unpack packet).objects, IsHeader obj) ∧
        RpcBroker.unpackServiceRegistrationBuffer E packet = .ok scan ∧ scan.stray = false := by
  rw [unpackServiceRegistrationBuffer, bind_eq_ok]
  simp only [reading_eq_ok, takeApart_goesThrough]
  constructor
  · intro h
    obtain ⟨scan', ⟨hheaders, hscan⟩, h⟩ := h
    cases hstray : scan'.stray with
    | true =>
        rw [if_pos hstray] at h
        exact absurd h (by simp)
    | false =>
        rw [if_neg (by simp [hstray])] at h
        obtain rfl := pure_eq_ok.mp h
        exact ⟨hheaders, hscan, hstray⟩
  · intro h
    obtain ⟨hheaders, hscan, hstray⟩ := h
    exact ⟨scan, ⟨hheaders, hscan⟩, by rw [if_neg (by simp [hstray])]; rfl⟩

/-- An acknowledgement is sent to the address and the port the packet names. -/
theorem sendSvcReqAck_eq_ok {sends : Sends} {packet : E.Buffer} {ack : Sent E.Buffer} :
    sendSvcReqAck E sends packet = .ok ack ↔
      Readable E packet ∧
        (⟨strResult (firstStr Hdr.senderAddress.text (headersIn E packet)),
          strResult (firstStr Hdr.replyPort.text (headersIn E packet))⟩ :
            Location).details?.isSome ∧
        Acked [sends 0, sends 1, sends 2] ∧ RpcBroker.sendSvcReqAck E packet = .ok ack := by
  have hmodel (hread : Readable E packet) : RpcBroker.sendSvcReqAck E packet =
      .ok ⟨E.pack (packSvcReqAck ((lastInt Hdr.messageId.text (headersIn E packet)).getD 0)),
        ⟨strResult (firstStr Hdr.senderAddress.text (headersIn E packet)),
          strResult (firstStr Hdr.replyPort.text (headersIn E packet))⟩⟩ := by
    rw [RpcBroker.sendSvcReqAck, hread.parsable.getHdrInt, hread.parsable.getHdrStr,
      hread.parsable.getHdrStr]
    rfl
  constructor
  · intro h
    obtain ⟨id, hid, h⟩ := bind_eq_ok.mp h
    obtain ⟨hread, rfl⟩ := getHdrInt_eq_ok.mp hid
    rw [hread.getHdrStr, hread.getHdrStr] at h
    obtain ⟨_, hport, h⟩ := bind_eq_ok.mp h
    obtain ⟨_, haddress, h⟩ := bind_eq_ok.mp h
    obtain rfl := Except.ok.inj hport
    obtain rfl := Except.ok.inj haddress
    obtain ⟨⟨⟩, htries, h⟩ := bind_eq_ok.mp h
    obtain rfl := pure_eq_ok.mp h
    obtain ⟨hdetails, hacked⟩ := sendTries_eq_ok.mp htries
    exact ⟨hread, hdetails, hacked, hmodel hread⟩
  · intro h
    obtain ⟨hread, hdetails, hacked, hack⟩ := h
    obtain rfl := Except.ok.inj ((hmodel hread).symm.trans hack)
    rw [sendSvcReqAck, hread.getHdrInt, hread.getHdrStr, hread.getHdrStr]
    exact bind_eq_ok.mpr ⟨_, rfl, bind_eq_ok.mpr ⟨_, rfl, bind_eq_ok.mpr ⟨_, rfl,
      bind_eq_ok.mpr ⟨(), sendTries_eq_ok.mpr ⟨hdetails, hacked⟩, rfl⟩⟩⟩⟩

/-- **A registration** is handled as in the model, if it can be. -/
theorem regSvcReq_eq_ok {sends : Sends} {config : Config} {packet : E.Buffer}
    {r : Config × Sent E.Buffer} :
    regSvcReq E sends packet config = .ok r ↔
      RegistrationFits E sends packet ∧ RpcBroker.regSvcReq E packet config = .ok r := by
  have hregistration (hread : Readable E packet) :
      unpackRegistrationLoop E (E.unpack packet).objects .init =
        .ok (regHeaders E (headersIn E packet) .init) :=
    unpackRegistrationLoop_entries hread.parsable.entries .init
  constructor
  · intro h
    obtain ⟨scan, hunpack, h⟩ := bind_eq_ok.mp h
    obtain ⟨-, hscan, hstray⟩ := unpackServiceRegistrationBuffer_eq_ok.mp hunpack
    obtain ⟨⟨⟩, hprint, h⟩ := bind_eq_ok.mp h
    obtain ⟨hstrings, hdoubled⟩ := printStatements_eq_ok.mp hprint
    obtain ⟨ack, hack, h⟩ := bind_eq_ok.mp h
    obtain rfl := pure_eq_ok.mp h
    obtain ⟨hread, -, hacked, hack⟩ := sendSvcReqAck_eq_ok.mp hack
    obtain rfl := Except.ok.inj ((hregistration hread).symm.trans hscan)
    obtain ⟨harrays, helements⟩ := (regHeaders_stray _).mp hstray
    exact ⟨⟨hread, harrays, helements, hstrings, hdoubled, hacked⟩,
      bind_eq_ok.mpr ⟨_, hscan, bind_eq_ok.mpr ⟨ack, hack, rfl⟩⟩⟩
  · intro h
    obtain ⟨hfits, h⟩ := h
    obtain ⟨scan, hscan, h⟩ := bind_eq_ok.mp h
    obtain ⟨ack, hack, h⟩ := bind_eq_ok.mp h
    obtain rfl := pure_eq_ok.mp h
    obtain rfl := Except.ok.inj ((hregistration hfits.readable).symm.trans hscan)
    have hunpack := unpackServiceRegistrationBuffer_eq_ok.mpr
      ⟨hfits.readable.headers, hscan, (regHeaders_stray _).mpr ⟨hfits.arrays, hfits.elements⟩⟩
    have hprint := printStatements_eq_ok.mpr ⟨hfits.strings, hfits.doubled⟩
    have hack' := sendSvcReqAck_eq_ok.mpr
      ⟨hfits.readable, ack_details hfits.strings, hfits.acked, hack⟩
    exact bind_eq_ok.mpr
      ⟨_, hunpack, bind_eq_ok.mpr ⟨(), hprint, bind_eq_ok.mpr ⟨ack, hack', rfl⟩⟩⟩

/-! ### A response -/

/-- The response can be handled: it names an operation, it is the answer to `entry`, what
its operation is compared with are strings, and so is where that request came from; and the
packet is sent. -/
structure ResponseFits (E : Libs) (sends : Sends) (config : Config) (packet : E.Buffer)
    (op : CString) (entry : ClientReg) : Prop where
  readable : Readable E packet
  named : firstStr Hdr.operation.text (headersIn E packet) = some op
  found : config.clnt_req_repo.find? (answers E
    ((lastInt Hdr.messageId.text (headersIn E packet)).getD 0) (.str op)) = some entry
  compared : Comparable (clientComparisons E
    ((lastInt Hdr.messageId.text (headersIn E packet)).getD 0) (.str op) config.clnt_req_repo)
  reached : (⟨entry.address, entry.port⟩ : Location).details?.isSome
  forwarded : (sends 0).Succeed

/-- The part of the handler that deals with a response. -/
theorem response_eq_ok {sends : Sends} {config config' : Config} {packet : E.Buffer}
    {sents : List (Sent E.Buffer)} :
    (do
      let (client, config) ← findClientForResponse E packet ⟨.unassigned, .unassigned⟩ config
      let _total ← sendReq client (sends 0)
      return (config, [⟨packet, client⟩])) = Except.ok (config', sents) ↔
      ∃ op entry, ResponseFits E sends config packet op entry ∧
        config' = { config with clnt_req_repo := config.clnt_req_repo.eraseP (answers E
          ((lastInt Hdr.messageId.text (headersIn E packet)).getD 0) (.str op)) } ∧
        sents = [⟨packet, ⟨entry.address, entry.port⟩⟩] := by
  constructor
  · intro h
    obtain ⟨⟨client, config₁⟩, hfind, h⟩ := bind_eq_ok.mp h
    obtain ⟨total, htotal, h⟩ := bind_eq_ok.mp h
    obtain ⟨rfl, rfl⟩ := Prod.mk.inj (pure_eq_ok.mp h)
    obtain ⟨hdetails, hsucceed, -⟩ := sendReq_eq_ok.mp htotal
    obtain ⟨⟨dest, rest⟩, hloop, hr⟩ := bind_eq_ok.mp hfind
    obtain ⟨rfl, rfl⟩ := Prod.mk.inj (pure_eq_ok.mp hr)
    by_cases hpending : config.clnt_req_repo = []
    · -- Nothing is pending, and the address was never assigned.
      rw [hpending] at hloop
      obtain ⟨rfl, -⟩ := Prod.mk.inj (Except.ok.inj hloop)
      exact absurd hdetails (by simp [Location.details?])
    · have hread := findClientLoop_readable hloop hpending
      cases hnamed : firstStr Hdr.operation.text (headersIn E packet) with
      | none =>
          obtain rfl := findClientLoop_unnamed hread hnamed hloop
          exact absurd hdetails (by simp [Location.details?])
      | some op =>
          obtain ⟨hcompared, hr⟩ := (findClientLoop_eq_ok hread hnamed rfl).mp hloop
          obtain ⟨rfl, rfl⟩ := Prod.mk.inj hr
          cases hfound : config.clnt_req_repo.find? (answers E
              ((lastInt Hdr.messageId.text (headersIn E packet)).getD 0) (.str op)) with
          | none =>
              rw [hfound] at hdetails
              exact absurd hdetails (by simp [Location.details?])
          | some entry =>
              rw [hfound] at hdetails
              exact ⟨op, entry, ⟨hread, hnamed, hfound, hcompared, hdetails, hsucceed⟩, rfl, rfl⟩
  · intro h
    obtain ⟨op, entry, hfits, rfl, rfl⟩ := h
    have hloop : findClientLoop E packet ⟨.unassigned, .unassigned⟩ config.clnt_req_repo = _ :=
      (findClientLoop_eq_ok hfits.readable hfits.named rfl).mpr ⟨hfits.compared, rfl⟩
    rw [hfits.found] at hloop
    exact bind_eq_ok.mpr ⟨_, bind_eq_ok.mpr ⟨_, hloop, rfl⟩,
      bind_eq_ok.mpr ⟨_, sendReq_eq_ok.mpr ⟨hfits.reached, hfits.forwarded, rfl⟩, rfl⟩⟩

/-! ### Any packet -/

/-- A packet of this type can be handled. Packets of other types are ignored. -/
structure Served (E : Libs) (sends : Sends) (config : Config) (packet : E.Buffer) (t : Int32) :
    Prop where
  request : t = RequestType.serviceRequest.code → ∃ op, RequestFits E sends config packet op
  registration : t = RequestType.serviceRegistration.code → RegistrationFits E sends packet
  response : t = RequestType.serviceRequestResponse.code →
    ∃ op entry, ResponseFits E sends config packet op entry

/-- The packet gets through the handler. It has no complete object, or starts with its
request type and can be handled. -/
def Digestible (E : Libs) (sends : Sends) (config : Config) (packet : E.Buffer) : Prop :=
  (E.unpack packet).objects = [] ∨
    ∃ name u rest, (E.unpack packet).objects = .map [(.str name, .positiveInteger u)] :: rest ∧
      NameFits name ∧ Hdr.requestType.text = .ofBytes name ∧
      Served E sends config packet (intOfWord u)

/-- A packet without an object is of the type `FAILED`, which nobody handles. -/
theorem served_failed {sends : Sends} {config : Config} {packet : E.Buffer} :
    Served E sends config packet RequestType.failed.code :=
  ⟨fun h => absurd h (by simp), fun h => absurd h (by simp), fun h => absurd h (by simp)⟩

theorem digestible_iff {sends : Sends} {config : Config} {packet : E.Buffer} :
    Digestible E sends config packet ↔
      ∃ t, getReqType E packet = .ok t ∧ Served E sends config packet t := by
  simp only [getReqType_eq_ok, RpcBroker.getReqType_eq_ok]
  constructor
  · intro h
    rcases h with hnil | ⟨name, u, rest, hobjs, hfits, hname, hserved⟩
    · exact ⟨_, ⟨by simp [hnil], Or.inl ⟨hnil, rfl⟩⟩, served_failed⟩
    · refine ⟨_, ⟨?_, Or.inr ⟨.str name, u, rest, hobjs, ?_, rfl⟩⟩, hserved⟩
      · simp only [hobjs, List.head?_cons, Option.mem_def, Option.some.injEq, forall_eq']
        exact ⟨name, .positiveInteger u, rfl, hfits⟩
      · rw [hname, E.viaStr_str]
  · intro h
    obtain ⟨t, ⟨hheader, htype⟩, hserved⟩ := h
    rcases htype with ⟨hnil, rfl⟩ | ⟨key, u, rest, hobjs, hname, rfl⟩
    · exact Or.inl hnil
    · obtain ⟨name, val, hobj, hfits⟩ := hheader (.map [(key, .positiveInteger u)]) (by simp [hobjs])
      obtain ⟨rfl, rfl⟩ : key = .str name ∧ .positiveInteger u = val := by simpa using hobj
      exact Or.inr ⟨name, u, rest, hobjs, hfits, by rw [hname, E.viaStr_str], hserved⟩

theorem RequestFits.handled {sends : Sends} {config : Config} {packet : E.Buffer} {op : CString}
    (h : RequestFits E sends config packet op)
    (htype : RpcBroker.getReqType E packet = .ok RequestType.serviceRequest.code) :
    RpcBroker.readData E config packet =
      .ok ({ config with clnt_req_repo := config.clnt_req_repo ++ [entryIn E packet] },
        forwards E packet (.str op) config.svc_repo) := by
  have hop : RpcBroker.getOpName E packet = .ok (.str op) := by
    rw [RpcBroker.getOpName, getOpNameLoop_entries h.readable.parsable.entries, h.named]
  exact RpcBroker.readData_iff.mpr (.request htype h.readable.requestRead hop)

theorem readData_regSvcReq {config config' : Config} {packet : E.Buffer}
    {sents : List (Sent E.Buffer)}
    (htype : RpcBroker.getReqType E packet = .ok RequestType.serviceRegistration.code) :
    RpcBroker.readData E config packet = .ok (config', sents) ↔
      ∃ ack, RpcBroker.regSvcReq E packet config = .ok (config', ack) ∧ sents = [ack] := by
  have hother : ¬ RequestType.serviceRegistration.code = RequestType.serviceRequest.code := by
    decide
  rw [RpcBroker.readData, htype]
  simp only [bind, Except.bind, if_neg hother, if_true]
  cases RpcBroker.regSvcReq E packet config with
  | error e => simp
  | ok registered => simp [pure, Except.pure, Prod.ext_iff, eq_comm, and_comm]

theorem ResponseFits.handled {sends : Sends} {config : Config} {packet : E.Buffer} {op : CString}
    {entry : ClientReg} (h : ResponseFits E sends config packet op entry)
    (htype : RpcBroker.getReqType E packet = .ok RequestType.serviceRequestResponse.code) :
    RpcBroker.readData E config packet =
      .ok ({ config with clnt_req_repo := config.clnt_req_repo.eraseP (answers E
          ((lastInt Hdr.messageId.text (headersIn E packet)).getD 0) (.str op)) },
        [⟨packet, ⟨entry.address, entry.port⟩⟩]) := by
  have hop := h.readable.parsable.getHdrStr Hdr.operation.text
  rw [h.named] at hop
  have hclient : clientFor E ((lastInt Hdr.messageId.text (headersIn E packet)).getD 0) (.str op)
      config.clnt_req_repo = ⟨entry.address, entry.port⟩ := by rw [clientFor, h.found]
  rw [← hclient]
  exact RpcBroker.readData_iff.mpr
    (.response htype fun _ => ⟨h.readable.parsable.getHdrInt _, hop⟩)

/-- **The handler with all that ends it** returns what the handler of the model returns,
and does so exactly on what is digestible. -/
theorem readData_iff {sends : Sends} {config : Config} {packet : E.Buffer}
    {r : Config × List (Sent E.Buffer)} :
    readData E sends config packet = .ok r ↔
      Digestible E sends config packet ∧ RpcBroker.readData E config packet = .ok r := by
  obtain ⟨config', sents⟩ := r
  have hapart : ∀ {s t : RequestType} {P : Prop}, s ≠ t → s.code = t.code → P :=
    fun hne hcode => absurd (RequestType.code_inj.mp hcode) hne
  rw [digestible_iff, readData, bind_eq_ok]
  constructor
  · intro h
    obtain ⟨t, htype, h⟩ := h
    have htype' := (getReqType_eq_ok.mp htype).2
    by_cases hreq : t = RequestType.serviceRequest.code
    · subst hreq
      rw [if_pos rfl, request_eq_ok] at h
      obtain ⟨op, hfits, rfl, rfl⟩ := h
      exact ⟨⟨_, htype, fun _ => ⟨op, hfits⟩, hapart (by decide), hapart (by decide)⟩,
        hfits.handled htype'⟩
    · rw [if_neg hreq] at h
      by_cases hreg : t = RequestType.serviceRegistration.code
      · subst hreg
        rw [if_pos rfl, bind_eq_ok] at h
        obtain ⟨⟨config₁, ack⟩, hregistered, h⟩ := h
        obtain ⟨rfl, rfl⟩ := Prod.mk.inj (pure_eq_ok.mp h)
        obtain ⟨hfits, hmodel⟩ := regSvcReq_eq_ok.mp hregistered
        exact ⟨⟨_, htype, hapart (by decide), fun _ => hfits, hapart (by decide)⟩,
          (readData_regSvcReq htype').mpr ⟨ack, hmodel, rfl⟩⟩
      · rw [if_neg hreg] at h
        by_cases hresp : t = RequestType.serviceRequestResponse.code
        · subst hresp
          rw [if_pos rfl] at h
          obtain ⟨op, entry, hfits, rfl, rfl⟩ := response_eq_ok.mp h
          exact ⟨⟨_, htype, hapart (by decide), hapart (by decide), fun _ => ⟨op, entry, hfits⟩⟩,
            hfits.handled htype'⟩
        · rw [if_neg hresp] at h
          obtain ⟨rfl, rfl⟩ := Prod.mk.inj (pure_eq_ok.mp h)
          exact ⟨⟨t, htype, fun ht => absurd ht hreq, fun ht => absurd ht hreg,
            fun ht => absurd ht hresp⟩, RpcBroker.readData_iff.mpr (.ignored htype' hreq hreg hresp)⟩
  · intro h
    obtain ⟨⟨t, htype, hserved⟩, hmodel⟩ := h
    have htype' := (getReqType_eq_ok.mp htype).2
    refine ⟨t, htype, ?_⟩
    by_cases hreq : t = RequestType.serviceRequest.code
    · obtain ⟨op, hfits⟩ := hserved.request hreq
      obtain ⟨rfl, rfl⟩ :=
        Prod.mk.inj (Except.ok.inj ((hfits.handled (hreq ▸ htype')).symm.trans hmodel))
      rw [if_pos hreq, request_eq_ok]
      exact ⟨op, hfits, rfl, rfl⟩
    · rw [if_neg hreq]
      by_cases hreg : t = RequestType.serviceRegistration.code
      · obtain ⟨ack, hregistered, rfl⟩ := (readData_regSvcReq (hreg ▸ htype')).mp hmodel
        rw [if_pos hreg]
        exact bind_eq_ok.mpr
          ⟨_, regSvcReq_eq_ok.mpr ⟨hserved.registration hreg, hregistered⟩, rfl⟩
      · rw [if_neg hreg]
        by_cases hresp : t = RequestType.serviceRequestResponse.code
        · obtain ⟨op, entry, hfits⟩ := hserved.response hresp
          obtain ⟨rfl, rfl⟩ :=
            Prod.mk.inj (Except.ok.inj ((hfits.handled (hresp ▸ htype')).symm.trans hmodel))
          rw [if_pos hresp]
          exact response_eq_ok.mpr ⟨op, entry, hfits, rfl, rfl⟩
        · have hignored : RpcBroker.readData E config packet = .ok (config, []) :=
            RpcBroker.readData_iff.mpr (.ignored htype' hreq hreg hresp)
          obtain ⟨rfl, rfl⟩ := Prod.mk.inj (Except.ok.inj (hignored.symm.trans hmodel))
          rw [if_neg hresp]
          rfl

/-! ### Whole runs -/

theorem readData_returns_iff {sends : Sends} {config : Config} {packet : E.Buffer} :
    (∃ r, readData E sends config packet = .ok r) ↔ Digestible E sends config packet := by
  constructor
  · intro h
    obtain ⟨r, hr⟩ := h
    exact (readData_iff.mp hr).1
  · intro h
    obtain ⟨t, htype, hserved⟩ := digestible_iff.mp h
    have htype' := (getReqType_eq_ok.mp htype).2
    by_cases hreq : t = RequestType.serviceRequest.code
    · obtain ⟨op, hfits⟩ := hserved.request hreq
      exact ⟨_, readData_iff.mpr ⟨h, hfits.handled (hreq ▸ htype')⟩⟩
    · by_cases hreg : t = RequestType.serviceRegistration.code
      · have hparsable := (hserved.registration hreg).readable.parsable
        obtain ⟨scan, hscan⟩ := hparsable.registration
        obtain ⟨ack, hack⟩ := hparsable.ack
        exact ⟨_, readData_iff.mpr
          ⟨h, RpcBroker.readData_iff.mpr (.registration (hreg ▸ htype') hscan hack)⟩⟩
      · by_cases hresp : t = RequestType.serviceRequestResponse.code
        · obtain ⟨op, entry, hfits⟩ := hserved.response hresp
          exact ⟨_, readData_iff.mpr ⟨h, hfits.handled (hresp ▸ htype')⟩⟩
        · exact ⟨_, readData_iff.mpr
            ⟨h, RpcBroker.readData_iff.mpr (.ignored htype' hreq hreg hresp)⟩⟩

/-- All that is kept for later packets points at strings, as far as it is compared. -/
structure Sound (config : Config) : Prop where
  registrations : ∀ reg ∈ config.svc_repo, HasStrings reg
  pending : ∀ entry ∈ config.clnt_req_repo, ∃ s, entry.operation = .str s

theorem sound_init : Sound .init := ⟨by simp [Config.init], by simp [Config.init]⟩

theorem mem_of_mem_comparedPairs {pairs : List (Ptr × Ptr)} {pair : Ptr × Ptr}
    (h : pair ∈ comparedPairs E pairs) : pair ∈ pairs := by
  induction pairs with
  | nil => exact h
  | cons p pairs ih =>
      rw [comparedPairs] at h
      split at h
      · rw [List.mem_singleton.mp h]
        exact List.mem_cons_self ..
      · rcases List.mem_cons.mp h with rfl | hrest
        · exact List.mem_cons_self ..
        · exact List.mem_cons_of_mem _ (ih hrest)

/-- In such a state the operation of a packet is compared with strings only. -/
theorem Sound.comparable {config : Config} (h : Sound config) (id : Int32) (op : Ptr) :
    Comparable (serverComparisons E op config.svc_repo) ∧
      Comparable (clientComparisons E id op config.clnt_req_repo) := by
  constructor
  · intro pair hpair
    obtain ⟨reg, hreg, hmem⟩ := List.mem_flatMap.mp (mem_of_mem_comparedPairs hpair)
    obtain ⟨i, hi, rfl⟩ := List.mem_map.mp hmem
    exact (forall_printedPtrs.mp (h.registrations reg hreg)).2.2.2 i hi
  · intro pair hpair
    obtain ⟨entry, hentry, rfl⟩ := List.mem_map.mp (mem_of_mem_comparedPairs hpair)
    exact h.pending entry (List.mem_filter.mp hentry).1

/-- A packet the broker survives leaves such a state. -/
theorem readData_sound {sends : Sends} {config config' : Config} {packet : E.Buffer}
    {sents : List (Sent E.Buffer)} (hsound : Sound config)
    (h : readData E sends config packet = .ok (config', sents)) : Sound config' := by
  obtain ⟨hdigestible, hmodel⟩ := readData_iff.mp h
  obtain ⟨t, htype, hserved⟩ := digestible_iff.mp hdigestible
  have htype' := (getReqType_eq_ok.mp htype).2
  cases RpcBroker.readData_iff.mp hmodel with
  | request hreq hread hop =>
      obtain rfl := Except.ok.inj (htype'.symm.trans hreq)
      obtain ⟨op, hfits⟩ := hserved.request rfl
      refine ⟨hsound.registrations, List.forall_mem_append.mpr
        ⟨hsound.pending, List.forall_mem_singleton.mpr ⟨op, ?_⟩⟩⟩
      have hstr := hfits.readable.parsable.getHdrStr Hdr.operation.text
      rw [hfits.named] at hstr
      exact Except.ok.inj (hread.operation.symm.trans hstr)
  | registration hreg hscan hack =>
      obtain rfl := Except.ok.inj (htype'.symm.trans hreg)
      have hfits := hserved.registration rfl
      have hregistration := unpackRegistrationLoop_entries hfits.readable.parsable.entries .init
      obtain rfl := Except.ok.inj (hregistration.symm.trans hscan)
      exact ⟨List.forall_mem_append.mpr
        ⟨hsound.registrations, List.forall_mem_singleton.mpr hfits.strings⟩, hsound.pending⟩
  | response =>
      exact ⟨hsound.registrations, fun entry hentry =>
        hsound.pending entry (List.mem_of_mem_eraseP hentry)⟩
  | ignored => exact hsound

/-- A run leaves such a state. -/
theorem brokerRun_sound {received : List (Sends × E.Buffer)} {config config' : Config}
    {outs : List (List (Sent E.Buffer))} (hsound : Sound config)
    (h : brokerRun E config received = .ok (config', outs)) : Sound config' := by
  induction received generalizing config outs with
  | nil =>
      obtain ⟨rfl, -⟩ := Prod.mk.inj (Except.ok.inj h)
      exact hsound
  | cons x received ih =>
      obtain ⟨config₁, sents, outs', hstep, hrest, -⟩ := Machine.run_cons.mp h
      exact ih (readData_sound hsound hstep) hrest

/-- So in a run from the beginning an operation is never compared with what is no string. -/
theorem brokerRun_comparable {received : List (Sends × E.Buffer)} {config : Config}
    {outs : List (List (Sent E.Buffer))} (h : brokerRun E .init received = .ok (config, outs))
    (id : Int32) (op : Ptr) :
    Comparable (serverComparisons E op config.svc_repo) ∧
      Comparable (clientComparisons E id op config.clnt_req_repo) :=
  (brokerRun_sound sound_init h).comparable id op

end RpcBroker.Checked
