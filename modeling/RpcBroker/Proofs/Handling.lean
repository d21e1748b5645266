import RpcBroker.Proofs.Outstanding
/-!
# RpcBroker.Proofs.Handling

**What each program does with the messages of the others**, as one equation for
each handler and message: the broker with requests, responses and registrations, a
server with acknowledgements and requests, a client's stub with responses.

The invariants above these say where a packet goes; the equations here say that it
gets there. Only a server's stub may have no defined value for what it is asked to
read (`StubReads`, `readAndProcess_returns_iff`).
-/

namespace RpcBroker

open CLib Msgpack

variable {E : Libs} {config : Config} {packet : E.Buffer}

/-! ### The broker -/

theorem readData_request {client : Details} {id : Int32} (hid : 0 ≤ id) {op : CString}
    {args : List Arg} (hcarries : E.Carries packet (requestHeaders client id op args)) :
    readData E config packet =
      .ok ({ config with clnt_req_repo :=
          config.clnt_req_repo ++ [(⟨client.location, ⟨id, op⟩⟩ : Request).entry] },
        forwards E packet (.str op) config.svc_repo) := by
  have hop : getOpName E packet = .ok (.str op) := by
    rw [getOpName_carries hcarries]
    simp [requestHeaders, firstStr_cons]
  cases reads_request hid hcarries with
  | asked htype hread => exact readData_iff.mpr (.request htype hread hop)

theorem readData_response {id : Int32} (hid : 0 ≤ id) {op : CString} {v : Arg}
    (hcarries : E.Carries packet (responseHeaders op id v)) :
    readData E config packet =
      .ok ({ config with
          clnt_req_repo := config.clnt_req_repo.eraseP (answers E id (.str op)) },
        [⟨packet, clientFor E id (.str op) config.clnt_req_repo⟩]) := by
  cases reads_response hid hcarries with
  | answered htype hread hop => exact readData_iff.mpr (.response htype fun _ => ⟨hread, hop⟩)

/-- A registration is added, and acknowledged to the server it is of. -/
theorem readData_ownRegistration (config : Config) {d : Details} {services : List CString}
    (hcarries : E.Carries packet (registrationHeaders d services)) :
    ∃ ack, readData E config packet =
        .ok ({ config with svc_repo := config.svc_repo ++
          [(regHeaders E (registrationHeaders d services) .init).reg] }, [⟨ack, d.location⟩]) ∧
      E.Carries ack (ackHeaders 0) := by
  have hack : sendSvcReqAck E packet = .ok ⟨E.pack (packSvcReqAck 0), d.location⟩ := by
    have htype := Header.int?_ofInt .messageId .requestType RequestType.serviceRegistration.code
    have hcount := Header.int?_ofInt .messageId .servicesCount (Int32.ofNat services.length)
    simp only [sendSvcReqAck, bind_eq_ok, pure_eq_ok]
    refine ⟨0, ?_, _, getHdrStr_carries hcarries _, _, getHdrStr_carries hcarries _, ?_⟩
    · rw [getHdrInt_carries hcarries]
      simp [registrationHeaders, lastInt_cons, htype, hcount]
    · simp [registrationHeaders, firstStr_cons, Details.location]
  exact ⟨_, readData_iff.mpr (.registration (getReqType_ofInt hcarries)
    (unpackServiceRegistrationBuffer_carries hcarries) hack), carries_of_parse (packSvcReqAck_parse 0)⟩

/-! ### A server -/

variable {program : ServerProgram} {broker : Details}

theorem readAndProcess_ackHeaders {id : Int32} {isRegistered : Bool}
    (hcarries : E.Carries packet (ackHeaders id)) :
    readAndProcessDataOnSocket E program broker isRegistered packet = .ok (some (true, [])) := by
  have htype : getReqType E packet = .ok RequestType.serviceRegistrationAck.code :=
    getReqType_ofInt hcarries
  rw [readAndProcessDataOnSocket, htype]
  rfl

/-- A server that has not been acknowledged drops requests. -/
theorem readAndProcess_unregistered {client : Details} {id : Int32} {op : CString}
    {args : List Arg} (hcarries : E.Carries packet (requestHeaders client id op args)) :
    readAndProcessDataOnSocket E program broker false packet = .ok (some (false, [])) := by
  have htype : getReqType E packet = .ok RequestType.serviceRequest.code := getReqType_ofInt hcarries
  rw [readAndProcessDataOnSocket, htype]
  rfl

/-- The functions of the program return what they are declared to return. -/
def ServerProgram.Typed (program : ServerProgram) : Prop :=
  ∀ proto ∈ program.protos, ∀ as, (program.result proto.name as).type = proto.ret

/-- The stub of `op`, if there is one, reads nothing but what these arguments are sent
as. -/
def StubReads (program : ServerProgram) (op : CString) (args : List Arg) : Prop :=
  ∀ proto ∈ program.protos, proto.name = op →
    (readParams proto.params ((args.map Arg.object).map ParamPtr.ofObject)).isSome

/-- The block of another function does nothing. -/
theorem stubBlock_other {call : Call} {op : CString} (hop : call.operation = .str op)
    {proto : Proto} (hname : op ≠ proto.name) : stubBlock E program call proto = some [] := by
  rw [stubBlock, hop, Stulibc.strEquals_str, decide_eq_false hname, if_neg (by simp)]

/-- The block of the function that is called sends its response. -/
theorem stubBlock_called {call : Call} {id : Int32} {proto : Proto} {as : List Arg}
    (hid : call.message_id = some id) (hop : call.operation = .str proto.name)
    (hread : readParams proto.params call.params = some as)
    (htype : (program.result proto.name as).type = proto.ret) :
    ∃ response, stubBlock E program call proto = some [⟨response, call.broker.location⟩] ∧
      E.Carries response (responseHeaders proto.name id (program.result proto.name as)) := by
  obtain ⟨ts, hts, hparse⟩ := packClientResponseData_parse proto.name id
    (responseFormat_fits (program.result proto.name as))
  refine ⟨E.pack ts, ?_, carries_of_parse hparse⟩
  rw [htype] at hts
  rw [stubBlock, hop, Stulibc.strEquals_str, decide_eq_true rfl, if_pos rfl, hread, hid]
  simp [Ptr.string?, hts]

/-- No block of the stub reads what has no defined value. -/
def Call.Defined (E : Libs) (program : ServerProgram) (call : Call) : Prop :=
  ∀ proto ∈ program.protos, E.strEquals call.operation (.str proto.name) = true →
    (readParams proto.params call.params).isSome ∧ call.operation.string?.isSome ∧
      call.message_id.isSome

theorem stubBlock_returns_iff (htyped : program.Typed) {call : Call} {proto : Proto}
    (hproto : proto ∈ program.protos) :
    (∃ block, stubBlock E program call proto = some block) ↔
      (E.strEquals call.operation (.str proto.name) = true →
        (readParams proto.params call.params).isSome ∧ call.operation.string?.isSome ∧
          call.message_id.isSome) := by
  rw [stubBlock]
  by_cases hname : E.strEquals call.operation (.str proto.name) = true
  · rw [if_pos hname]
    cases hread : readParams proto.params call.params with
    | none => simp [hname]
    | some as =>
        cases hop : call.operation.string? with
        | none => simp [hname]
        | some op =>
            cases hid : call.message_id with
            | none => simp [hname]
            | some id =>
                obtain ⟨ts, hts, -⟩ := packClientResponseData_parse op id
                  (responseFormat_fits (program.result proto.name as))
                rw [htyped proto hproto as] at hts
                simp [hts]
  · rw [if_neg hname]
    exact iff_of_true ⟨[], rfl⟩ fun h => absurd h hname

/-- All blocks are run. -/
theorem callMarshelResponseSend_returns_iff (htyped : program.Typed) {call : Call} :
    (∃ sents, callMarshelResponseSend E program call = some sents) ↔ call.Defined E program := by
  have hblocks : (∃ blocks, program.protos.mapM (stubBlock E program call) = some blocks) ↔
      call.Defined E program :=
    exists_mapM_iff.trans (forall₂_congr fun _ hproto => stubBlock_returns_iff htyped hproto)
  rw [← hblocks]
  constructor
  · intro h
    obtain ⟨sents, hsents⟩ := h
    obtain ⟨blocks, hall, -⟩ := callMarshelResponseSend_eq_some.mp hsents
    exact ⟨blocks, hall⟩
  · intro h
    obtain ⟨blocks, hall⟩ := h
    exact ⟨_, callMarshelResponseSend_eq_some.mpr ⟨blocks, hall, rfl⟩⟩

/-- One of the blocks may be for the call. -/
theorem callMarshelResponseSend_isSome_iff (htyped : program.Typed) {call : Call} {id : Int32}
    {op : CString} {args : List Arg} (hid : call.message_id = some id)
    (hop : call.operation = .str op)
    (hparams : call.params = (args.map Arg.object).map ParamPtr.ofObject) :
    (callMarshelResponseSend E program call).isSome ↔ StubReads program op args := by
  rw [Option.isSome_iff_exists, callMarshelResponseSend_returns_iff htyped, Call.Defined,
    StubReads, hid, hop, hparams]
  refine forall₂_congr fun proto _ => ?_
  rw [Stulibc.strEquals_str, decide_eq_true_eq, eq_comm]
  simp [Ptr.string?]

/-- What a registered server does with a request. -/
theorem readAndProcess_registered {client : Details} {id : Int32} (hid : 0 ≤ id) {op : CString}
    {args : List Arg} (hcarries : E.Carries packet (requestHeaders client id op args)) :
    readAndProcessDataOnSocket E program broker true packet =
      .ok ((callMarshelResponseSend E program
        (callAt broker (some id) (.str op) (args.map Arg.object))).map fun sents => (true, sents)) := by
  have htype : getReqType E packet = .ok RequestType.serviceRequest.code := getReqType_ofInt hcarries
  have hcalls : unpackMarshalCallSend E packet broker =
      .ok [callAt broker (some id) (.str op) (args.map Arg.object)] := by
    rw [unpackMarshalCallSend_carries hcarries, marshalCalls_request _ _ hid]
  rw [readAndProcessDataOnSocket, htype]
  show (do
    let calls ← unpackMarshalCallSend E packet broker
    return do
      let sents ← calls.mapM (callMarshelResponseSend E program)
      some (true, sents.flatten)) = _
  rw [hcalls]
  cases hsents : callMarshelResponseSend E program
      (callAt broker (some id) (.str op) (args.map Arg.object)) with
  | none => simp [hsents, bind, Except.bind, pure, Except.pure]
  | some sents => simp [hsents, bind, Except.bind, pure, Except.pure]

/-- **A server gets through a request** unless it is registered and its stub reads what
was not sent. -/
theorem readAndProcess_returns_iff (htyped : program.Typed) {client : Details} {id : Int32}
    (hid : 0 ≤ id) {op : CString} {args : List Arg}
    (hcarries : E.Carries packet (requestHeaders client id op args)) (isRegistered : Bool) :
    (∃ r, readAndProcessDataOnSocket E program broker isRegistered packet = .ok (some r)) ↔
      (isRegistered = true → StubReads program op args) := by
  cases isRegistered with
  | false => exact iff_of_true ⟨_, readAndProcess_unregistered hcarries⟩ (by simp)
  | true =>
      have hid' : (callAt broker (some id) (.str op) (args.map Arg.object)).message_id = some id :=
        rfl
      rw [readAndProcess_registered hid hcarries,
        ← callMarshelResponseSend_isSome_iff (E := E) htyped hid' rfl rfl]
      cases callMarshelResponseSend E program
          (callAt broker (some id) (.str op) (args.map Arg.object)) with
      | none => simp
      | some sents => simp

/-! ### A client -/

/-- A stub returns from any response, of whatever type it takes it to be. -/
theorem stubReturn_returns {op : CString} {id : Int32} {v : Arg}
    (hcarries : E.Carries packet (responseHeaders op id v)) (ret : CType) :
    ∃ value, stubReturn E ret packet = .ok value := by
  cases ret with
  | int =>
      rw [stubReturn, getHdrInt_carries hcarries]
      exact ⟨_, rfl⟩
  | charPtr =>
      rw [stubReturn, getHdrStr_carries hcarries]
      exact ⟨_, rfl⟩

end RpcBroker
