import RpcBroker.Proofs.Handler
import RpcBroker.Proofs.RoundTrip
/-!
# RpcBroker.Proofs.Readings

How the programs' own messages are **read by the other side**: a client's request
and a server's response as the events the broker makes of them, and the one
response a server's stubs make of a request.
-/

namespace RpcBroker

open CLib Msgpack

variable {E : Libs}

/-! ### At the broker -/

/-- The request type of a packet that starts with one. -/
theorem getReqType_ofInt {packet : E.Buffer} {t : RequestType} {hs : List Header}
    (h : E.Carries packet (.ofInt .requestType t.code :: hs)) :
    getReqType E packet = .ok t.code :=
  getReqType_carries h (by simp [t.code_nonneg])

/-- A client's request is read as a request from its endpoint. -/
theorem reads_request {packet : E.Buffer} {client : Details} {rand : Int32} (hrand : 0 ≤ rand)
    {op : CString} {args : List Arg} (h : E.Carries packet (requestHeaders client rand op args)) :
    Reads E packet (.asked ⟨client.location, ⟨rand, op⟩⟩) := by
  refine .asked (getReqType_ofInt h) ⟨?_, ?_, ?_, ?_⟩
  · rw [getHdrStr_carries h]
    simp [requestHeaders, firstStr_cons, Request.entry]
  · rw [getHdrStr_carries h]
    simp [requestHeaders, firstStr_cons, Request.entry, Details.location]
  · rw [getHdrStr_carries h]
    simp [requestHeaders, firstStr_cons, Request.entry, Details.location]
  · rw [getHdrInt_carries h]
    simp [requestHeaders, lastInt_cons, Request.entry, hrand]

/-- A server's response is read as a response under its id and operation. -/
theorem reads_response {packet : E.Buffer} {op : CString} {id : Int32} (hid : 0 ≤ id) {v : Arg}
    (h : E.Carries packet (responseHeaders op id v)) : Reads E packet (.answered ⟨id, op⟩) := by
  refine .answered (getReqType_ofInt h) ?_ ?_
  · rw [getHdrInt_carries h, lastInt_messageId_response, if_pos hid]
    rfl
  · rw [getHdrStr_carries h, firstStr_operation_response]
    rfl

/-! ### At the server -/

/-- A result is packed by the format of a stub only if it has the stub's type. -/
theorem type_of_packFmt {t : CType} {v : Arg} {ts : List Token}
    (h : packFmt (responseFormat t).chars [v] = some ts) : v.type = t := by
  have hint : (responseFormat .int).chars = [percent, convInt] := by decide
  have hstr : (responseFormat .charPtr).chars = [percent, convStr] := by decide
  cases t with
  | int =>
      cases v with
      | int w => rfl
      | str s => rw [hint] at h; exact absurd h (by simp [packFmt])
  | charPtr =>
      cases v with
      | int w => rw [hstr] at h; exact absurd h (by simp [packFmt, convInt, convStr])
      | str s => rfl

/-- The response a stub sends carries the result of its function, for the
arguments it read. -/
theorem stubBlock_response {program : ServerProgram} {call : Call} {proto : Proto} {id : Int32}
    {op : CString} (hid : call.message_id = some id) (hop : call.operation = .str op)
    {sents : List (Sent E.Buffer)} (h : stubBlock E program call proto = some sents) :
    (op ≠ proto.name ∧ sents = []) ∨
      ∃ args packet, op = proto.name ∧ readParams proto.params call.params = some args ∧
        E.Carries packet (responseHeaders op id (program.result proto.name args)) ∧
        sents = [⟨packet, call.broker.location⟩] := by
  unfold stubBlock at h
  rw [hop, hid, Stulibc.strEquals_str] at h
  by_cases hname : op = proto.name
  · rw [if_pos (by simpa using hname)] at h
    simp only [Ptr.string?, Option.bind_eq_bind, Option.bind_some, Option.bind_eq_some_iff] at h
    obtain ⟨args, hargs, ts, hts, hsents⟩ := h
    have htype : (program.result proto.name args).type = proto.ret := by
      rw [packClientResponseData, Option.bind_eq_bind, Option.bind_eq_some_iff] at hts
      obtain ⟨vals, hvals, -⟩ := hts
      exact type_of_packFmt hvals
    obtain ⟨ts', hts', hparse⟩ := packClientResponseData_parse op id
      (responseFormat_fits (program.result proto.name args))
    rw [htype] at hts'
    obtain rfl : ts = ts' := Option.some.inj (hts.symm.trans hts')
    exact Or.inr ⟨args, E.pack ts, hname, hargs, carries_of_parse hparse,
      (Option.some.inj hsents).symm⟩
  · rw [if_neg (by simpa using hname)] at h
    exact Or.inl ⟨hname, (Option.some.inj h).symm⟩

/-- Running one action after the other. -/
theorem mapM_cons_eq_some {α β : Type} {f : α → Option β} {a : α} {as : List α} {bs : List β} :
    (a :: as).mapM f = some bs ↔
      ∃ b rest, f a = some b ∧ as.mapM f = some rest ∧ bs = b :: rest := by
  rw [List.mapM_cons]
  simp only [Option.bind_eq_bind, Option.bind_eq_some_iff, Option.pure_def, Option.some.injEq,
    eq_comm (b := bs), exists_and_left]

theorem exists_mapM_iff {α β : Type} {f : α → Option β} {as : List α} :
    (∃ bs, as.mapM f = some bs) ↔ ∀ a ∈ as, ∃ b, f a = some b := by
  induction as with
  | nil => simp
  | cons a as ih =>
      rw [List.forall_mem_cons, ← ih]
      constructor
      · intro h
        obtain ⟨bs, hbs⟩ := h
        obtain ⟨b, rest, hb, hrest, -⟩ := mapM_cons_eq_some.mp hbs
        exact ⟨⟨b, hb⟩, ⟨rest, hrest⟩⟩
      · intro h
        obtain ⟨⟨b, hb⟩, ⟨rest, hrest⟩⟩ := h
        exact ⟨b :: rest, mapM_cons_eq_some.mpr ⟨b, rest, hb, hrest, rfl⟩⟩

/-- The blocks of all functions, one after the other. -/
theorem callMarshelResponseSend_eq_some {program : ServerProgram} {call : Call}
    {sents : List (Sent E.Buffer)} :
    callMarshelResponseSend E program call = some sents ↔
      ∃ blocks, program.protos.mapM (stubBlock E program call) = some blocks ∧
        sents = blocks.flatten := by
  unfold callMarshelResponseSend
  simp only [Option.bind_eq_bind, Option.bind_eq_some_iff, Option.pure_def, Option.some.injEq,
    eq_comm (b := sents)]

/-- At most one of the blocks for differently named functions sends a response. -/
theorem callMarshelResponseSend_response {program : ServerProgram} {call : Call} {id : Int32}
    {op : CString} (hid : call.message_id = some id) (hop : call.operation = .str op)
    {sents : List (Sent E.Buffer)} (h : callMarshelResponseSend E program call = some sents) :
    sents = [] ∨
      ∃ proto ∈ program.protos, proto.name = op ∧ ∃ args packet,
        readParams proto.params call.params = some args ∧
        E.Carries packet (responseHeaders op id (program.result op args)) ∧
        sents = [⟨packet, call.broker.location⟩] := by
  have hblocks : ∀ (protos : List Proto) (blocks : List (List (Sent E.Buffer))),
      (protos.map Proto.name).Nodup → protos.mapM (stubBlock E program call) = some blocks →
      (op ∉ protos.map Proto.name ∧ blocks.flatten = []) ∨
        ∃ proto ∈ protos, proto.name = op ∧ ∃ args packet,
          readParams proto.params call.params = some args ∧
          E.Carries packet (responseHeaders op id (program.result op args)) ∧
          blocks.flatten = [⟨packet, call.broker.location⟩] := by
    intro protos
    induction protos with
    | nil =>
        intro blocks _ hblocks
        obtain rfl : [] = blocks := Option.some.inj hblocks
        exact Or.inl ⟨by simp, rfl⟩
    | cons proto protos ih =>
        intro blocks hnodup hblocks
        rw [List.map_cons, List.nodup_cons] at hnodup
        obtain ⟨block, rest, hblock, hrest, rfl⟩ := mapM_cons_eq_some.mp hblocks
        rcases stubBlock_response hid hop hblock with
          ⟨hne, rfl⟩ | ⟨args, packet, rfl, hargs, hcarries, rfl⟩
        · rcases ih rest hnodup.2 hrest with ⟨hnot, hnil⟩ | ⟨p, hp, hname, args, packet, hr, hc, hf⟩
          · exact Or.inl ⟨by simp [hne, hnot], by simpa using hnil⟩
          · exact Or.inr ⟨p, List.mem_cons_of_mem _ hp, hname, args, packet, hr, hc, by simpa using hf⟩
        · rcases ih rest hnodup.2 hrest with ⟨-, hnil⟩ | ⟨p, hp, hname, -⟩
          · exact Or.inr ⟨proto, List.mem_cons_self .., rfl, args, packet, hargs, hcarries,
              by simp [hnil]⟩
          · exact absurd (List.mem_map.mpr ⟨p, hp, hname⟩) hnodup.1
  obtain ⟨blocks, hmap, rfl⟩ := callMarshelResponseSend_eq_some.mp h
  rcases hblocks program.protos blocks program.distinct hmap with ⟨-, hnil⟩ | hresponse
  · exact Or.inl hnil
  · exact Or.inr hresponse

/-- A server sends at most one packet for a client's request: the response with
the result of the function it names. -/
theorem readAndProcess_request {packet : E.Buffer} {client broker : Details} {rand : Int32}
    (hrand : 0 ≤ rand) {op : CString} {args : List Arg}
    (hcarries : E.Carries packet (requestHeaders client rand op args)) {program : ServerProgram}
    {isRegistered isRegistered' : Bool} {sents : List (Sent E.Buffer)}
    (h : readAndProcessDataOnSocket E program broker isRegistered packet =
      .ok (some (isRegistered', sents))) :
    sents = [] ∨ isRegistered = true ∧
      ∃ proto ∈ program.protos, proto.name = op ∧ ∃ read response,
        readParams proto.params ((args.map Arg.object).map ParamPtr.ofObject) = some read ∧
        E.Carries response (responseHeaders op rand (program.result op read)) ∧
        sents = [⟨response, broker.location⟩] := by
  have htype : getReqType E packet = .ok RequestType.serviceRequest.code := getReqType_ofInt hcarries
  unfold readAndProcessDataOnSocket at h
  rw [bind_eq_ok] at h
  obtain ⟨t, ht, h⟩ := h
  obtain rfl := Except.ok.inj (htype.symm.trans ht)
  rw [if_neg (by decide)] at h
  cases isRegistered with
  | false =>
      rw [if_neg (by simp)] at h
      have hsents := pure_eq_ok.mp h
      simp only [Option.some.injEq, Prod.mk.injEq] at hsents
      exact Or.inl hsents.2.symm
  | true =>
      rw [if_pos (by simp), bind_eq_ok] at h
      obtain ⟨calls, hcalls, h⟩ := h
      rw [unpackMarshalCallSend_carries hcarries, marshalCalls_request _ _ hrand] at hcalls
      obtain rfl := Except.ok.inj hcalls
      have hsend := pure_eq_ok.mp h
      simp only [List.mapM_cons, List.mapM_nil, Option.bind_eq_bind, Option.pure_def,
        Option.bind_some, Option.bind_eq_some_iff, Option.some.injEq, Prod.mk.injEq] at hsend
      obtain ⟨blocks, ⟨sents', hsents', rfl⟩, -, rfl⟩ := hsend
      rcases callMarshelResponseSend_response rfl rfl hsents' with rfl | hresponse
      · exact Or.inl rfl
      · rw [List.flatten_singleton]
        exact Or.inr ⟨rfl, hresponse⟩

/-- An acknowledgement makes a server send nothing. -/
theorem readAndProcess_ack {packet : E.Buffer} {id : Int32} (hcarries : E.Carries packet (ackHeaders id))
    {program : ServerProgram} {broker : Details} {isRegistered isRegistered' : Bool}
    {sents : List (Sent E.Buffer)}
    (h : readAndProcessDataOnSocket E program broker isRegistered packet =
      .ok (some (isRegistered', sents))) : sents = [] := by
  have htype : getReqType E packet = .ok RequestType.serviceRegistrationAck.code :=
    getReqType_ofInt hcarries
  unfold readAndProcessDataOnSocket at h
  rw [bind_eq_ok] at h
  obtain ⟨t, ht, h⟩ := h
  obtain rfl := Except.ok.inj (htype.symm.trans ht)
  rw [if_pos rfl] at h
  have hsents := pure_eq_ok.mp h
  simp only [Option.some.injEq, Prod.mk.injEq] at hsents
  exact hsents.2.symm

end RpcBroker
