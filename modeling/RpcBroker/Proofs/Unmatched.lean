import RpcBroker.Proofs.Unroutable
/-!
# RpcBroker.Proofs.Unmatched

**Responses no pending request is for.** The search for a client reports that
it found one by assigning the location it was given, and in no other way. The
handler does not look: it sends every response on, an unmatched one to whatever
the location held before (`response_sent`).

A response is handled as it should be exactly when it is `Awaited`: a pending
request has its id and its operation, and it carries both (`expected_iff_awaited`).
-/

namespace RpcBroker

open CLib Msgpack

variable {E : Libs}

/-- A pending request has the message id and the operation of the packet. -/
def Awaited (E : Libs) (config : Config) (packet : E.Buffer) : Prop :=
  ∃ entry ∈ config.clnt_req_repo, ∃ op, entry.operation = .str op ∧
    lastInt Hdr.messageId.text (headersIn E packet) = some entry.message_id ∧
    firstStr Hdr.operation.text (headersIn E packet) = some op

/-- Everything sent goes to the address and the port of a pending request. -/
def SentToPending (config : Config) (sent : List (Sent E.Buffer)) : Prop :=
  ∀ s ∈ sent, ∃ entry ∈ config.clnt_req_repo, s.dest = ⟨entry.address, entry.port⟩

/-- How a response should be handled: one nobody awaits changes nothing and
is sent nowhere, and what is sent goes to a pending request's client. -/
def HandledAsExpected (E : Libs) (config : Config) (packet : E.Buffer) : Prop :=
  (¬ Awaited E config packet → LeavesNoTrace E config packet) ∧
    ∀ config' sent, readData E config packet = .ok (config', sent) → SentToPending config sent

/-- The handler sends every response on. Where no pending request answers it,
nothing is removed, and the address and the port are those `malloc` left. -/
theorem response_sent {config config' : Config} {packet : E.Buffer} {sent : List (Sent E.Buffer)}
    (htype : getReqType E packet = .ok RequestType.serviceRequestResponse.code)
    (h : readData E config packet = .ok (config', sent)) :
    ∃ id op, (config.clnt_req_repo ≠ [] → getHdrInt E packet Hdr.messageId.text = .ok id ∧
        getHdrStr E packet Hdr.operation.text = .ok op) ∧
      sent = [⟨packet, clientFor E id op config.clnt_req_repo⟩] ∧
      ((∀ entry ∈ config.clnt_req_repo, answers E id op entry = false) →
        config' = config ∧ sent = [⟨packet, ⟨.unassigned, .unassigned⟩⟩]) := by
  cases readData_iff.mp h with
  | request htype' => exact absurd (reqType_unique htype htype') (by decide)
  | registration htype' => exact absurd (reqType_unique htype htype') (by decide)
  | ignored htype' _ _ hresp => exact absurd (Except.ok.inj (htype'.symm.trans htype)) hresp
  | @response id op _ hread =>
      refine ⟨id, op, hread, rfl, ?_⟩
      intro hnone
      have hfind : config.clnt_req_repo.find? (answers E id op) = none := by
        rw [List.find?_eq_none]
        intro entry hentry
        simp [hnone entry hentry]
      refine ⟨?_, by rw [clientFor, hfind]⟩
      rw [List.eraseP_of_forall_not fun entry hentry => by simp [hnone entry hentry]]

/-- A response somebody awaits goes to a pending request's client: the search
finds an entry. -/
theorem awaited_sentToPending {config config' : Config} {packet : E.Buffer}
    {sent : List (Sent E.Buffer)}
    (htype : getReqType E packet = .ok RequestType.serviceRequestResponse.code)
    (hawaited : Awaited E config packet) (h : readData E config packet = .ok (config', sent)) :
    SentToPending config sent := by
  obtain ⟨entry, hentry, op, hop, hid, hstr⟩ := hawaited
  obtain ⟨id, op', hread, rfl, -⟩ := response_sent htype h
  obtain ⟨hreadid, hreadop⟩ := hread (List.ne_nil_of_mem hentry)
  obtain ⟨-, hentries, rfl⟩ := getHdrInt_eq_ok.mp hreadid
  rw [getHdrStr_entries hentries, hstr] at hreadop
  obtain rfl := Except.ok.inj hreadop
  have hanswers : answers E ((lastInt Hdr.messageId.text (headersIn E packet)).getD 0)
      (.str op) entry = true := by
    simp [answers, hid, hop]
  obtain ⟨found, hfound⟩ := Option.isSome_iff_exists.mp
    (List.find?_isSome.mpr ⟨entry, hentry, hanswers⟩)
  intro s hs
  obtain rfl := List.mem_singleton.mp hs
  refine ⟨found, List.mem_of_find?_eq_some hfound, ?_⟩
  rw [strResult_some, clientFor, hfound]

/-- **A response is handled as expected exactly when a pending request has its
id and its operation.** -/
theorem expected_iff_awaited (E : Libs) {config : Config} {packet : E.Buffer}
    (htype : getReqType E packet = .ok RequestType.serviceRequestResponse.code) :
    HandledAsExpected E config packet ↔ Awaited E config packet := by
  constructor
  · intro h
    by_contra hnone
    obtain ⟨id, op, -, hsent, -⟩ := response_sent htype (h.1 hnone)
    exact absurd hsent (by simp)
  · intro h
    refine ⟨fun hnone => absurd h hnone, ?_⟩
    intro config' sent hstep
    exact awaited_sentToPending htype h hstep

/-- The response for `add`, with the request for it pending. -/
theorem expected_add :
    HandledAsExpected Libs.reference
      ⟨[], [⟨.str exampleClient.address, .str exampleClient.port, .str (.lit "add"), 7⟩]⟩
      addResponse := by
  refine (expected_iff_awaited Libs.reference rfl).mpr ?_
  exact ⟨_, List.mem_singleton_self _, .lit "add", rfl, rfl, rfl⟩

/-- With nothing pending it is sent to an address nobody assigned. -/
theorem expected_nothingPending :
    ¬ ∀ (E : Libs) (packets : List E.Buffer) (config : Config)
        (outs : List (List (Sent E.Buffer))) (packet : E.Buffer),
      brokerRun E .init packets = .ok (config, outs) →
      getReqType E packet = .ok RequestType.serviceRequestResponse.code →
      HandledAsExpected E config packet := by
  intro h
  have hexpected := h Libs.reference [] .init [] addResponse rfl rfl
  have hstep : readData Libs.reference .init addResponse =
      .ok (.init, [⟨addResponse, ⟨.unassigned, .unassigned⟩⟩]) := rfl
  obtain ⟨entry, hentry, -⟩ := hexpected.2 _ _ hstep _ (List.mem_singleton_self _)
  exact absurd hentry (by simp [Config.init])

end RpcBroker
