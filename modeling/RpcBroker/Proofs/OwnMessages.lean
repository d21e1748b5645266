import RpcBroker.Proofs.Decoders
import RpcBroker.Proofs.Messages
/-!
# RpcBroker.Proofs.OwnMessages

The programs' **own messages** reach no exit of any reader: each of the four
packers writes a sequence of headers with short names that starts with a
request type, and on such a sequence every reader returns.
-/

namespace RpcBroker

open CLib Msgpack

variable {E : Libs}

/-- The tokens are, with nothing left over, a sequence of headers whose names
are shorter than the buffer for a name, the first one a `request-type` with a
non-negative integer. -/
def IsMessage (ts : List Token) : Prop :=
  ∃ (u : UInt64) (hs : List Header),
    parse ts =
      some ((⟨Hdr.requestType.text.chars, .positiveInteger u⟩ :: hs).map Header.object) ∧
    Hdr.requestType.text.chars.length < maxHeaderNameSize ∧
    ∀ h ∈ hs, h.name.length < maxHeaderNameSize

/-- Every reader gets through the packet: none calls `exit(1)`, and none finds
the packet empty or in an invalid format. -/
structure ReadsCleanly (E : Libs) (packet : E.Buffer) : Prop where
  nonempty : (E.unpack packet).objects ≠ []
  format : (E.unpack packet).status ≠ .parseError
  extractHeader : ∀ obj ∈ (E.unpack packet).objects, ∃ r, extractHeader E obj = .ok r
  getReqType : ∃ t, getReqType E packet = .ok t
  getHdrInt : ∀ look, ∃ i, getHdrInt E packet look = .ok i
  getHdrStr : ∀ look, ∃ scan, getHdrStrScan E packet look = .ok scan ∧ ¬ scan.reportsInvalid
  getOpName : ∃ p, getOpName E packet = .ok p
  registration : ∃ scan, unpackServiceRegistrationBuffer E packet = .ok scan
  marshal : ∀ broker, ∃ calls, unpackMarshalCallSend E packet broker = .ok calls

theorem readsCleanly_of_carries {packet : E.Buffer} {u : UInt64} {hs : List Header}
    (h : E.Carries packet (⟨Hdr.requestType.text.chars, .positiveInteger u⟩ :: hs)) :
    ReadsCleanly E packet where
  nonempty := by rw [h.objects]; simp
  format := by rw [h.status]; simp
  extractHeader := by
    intro obj hobj
    rw [h.objects] at hobj
    obtain ⟨hdr, -, rfl⟩ := List.mem_map.mp hobj
    exact ⟨_, extractHeader_object hdr⟩
  getReqType := by
    refine ⟨intOfWord u, getReqType_carries h ?_⟩
    simp [Header.int?, Header.key]
  getHdrInt look := ⟨_, getHdrInt_carries h look⟩
  getHdrStr look := by
    refine ⟨_, getHdrStrScan_carries h look, ?_⟩
    split <;> simp [StrScan.reportsInvalid]
  getOpName := ⟨_, getOpName_carries h⟩
  registration := ⟨_, unpackServiceRegistrationBuffer_carries h⟩
  marshal broker := ⟨_, unpackMarshalCallSend_carries h broker⟩

/-- A message is read cleanly from the buffer it was packed into. -/
theorem IsMessage.readsCleanly {ts : List Token} (h : IsMessage ts) :
    ReadsCleanly E (E.pack ts) := by
  obtain ⟨u, hs, hparse, -, -⟩ := h
  exact readsCleanly_of_carries (carries_of_parse hparse)

/-- Tokens that parse to a request type and further headers of the protocol are
a message. -/
theorem isMessage_of_parse {ts : List Token} {t : RequestType} {hs : List Header}
    (ks : List Hdr)
    (h : parse ts = some ((Header.ofInt .requestType t.code :: hs).map Header.object))
    (hnames : hs.map Header.name = ks.map fun k => k.text.chars) : IsMessage ts := by
  refine ⟨wordOfInt t.code, hs, ?_, Hdr.text_short _, ?_⟩
  · rw [h, Header.ofInt, Object.ofInt_nonneg t.code_nonneg]
  · intro hdr hmem
    have hname : hdr.name ∈ ks.map fun k => k.text.chars :=
      hnames ▸ List.mem_map_of_mem hmem
    obtain ⟨k, -, hk⟩ := List.mem_map.mp hname
    rw [← hk]
    exact k.text_short

/-- **The programs' own messages never hit an exit path.** For every client,
message id, operation, and every format that fits the arguments, the request is
packed; for every operation, message id and format with one conversion that
fits the result, the response is. These, every registration and every
acknowledgement are messages, and each is read cleanly. -/
theorem own_messages_read_cleanly (E : Libs) :
    (∀ (client : Details) (rand : Int32) (op fmt : CString) (args : List Arg),
      FormatFits fmt.chars args →
      ∃ ts, packClientRequestData client rand op fmt args = some ts ∧
        IsMessage ts ∧ ReadsCleanly E (E.pack ts)) ∧
    (∀ (op : CString) (message_id : Int32) (fmt : CString) (result : Arg),
      FormatFits fmt.chars [result] →
      ∃ ts, packClientResponseData op message_id fmt [result] = some ts ∧
        IsMessage ts ∧ ReadsCleanly E (E.pack ts)) ∧
    (∀ (server : Details) (services : List CString) (ts : List Token),
      (∀ s ∈ services, s ≠ .empty) → serviceRegisterWithBroker E server services = some ts →
      IsMessage ts ∧ ReadsCleanly E (E.pack ts)) ∧
    (∀ message_id : Int32,
      IsMessage (packSvcReqAck message_id) ∧
        ReadsCleanly E (E.pack (packSvcReqAck message_id))) := by
  refine ⟨?_, ?_, ?_, ?_⟩
  · intro client rand op fmt args hfit
    obtain ⟨ts, hts, hparse⟩ := packClientRequestData_parse client rand op hfit
    have hmsg : IsMessage ts := isMessage_of_parse
      [.messageId, .senderAddress, .replyPort, .operation, .serviceParams] hparse rfl
    exact ⟨ts, hts, hmsg, hmsg.readsCleanly⟩
  · intro op message_id fmt result hfit
    obtain ⟨ts, hts, hparse⟩ := packClientResponseData_parse op message_id hfit
    have hmsg : IsMessage ts := isMessage_of_parse
      [.messageId, .operation, .reply] hparse rfl
    exact ⟨ts, hts, hmsg, hmsg.readsCleanly⟩
  · intro server services ts hne hts
    obtain ⟨ts', hts', hparse⟩ := serviceRegisterWithBroker_parse (E := E) server hne
      (serviceRegisterWithBroker_some hts)
    obtain rfl : ts = ts' := Option.some.inj (hts.symm.trans hts')
    have hmsg : IsMessage ts := isMessage_of_parse
      [.senderAddress, .replyPort, .serviceName, .servicesCount, .services] hparse rfl
    exact ⟨hmsg, hmsg.readsCleanly⟩
  · intro message_id
    have hmsg : IsMessage (packSvcReqAck message_id) := isMessage_of_parse
      [.messageId] (packSvcReqAck_parse message_id) rfl
    exact ⟨hmsg, hmsg.readsCleanly⟩

/-- The request of `add(20, 199)` with text between its conversions, its
response, a registration of one service, and an acknowledgement. -/
theorem own_messages_of_add :
    (∃ ts, packClientRequestData ⟨.lit "127.0.0.1", .lit "9091"⟩ 7 (.lit "add") (.lit "%d,%d")
        [.int 20, .int 199] = some ts ∧ IsMessage ts ∧
        ReadsCleanly Libs.reference (Libs.reference.pack ts)) ∧
    (∃ ts, packClientResponseData (.lit "add") 7 (.lit "%d") [.int 219] = some ts ∧
        IsMessage ts ∧ ReadsCleanly Libs.reference (Libs.reference.pack ts)) ∧
    (∃ ts, serviceRegisterWithBroker Libs.reference ⟨.lit "127.0.0.1", .lit "8181"⟩
        [.lit "add"] = some ts ∧ IsMessage ts) ∧
    IsMessage (packSvcReqAck 7) := by
  have hreq : FormatFits (CString.lit "%d,%d").chars [.int 20, .int 199] := by
    have hchars : (CString.lit "%d,%d").chars = [percent, convInt, 44, percent, convInt] := by
      decide
    rw [hchars]
    exact .int 20 (.other (by decide) (.int 199 .nil))
  have hresp : FormatFits (CString.lit "%d").chars [.int 219] := by
    have hchars : (CString.lit "%d").chars = [percent, convInt] := by decide
    rw [hchars]
    exact .int 219 .nil
  obtain ⟨hrequest, hresponse, hregistration, hack⟩ := own_messages_read_cleanly Libs.reference
  exact ⟨hrequest _ 7 _ _ _ hreq, hresponse _ 7 _ _ hresp,
    ⟨_, rfl, (hregistration _ [.lit "add"] _ (by decide) rfl).1⟩, (hack 7).1⟩

end RpcBroker
