import RpcBroker.Proofs.Execution
/-!
# RpcBroker.Proofs.MessageIds

**A message id, end to end.** A request carries its id as an unsigned integer of
up to 64 bits. The broker and the server keep an `int` of it, the server packs the
`int` into the response, and the broker reads that again.

What comes back is the low half of the id, and only if its sign bit is clear: the
packer writes a negative `int` as a negative integer, which `get_hdr_int` does
not take. So a response is matched with its own request and no other exactly when
bit 31 of the id is clear and no other pending id agrees with it in the low 32 bits
(`identifies_iff`).
-/

namespace RpcBroker

open CLib Msgpack

variable {E : Libs}

/-! ### Ids on the wire -/

/-- The unsigned integer a header carries under a name. -/
def Header.word? (look : CString) (h : Header) : Option UInt64 :=
  match h.val with
  | .positiveInteger u => if look = h.key then some u else none
  | _ => none

/-- The last unsigned integer under a name. -/
def lastWord (look : CString) (hs : List Header) : Option UInt64 :=
  (hs.filterMap (Header.word? look)).getLast?

/-- The readers narrow what is on the wire. -/
theorem lastInt_eq_lastWord (look : CString) (hs : List Header) :
    lastInt look hs = (lastWord look hs).map intOfWord := by
  have hint : Header.int? look = fun h => (Header.word? look h).map intOfWord := by
    funext h
    rw [Header.int?, Header.word?]
    cases h.val with
    | positiveInteger u =>
        dsimp only
        split <;> rfl
    | _ => rfl
  rw [lastInt, lastWord, hint, ← List.getLast?_map, List.map_filterMap]

/-- The packet is a request for `op` with the id `u` on the wire: it carries both
and an array, and the server reads the same operation and id as the broker. -/
structure WireRequest (E : Libs) (op : CString) (packet : E.Buffer) (u : UInt64) : Prop where
  type : getReqType E packet = .ok RequestType.serviceRequest.code
  headers : ∃ hs, E.Carries packet hs ∧ firstStr Hdr.operation.text hs = some op ∧
    lastWord Hdr.messageId.text hs = some u ∧ SameReading hs ∧ ∃ h ∈ hs, h.array?.isSome

/-- What the broker records of such a request. -/
theorem WireRequest.entry {op : CString} {packet : E.Buffer} {u : UInt64} {entry : ClientReg}
    (h : WireRequest E op packet u) (hread : RequestRead E packet entry) :
    entry.message_id = intOfWord u ∧ entry.operation = .str op := by
  obtain ⟨hs, hcarries, hop, hid, -, -⟩ := h.headers
  have hentryid := hread.message_id
  have hentryop := hread.operation
  rw [getHdrInt_carries hcarries, lastInt_eq_lastWord, hid] at hentryid
  rw [getHdrStr_carries hcarries, hop] at hentryop
  exact ⟨(Except.ok.inj hentryid).symm, (Except.ok.inj hentryop).symm⟩

/-- The calls a server makes of such a request. -/
theorem WireRequest.call {op : CString} {packet : E.Buffer} {u : UInt64}
    (h : WireRequest E op packet u) {broker : Details} {calls : List Call}
    (hcalls : unpackMarshalCallSend E packet broker = .ok calls) :
    calls ≠ [] ∧ ∀ call ∈ calls, call.message_id = some (intOfWord u) ∧ call.operation = .str op := by
  obtain ⟨hs, hcarries, hop, hid, hsame, g, hg, harray⟩ := h.headers
  obtain rfl := Except.ok.inj ((unpackMarshalCallSend_carries hcarries broker).symm.trans hcalls)
  refine ⟨?_, ?_⟩
  · rw [← List.length_pos_iff, marshalCalls_length]
    exact List.length_pos_of_mem (List.mem_filter.mpr ⟨hg, harray⟩)
  · intro call hcall
    obtain ⟨before, f, after, hsplit, elems, hval, rfl⟩ := (mem_marshalCalls broker hs call).mp hcall
    obtain ⟨hlastop, hlastid⟩ := hsame before f after elems hsplit hval
    rw [callAt, hlastop, hop, hlastid, lastInt_eq_lastWord, hid]
    exact ⟨rfl, rfl⟩

/-! ### Responses -/

/-- Some server sends `response` for the request `packet`. -/
def ServerAnswers (E : Libs) (packet response : E.Buffer) : Prop :=
  ∃ program broker calls call sents, unpackMarshalCallSend E packet broker = .ok calls ∧
    call ∈ calls ∧ callMarshelResponseSend E program call = some sents ∧
    ∃ sent ∈ sents, sent.packet = response

/-- The broker takes the response for one to the pending request `entry`. -/
def MatchedBy (E : Libs) (response : E.Buffer) (entry : ClientReg) : Prop :=
  ∃ id op, getHdrInt E response Hdr.messageId.text = .ok id ∧
    getHdrStr E response Hdr.operation.text = .ok op ∧ answers E id op entry = true

/-- The response carries the id as the server has it. -/
theorem WireRequest.response {op : CString} {packet response : E.Buffer} {u : UInt64}
    (h : WireRequest E op packet u) (hanswers : ServerAnswers E packet response) :
    ∃ v, E.Carries response (responseHeaders op (intOfWord u) v) := by
  obtain ⟨program, broker, calls, call, sents, hcalls, hcall, hsents, sent, hsent, rfl⟩ := hanswers
  obtain ⟨hid, hop⟩ := (h.call hcalls).2 call hcall
  rcases callMarshelResponseSend_response hid hop hsents with
    rfl | ⟨proto, -, -, args, packet', -, hcarries, rfl⟩
  · exact absurd hsent (by simp)
  · obtain rfl := List.mem_singleton.mp hsent
    exact ⟨_, hcarries⟩

/-- A server that has the function answers. -/
theorem WireRequest.answered {op : CString} {packet : E.Buffer} {u : UInt64}
    (h : WireRequest E op packet u) : ∃ response, ServerAnswers E packet response := by
  let program : ServerProgram :=
    { protos := [⟨.int, op, []⟩]
      distinct := List.nodup_singleton _
      result := fun _ _ => .int 0 }
  obtain ⟨hs, hcarries, -⟩ := h.headers
  have hcalls := unpackMarshalCallSend_carries hcarries exampleServer
  obtain ⟨hne, hall⟩ := h.call hcalls
  obtain ⟨call, hcall⟩ := List.exists_mem_of_ne_nil _ hne
  obtain ⟨hid, hop⟩ := hall call hcall
  obtain ⟨ts, hts, -⟩ := packClientResponseData_parse op (intOfWord u) (responseFormat_fits (.int 0))
  have hblock : stubBlock E program call ⟨.int, op, []⟩ =
      some [⟨E.pack ts, call.broker.location⟩] := by
    rw [stubBlock, hop, hid, if_pos (by simp)]
    simp only [readParams, Ptr.string?, Option.bind_eq_bind, Option.bind_some]
    rw [show packClientResponseData op (intOfWord u) (responseFormat .int) [program.result op []] =
      some ts from hts]
    rfl
  have hsents : callMarshelResponseSend E program call =
      some [⟨E.pack ts, call.broker.location⟩] := by
    rw [callMarshelResponseSend, show program.protos = [⟨.int, op, []⟩] from rfl, List.mapM_cons,
      hblock]
    rfl
  exact ⟨E.pack ts, program, exampleServer, _, call, _, hcalls, hcall, hsents, _,
    List.mem_singleton_self _, rfl⟩

/-- The id read in a response is the one packed, or 0. -/
theorem matchedBy_response {response : E.Buffer} {op : CString} {id : Int32} {v : Arg}
    {entry : ClientReg} (hcarries : E.Carries response (responseHeaders op id v))
    (hop : entry.operation = .str op) :
    MatchedBy E response entry ↔ (if 0 ≤ id then id else 0) = entry.message_id := by
  have hid : getHdrInt E response Hdr.messageId.text = .ok (if 0 ≤ id then id else 0) := by
    rw [getHdrInt_carries hcarries, lastInt_messageId_response]
    split <;> rfl
  have hstr : getHdrStr E response Hdr.operation.text = .ok (.str op) := by
    rw [getHdrStr_carries hcarries, firstStr_operation_response]
    rfl
  constructor
  · rintro ⟨id', op', hid', -, hanswers⟩
    obtain rfl := Except.ok.inj (hid.symm.trans hid')
    rw [answers, Bool.and_eq_true, decide_eq_true_eq] at hanswers
    exact hanswers.1
  · intro h
    exact ⟨_, _, hid, hstr, by simp [answers, h, hop]⟩

/-! ### Pending requests -/

/-- Whatever a server sends for the request `packet` is matched by the pending
request at position `i` and by no other. -/
def Identifies (E : Libs) (packet : E.Buffer) (pending : List ClientReg) (i : Nat) : Prop :=
  ∀ response, ServerAnswers E packet response → ∀ j entry, pending[j]? = some entry →
    (MatchedBy E response entry ↔ j = i)

/-- The broker's records of requests, position by position. -/
theorem recorded_at {op : CString} {packets : List E.Buffer} {us : List UInt64}
    {pending : List ClientReg} (hrequests : List.Forall₂ (WireRequest E op) packets us)
    (hpending : List.Forall₂ (RequestRead E) packets pending) (j : Nat) :
    pending[j]?.map (fun entry => (entry.message_id, entry.operation)) =
      us[j]?.map fun u => (intOfWord u, Ptr.str op) := by
  induction hrequests generalizing pending j with
  | nil =>
      cases hpending
      rfl
  | cons hrequest _ ih =>
      obtain ⟨entry, pending, hread, hrest, rfl⟩ := List.forall₂_cons_left_iff.mp hpending
      cases j with
      | zero =>
          obtain ⟨hid, hop⟩ := hrequest.entry hread
          simp [hid, hop]
      | succ j => exact ih hrest j

/-- **A response is matched with its own request and no other exactly when the id
has bit 31 clear and no other pending id agrees with it modulo 2³²**, whatever the
ids are and in whatever order they are pending. -/
theorem identifies_iff (E : Libs) {op : CString} {packets : List E.Buffer} {us : List UInt64}
    {pending : List ClientReg} (hrequests : List.Forall₂ (WireRequest E op) packets us)
    (hpending : List.Forall₂ (RequestRead E) packets pending) {i : Nat} {packet : E.Buffer}
    {u : UInt64} (hpacket : packets[i]? = some packet) (hu : us[i]? = some u) :
    Identifies E packet pending i ↔ u.toNat % 0x100000000 < 0x80000000 ∧
      ∀ j v, us[j]? = some v → v.toNat % 0x100000000 = u.toNat % 0x100000000 → j = i := by
  have hrequest : WireRequest E op packet u := by
    obtain ⟨hi, rfl⟩ := List.getElem?_eq_some_iff.mp hpacket
    obtain ⟨hi', rfl⟩ := List.getElem?_eq_some_iff.mp hu
    exact hrequests.get hi hi'
  -- Position by position, the record of a request and the id it carries.
  have hentry : ∀ (j : Nat) (v : UInt64), us[j]? = some v →
      ∃ entry : ClientReg, pending[j]? = some entry ∧ entry.message_id = intOfWord v ∧
        entry.operation = .str op := by
    intro j v hv
    have hat := recorded_at hrequests hpending j
    rw [hv, Option.map_some, Option.map_eq_some_iff] at hat
    obtain ⟨entry, hget, heq⟩ := hat
    exact ⟨entry, hget, (Prod.mk.inj heq).1, (Prod.mk.inj heq).2⟩
  have hword : ∀ (j : Nat) (entry : ClientReg), pending[j]? = some entry →
      ∃ v, us[j]? = some v ∧ entry.message_id = intOfWord v ∧ entry.operation = .str op := by
    intro j entry hget
    have hat := recorded_at hrequests hpending j
    rw [hget, Option.map_some, eq_comm, Option.map_eq_some_iff] at hat
    obtain ⟨v, hv, heq⟩ := hat
    exact ⟨v, hv, (Prod.mk.inj heq).1.symm, (Prod.mk.inj heq).2.symm⟩
  constructor
  · intro h
    obtain ⟨response, hanswers⟩ := hrequest.answered
    obtain ⟨w, hcarries⟩ := hrequest.response hanswers
    obtain ⟨own, hown, hownid, hownop⟩ := hentry i u hu
    have hmatched := (matchedBy_response hcarries hownop).mp
      ((h response hanswers i own hown).mpr rfl)
    rw [hownid] at hmatched
    have hnonneg : 0 ≤ intOfWord u := by
      by_contra hneg
      rw [if_neg hneg] at hmatched
      exact hneg (hmatched ▸ by decide)
    refine ⟨intOfWord_nonneg_iff.mp hnonneg, ?_⟩
    intro j v hv hlow
    obtain ⟨entry, hget, hid, hop⟩ := hentry j v hv
    refine (h response hanswers j entry hget).mp ((matchedBy_response hcarries hop).mpr ?_)
    rw [if_pos hnonneg, hid]
    exact intOfWord_eq_iff.mpr hlow.symm
  · rintro ⟨hlow, hother⟩ response hanswers j entry hget
    have hnonneg := intOfWord_nonneg_iff.mpr hlow
    obtain ⟨w, hcarries⟩ := hrequest.response hanswers
    obtain ⟨v, hv, hid, hop⟩ := hword j entry hget
    rw [matchedBy_response hcarries hop, if_pos hnonneg, hid, intOfWord_eq_iff]
    constructor
    · intro heq
      exact hother j v hv heq.symm
    · rintro rfl
      obtain rfl := Option.some.inj (hv.symm.trans hu)
      rfl

/-! ### Two requests -/

/-- With one array, at the end, the server has read everything before it. -/
theorem sameReading_concat {pre : List Header} {h : Header}
    (hpre : ∀ g ∈ pre, g.array? = none)
    (hop : lastStr Hdr.operation.text pre = firstStr Hdr.operation.text (pre ++ [h]))
    (hid : lastInt Hdr.messageId.text pre = lastInt Hdr.messageId.text (pre ++ [h])) :
    SameReading (pre ++ [h]) := by
  intro before g after elems hsplit hval
  have hbefore : before = pre := by
    rcases List.append_eq_append_iff.mp hsplit with ⟨c, rfl, hc⟩ | ⟨c, hpre', hc⟩
    · cases c with
      | nil => rw [List.append_nil]
      | cons d c => exact absurd (congrArg List.length hc) (by simp)
    · cases c with
      | nil => rw [hpre', List.append_nil]
      | cons d c =>
          -- The array would stand among the headers before the last one.
          obtain ⟨rfl, -⟩ := List.cons.inj hc
          have hnone := hpre g (by simp [hpre'])
          exact absurd (hnone.symm.trans (Header.array?_eq_some.mpr hval)) (by simp)
  rw [hbefore]
  exact ⟨hop, hid⟩

/-- The headers of a request for `add` with the id `u`. -/
def addWithId (u : UInt64) : List Header :=
  [.ofInt .requestType RequestType.serviceRequest.code,
    ⟨Hdr.messageId.text.chars, .positiveInteger u⟩,
    .ofStr .senderAddress exampleClient.address, .ofStr .replyPort exampleClient.port,
    .ofStr .operation (.lit "add")] ++ [.ofArray .serviceParams [.ofInt 20, .ofInt 199]]

theorem wireRequest_addWithId (u : UInt64) :
    WireRequest Libs.reference (.lit "add") (packetOf (addWithId u)) u where
  type := rfl
  headers := by
    refine ⟨addWithId u, rfl, rfl, rfl, sameReading_concat ?_ rfl rfl, .ofArray .serviceParams _,
      List.mem_append_right _ (List.mem_singleton_self _), rfl⟩
    simp only [List.forall_mem_cons, List.not_mem_nil, false_implies, implies_true, and_true]
    exact ⟨rfl, rfl, rfl, rfl, rfl⟩

/-- The entry of such a request. -/
def addEntry (u : UInt64) : ClientReg :=
  ⟨.str exampleClient.address, .str exampleClient.port, .str (.lit "add"), intOfWord u⟩

theorem requestRead_addWithId (u : UInt64) :
    RequestRead Libs.reference (packetOf (addWithId u)) (addEntry u) :=
  ⟨rfl, rfl, rfl, rfl⟩

/-- Two requests for `add` under the ids 7 and 2³¹ + 7. -/
theorem identifies_add :
    Identifies Libs.reference (packetOf (addWithId 7)) [addEntry 7, addEntry 0x80000007] 0 := by
  have hrequests : List.Forall₂ (WireRequest Libs.reference (.lit "add"))
      [packetOf (addWithId 7), packetOf (addWithId 0x80000007)] [7, 0x80000007] :=
    .cons (wireRequest_addWithId _) (.cons (wireRequest_addWithId _) .nil)
  have hpending : List.Forall₂ (RequestRead Libs.reference)
      [packetOf (addWithId 7), packetOf (addWithId 0x80000007)] [addEntry 7, addEntry 0x80000007] :=
    .cons (requestRead_addWithId _) (.cons (requestRead_addWithId _) .nil)
  refine (identifies_iff Libs.reference hrequests hpending rfl rfl).mpr ⟨by decide, ?_⟩
  intro j v hv hlow
  match j with
  | 0 => rfl
  | 1 =>
      obtain rfl := Option.some.inj hv
      exact absurd hlow (by decide)
  | j + 2 => exact absurd hv (by simp)

/-- The response to the request with the id 2³¹ is not matched with it. -/
theorem identifies_highId :
    ¬ ∀ (E : Libs) (op : CString) (packets : List E.Buffer) (us : List UInt64)
        (pending : List ClientReg), List.Forall₂ (WireRequest E op) packets us →
      List.Forall₂ (RequestRead E) packets pending → us.Nodup →
      ∀ i packet, packets[i]? = some packet → Identifies E packet pending i := by
  intro h
  have hrequest := wireRequest_addWithId 0x80000000
  have hidentifies := h Libs.reference _ _ _ _ (.cons hrequest .nil)
    (.cons (requestRead_addWithId _) .nil) (List.nodup_singleton _) 0 _ rfl
  obtain ⟨response, hanswers⟩ := hrequest.answered
  obtain ⟨v, hcarries⟩ := hrequest.response hanswers
  have hmatched := (matchedBy_response hcarries rfl).mp ((hidentifies response hanswers 0 _ rfl).mpr rfl)
  exact absurd hmatched (by decide)

end RpcBroker
