import RpcBroker.Proofs.RoundTrip
/-!
# RpcBroker.Proofs.Agreement

**Two programs read one request.** The broker routes and records a request by
the first `op` and the last `message-id` of the packet, wherever they stand; the
server runs, at each array, the last `op` and the last `message-id` *before it*.

The two readings coincide exactly when nothing is repeated or out of order in a
way that matters (`SameReading`): `mem_marshalCalls` lists the server's calls by
the place of the array, and the rest is a comparison of lookups.
-/

namespace RpcBroker

open CLib Msgpack

variable {E : Libs}

/-! ### The server's calls by place -/

/-- A place in `a :: l` is its head, or a place in `l`. -/
theorem exists_split_cons {α : Type} {a : α} {l : List α} {P : List α → α → Prop} :
    (∃ before b after, a :: l = before ++ b :: after ∧ P before b) ↔
      P [] a ∨ ∃ before b after, l = before ++ b :: after ∧ P (a :: before) b := by
  constructor
  · intro h
    obtain ⟨before, b, after, heq, hP⟩ := h
    cases before with
    | nil =>
        obtain ⟨rfl, rfl⟩ := List.cons.inj heq
        exact Or.inl hP
    | cons c before =>
        obtain ⟨rfl, htail⟩ := List.cons.inj heq
        exact Or.inr ⟨before, b, after, htail, hP⟩
  · intro h
    rcases h with hP | ⟨before, b, after, heq, hP⟩
    · exact ⟨[], a, l, rfl, hP⟩
    · exact ⟨a :: before, b, after, by rw [heq]; rfl, hP⟩

/-- The header is an array, and `call` is made with the last id and the last
operation of the headers `before` it. -/
def MakesCall (broker : Details) (call : Call) (before : List Header) (h : Header) : Prop :=
  ∃ elems, h.val = .array elems ∧
    call = callAt broker (lastInt Hdr.messageId.text before)
      (strResult (lastStr Hdr.operation.text before)) elems

/-- With `pre` read, the variables hold the last id and operation of `pre`. -/
theorem mem_marshalCalls_after (broker : Details) (call : Call) (hs pre : List Header) :
    call ∈ marshalCalls broker hs (lastInt Hdr.messageId.text pre)
        (strResult (lastStr Hdr.operation.text pre)) ↔
      ∃ before h after, hs = before ++ h :: after ∧ MakesCall broker call (pre ++ before) h := by
  induction hs generalizing pre with
  | nil => simp [marshalCalls]
  | cons h hs ih =>
      have hid : nextId (lastInt Hdr.messageId.text pre) h =
          lastInt Hdr.messageId.text (pre ++ [h]) := (lastInt_concat _ _ _).symm
      have hop : nextOp (strResult (lastStr Hdr.operation.text pre)) h =
          strResult (lastStr Hdr.operation.text (pre ++ [h])) := nextStr_strResult _ _ _
      have hrest := ih (pre ++ [h])
      simp only [List.append_assoc, List.singleton_append] at hrest
      rw [exists_split_cons (P := fun before g => MakesCall broker call (pre ++ before) g), ← hrest,
        marshalCalls, List.append_nil, MakesCall]
      cases hval : h.val with
      | array elems =>
          -- An array leaves the id and the operation as they are.
          have hint : nextId (lastInt Hdr.messageId.text pre) h =
              lastInt Hdr.messageId.text pre := by simp [nextId, Header.int?, hval]
          have hstr : nextOp (strResult (lastStr Hdr.operation.text pre)) h =
              strResult (lastStr Hdr.operation.text pre) := by
            simp [nextOp, nextStr, Header.str?, hval]
          rw [← hid, ← hop, hint, hstr]
          simp
      | _ => simp [hid, hop]

/-- The calls the server makes: one at each array. -/
theorem mem_marshalCalls (broker : Details) (hs : List Header) (call : Call) :
    call ∈ marshalCalls broker hs none .unassigned ↔
      ∃ before h after, hs = before ++ h :: after ∧ MakesCall broker call before h :=
  mem_marshalCalls_after broker call hs []

/-! ### Requests -/

/-- A request packet: a request type first, short names, and an operation, a
message id and parameters somewhere. -/
structure RequestPacket (hs : List Header) : Prop where
  first : ∃ h rest, hs = h :: rest ∧
    h.int? Hdr.requestType.text = some RequestType.serviceRequest.code
  short : ∀ h ∈ hs, h.name.length < maxHeaderNameSize
  operation : ∃ h ∈ hs, (h.str? Hdr.operation.text).isSome
  message_id : ∃ h ∈ hs, ∃ u : UInt64, h.key = Hdr.messageId.text ∧
    h.val = .positiveInteger u ∧ u.toNat < 0x80000000
  params : ∃ h ∈ hs, ∃ elems, h.key = Hdr.serviceParams.text ∧ h.val = .array elems

/-- The requests clients pack are request packets. -/
theorem requestPacket_request (client : Details) {rand : Int32} (hrand : 0 ≤ rand)
    (op : CString) (args : List Arg) : RequestPacket (requestHeaders client rand op args) where
  first := ⟨_, _, rfl, by simp [RequestType.code_nonneg]⟩
  short := by
    intro h hmem
    simp only [requestHeaders, List.mem_cons, List.not_mem_nil, or_false] at hmem
    rcases hmem with rfl | rfl | rfl | rfl | rfl | rfl <;> exact Hdr.text_short _
  operation := ⟨.ofStr .operation op, by simp [requestHeaders], by simp⟩
  message_id := by
    refine ⟨.ofInt .messageId rand, by simp [requestHeaders], wordOfInt rand, by simp,
      Object.ofInt_nonneg hrand, ?_⟩
    rw [toNat_wordOfInt hrand]
    exact rand.toNatClampNeg_lt
  params := ⟨.ofArray .serviceParams (args.map Arg.object), by simp [requestHeaders], _, by simp,
    rfl⟩

/-- Every call the server makes is for the operation the broker routes the packet
by, and for the operation and the id it records. -/
def Agrees (E : Libs) (packet : E.Buffer) (broker : Details) : Prop :=
  ∀ calls, unpackMarshalCallSend E packet broker = .ok calls → ∀ call ∈ calls,
    getOpName E packet = .ok call.operation ∧
    getHdrStr E packet Hdr.operation.text = .ok call.operation ∧
    ∃ id, call.message_id = some id ∧ getHdrInt E packet Hdr.messageId.text = .ok id

/-- Before every array the last operation is the first of the packet, and the last
id is the last of the packet. -/
def SameReading (hs : List Header) : Prop :=
  ∀ before h after elems, hs = before ++ h :: after → h.val = .array elems →
    lastStr Hdr.operation.text before = firstStr Hdr.operation.text hs ∧
    lastInt Hdr.messageId.text before = lastInt Hdr.messageId.text hs

theorem agrees_iff_calls {packet : E.Buffer} {hs : List Header} (hcarries : E.Carries packet hs)
    {op : CString} (hop : firstStr Hdr.operation.text hs = some op)
    {id : Int32} (hid : lastInt Hdr.messageId.text hs = some id) (broker : Details) :
    Agrees E packet broker ↔ ∀ call ∈ marshalCalls broker hs none .unassigned,
      call.operation = .str op ∧ call.message_id = some id := by
  unfold Agrees
  rw [unpackMarshalCallSend_carries hcarries, getOpName_carries hcarries,
    getHdrStr_carries hcarries, getHdrInt_carries hcarries, hop, hid]
  simp only [strResult_some, Except.ok.injEq, Option.getD_some, forall_eq', exists_eq_right']
  refine forall₂_congr fun call _ => ?_
  constructor
  · intro h
    exact ⟨h.1.symm, h.2.2⟩
  · intro h
    exact ⟨h.1.symm, h.1.symm, h.2⟩

theorem firstStr_of_isSome {look : CString} {hs : List Header}
    (h : ∃ h ∈ hs, (h.str? look).isSome) : ∃ s, firstStr look hs = some s := by
  obtain ⟨h, hmem, hsome⟩ := h
  refine Option.isSome_iff_exists.mp ?_
  rw [firstStr, List.findSome?_isSome_iff]
  exact ⟨h, hmem, hsome⟩

theorem lastInt_of_isSome {look : CString} {hs : List Header}
    (h : ∃ h ∈ hs, (h.int? look).isSome) : ∃ i, lastInt look hs = some i := by
  obtain ⟨h, hmem, hsome⟩ := h
  obtain ⟨i, hi⟩ := Option.isSome_iff_exists.mp hsome
  refine Option.isSome_iff_exists.mp ?_
  rw [lastInt, List.getLast?_isSome]
  exact List.ne_nil_of_mem (List.mem_filterMap.mpr ⟨h, hmem, hi⟩)

theorem RequestPacket.readings {hs : List Header} (h : RequestPacket hs) :
    (∃ op, firstStr Hdr.operation.text hs = some op) ∧
      ∃ id, lastInt Hdr.messageId.text hs = some id := by
  refine ⟨firstStr_of_isSome h.operation, lastInt_of_isSome ?_⟩
  obtain ⟨g, hmem, u, hkey, hval, -⟩ := h.message_id
  exact ⟨g, hmem, by simp [Header.int?, hval, hkey]⟩

/-- **Broker and server read the same request** exactly when, before every array,
the last operation is the packet's first and the last id is the packet's last. -/
theorem agrees_iff_sameReading (E : Libs) {packet : E.Buffer} {hs : List Header}
    (hcarries : E.Carries packet hs) (hpacket : RequestPacket hs) (broker : Details) :
    Agrees E packet broker ↔ SameReading hs := by
  obtain ⟨⟨op, hop⟩, ⟨id, hid⟩⟩ := hpacket.readings
  rw [agrees_iff_calls hcarries hop hid, SameReading, hop, hid]
  constructor
  · intro h before g after elems hsplit hval
    obtain ⟨hcallop, hcallid⟩ :=
      h _ ((mem_marshalCalls broker hs _).mpr ⟨before, g, after, hsplit, elems, hval, rfl⟩)
    refine ⟨?_, hcallid⟩
    cases hlast : lastStr Hdr.operation.text before with
    | none => simp [callAt, hlast, strResult] at hcallop
    | some s => simpa [callAt, hlast, strResult] using hcallop
  · intro h call hcall
    obtain ⟨before, g, after, hsplit, elems, hval, rfl⟩ := (mem_marshalCalls broker hs _).mp hcall
    obtain ⟨hlastop, hlastid⟩ := h before g after elems hsplit hval
    simp [callAt, hlastop, hlastid]

/-- The headers of the request for `add(20, 199)` are in such an order. -/
theorem sameReading_add :
    SameReading (requestHeaders exampleClient 7 (.lit "add") [.int 20, .int 199]) := by
  have hpacket := requestPacket_request exampleClient (show (0 : Int32) ≤ 7 by decide) (.lit "add")
    [.int 20, .int 199]
  have hcarries : Libs.reference.Carries addRequest
      (requestHeaders exampleClient 7 (.lit "add") [.int 20, .int 199]) := rfl
  refine (agrees_iff_sameReading Libs.reference hcarries hpacket exampleServer).mp ?_
  rw [agrees_iff_calls hcarries (by rfl) (by rfl),
    marshalCalls_request exampleServer exampleClient (by decide)]
  intro call hcall
  obtain rfl := List.mem_singleton.mp hcall
  exact ⟨rfl, rfl⟩

/-- A request for `add` that names `subtract` as well. -/
def twoOperations : List Header :=
  [.ofInt .requestType RequestType.serviceRequest.code, .ofInt .messageId 7,
    .ofStr .operation (.lit "add"), .ofStr .operation (.lit "subtract"), .ofArray .serviceParams []]

/-- The broker routes it as `add`, the server runs `subtract`. -/
theorem agrees_twoOperations :
    ¬ ∀ (E : Libs) (packet : E.Buffer) (hs : List Header) (broker : Details),
      E.Carries packet hs → RequestPacket hs → Agrees E packet broker := by
  intro h
  have hpacket : RequestPacket twoOperations := by
    refine ⟨⟨_, _, rfl, by decide⟩, by decide, ⟨_, List.mem_of_getElem? (i := 2) rfl, by decide⟩,
      ⟨_, List.mem_of_getElem? (i := 1) rfl, 7, by decide, rfl, by decide⟩,
      ⟨_, List.mem_of_getElem? (i := 4) rfl, _, by decide, rfl⟩⟩
  have hcarries : Libs.reference.Carries (packetOf twoOperations) twoOperations := rfl
  have hop : firstStr Hdr.operation.text twoOperations = some (.lit "add") := rfl
  have hid : lastInt Hdr.messageId.text twoOperations = some 7 := rfl
  have hagrees := (agrees_iff_calls hcarries hop hid exampleServer).mp
    (h Libs.reference _ _ exampleServer hcarries hpacket)
  obtain ⟨hcallop, -⟩ := hagrees (callAt exampleServer (some 7) (.str (.lit "subtract")) [])
    (List.mem_of_getElem? (i := 0) rfl)
  exact absurd hcallop (by decide)

end RpcBroker
