import RpcBroker.Proofs.Checked
import RpcBroker.Proofs.RoundTrip
import RpcBroker.Proofs.Wire
/-!
# RpcBroker.Proofs.Answers

**What a stub returns.** A client takes the first connection to its port for the answer to
its call, whoever made it and whatever comes over it. `stub_returns_iff` says when the stub
returns at all, and what: the two readers differ, as `get_hdr_int` takes all headers of the
packet apart and `get_hdr_str` stops at the one it looks for.

A response that comes whole and in time is read as it was packed (`stubReply_response`).
In the system over connections a client that waits takes the step the stub takes
(`receiveOver_client`).
-/

namespace RpcBroker.Checked

open CLib Msgpack

variable {E : Libs}

/-! ### The readers -/

/-- The string under a name, in an object that is a header of this name. -/
def strUnder (E : Libs) (look : CString) (obj : Object) : Option CString :=
  (headerOf E obj).bind (Header.str? look)

theorem getHdrStrLoop_cons {obj : Object} {objs : List Object} {hd : Header} {look : CString}
    {status : UnpackEnd} (hobj : headerOf E obj = some hd) :
    getHdrStrLoop E look status (obj :: objs) =
      match hd.str? look with
      | some s => .ok ⟨.str s, none⟩
      | none => getHdrStrLoop E look status objs := by
  rw [getHdrStrLoop, extractHeader_headerOf hobj]
  cases hval : hd.val with
  | str bytes =>
      simp only [bind, Except.bind, Header.str?, hval, Stulibc.strEquals_str, decide_eq_true_eq]
      by_cases hkey : look = hd.key
      · rw [if_pos hkey, if_pos hkey]
      · rw [if_neg hkey, if_neg hkey]
  | _ => simp only [bind, Except.bind, Header.str?, hval]

/-- The loop of `get_hdr_str` returns the first string it looks for, if the objects up to
it are headers. -/
theorem getHdrStrLoop_headers {objs : List Object} {look : CString} {status : UnpackEnd}
    (h : ∀ obj ∈ Buffers.through (fun obj => (strUnder E look obj).isSome) objs, IsHeader obj) :
    getHdrStrLoop E look status objs = .ok (match objs.findSome? (strUnder E look) with
      | some s => ⟨.str s, none⟩
      | none => ⟨.unassigned, some status⟩) := by
  induction objs with
  | nil => rfl
  | cons obj objs ih =>
      rw [Buffers.through, List.forall_mem_cons] at h
      obtain ⟨hd, hheader, -, -⟩ := h.1.headerOf (E := E)
      have hunder : strUnder E look obj = hd.str? look := by rw [strUnder, hheader]; rfl
      rw [getHdrStrLoop_cons hheader]
      cases hstr : hd.str? look with
      | some s =>
          rw [hstr] at hunder
          rw [List.findSome?_cons_of_isSome (by rw [hunder]; rfl), hunder]
      | none =>
          rw [hstr] at hunder
          rw [List.findSome?_cons_of_isNone (by rw [hunder]; rfl)]
          refine ih fun obj' hobj' => h.2 obj' ?_
          rwa [hunder, if_neg (by simp)]

/-- What `get_hdr_str` needs of a packet, and what it returns. -/
theorem getHdrStr_eq_ok {packet : E.Buffer} {look : CString} {p : Ptr} :
    getHdrStr E packet look = .ok p ↔
      (∀ obj ∈ Buffers.through (fun obj => (strUnder E look obj).isSome)
        (E.unpack packet).objects, IsHeader obj) ∧
        p = strResult ((E.unpack packet).objects.findSome? (strUnder E look)) := by
  have hstops : stopsAt E (leavesAt E look) = fun obj => (strUnder E look obj).isSome :=
    funext (stopsAt_leavesAt look)
  rw [getHdrStr, reading_eq_ok, takeApart_eq_ok (E := E), hstops]
  refine and_congr_right fun hheaders => ?_
  rw [RpcBroker.getHdrStr, getHdrStrScan, getHdrStrLoop_headers hheaders, eq_comm (a := p)]
  cases (E.unpack packet).objects.findSome? (strUnder E look) <;>
    exact ⟨Except.ok.inj, congrArg Except.ok⟩

/-- `value` is what a stub of result type `ret` reads in the packet. -/
def ReadsReply (E : Libs) (packet : E.Buffer) : CType → StubResult → Prop
  | .int, value =>
      Readable E packet ∧
        value = .int ((lastInt Hdr.reply.text (headersIn E packet)).getD 0)
  | .charPtr, value =>
      (∀ obj ∈ Buffers.through (fun obj => (strUnder E Hdr.reply.text obj).isSome)
        (E.unpack packet).objects, IsHeader obj) ∧
        value = .ptr (strResult ((E.unpack packet).objects.findSome? (strUnder E Hdr.reply.text)))

theorem stubReturn_eq_ok {packet : E.Buffer} {ret : CType} {value : StubResult} :
    stubReturn E ret packet = .ok value ↔ ReadsReply E packet ret value := by
  cases ret with
  | int =>
      rw [stubReturn, ReadsReply, bind_eq_ok]
      simp only [getHdrInt_eq_ok, pure_eq_ok]
      constructor
      · intro h
        obtain ⟨v, ⟨hreadable, rfl⟩, rfl⟩ := h
        exact ⟨hreadable, rfl⟩
      · intro h
        obtain ⟨hreadable, rfl⟩ := h
        exact ⟨_, ⟨hreadable, rfl⟩, rfl⟩
  | charPtr =>
      rw [stubReturn, ReadsReply, bind_eq_ok]
      simp only [getHdrStr_eq_ok, pure_eq_ok]
      constructor
      · intro h
        obtain ⟨p, ⟨hheaders, rfl⟩, rfl⟩ := h
        exact ⟨hheaders, rfl⟩
      · intro h
        obtain ⟨hheaders, rfl⟩ := h
        exact ⟨_, ⟨hheaders, rfl⟩, rfl⟩

/-- What it returns then is what the model says. -/
theorem stubReturn_refines {packet : E.Buffer} {ret : CType} {value : StubResult}
    (h : stubReturn E ret packet = .ok value) : RpcBroker.stubReturn E ret packet = .ok value := by
  cases ret with
  | int =>
      obtain ⟨v, hv, hvalue⟩ := bind_eq_ok.mp h
      exact bind_eq_ok.mpr ⟨v, (reading_eq_ok.mp hv).2, pure_eq_ok.mpr (pure_eq_ok.mp hvalue)⟩
  | charPtr =>
      obtain ⟨p, hp, hvalue⟩ := bind_eq_ok.mp h
      exact bind_eq_ok.mpr ⟨p, (reading_eq_ok.mp hp).2, pure_eq_ok.mpr (pure_eq_ok.mp hvalue)⟩

theorem stubReturn_of_headers {packet : E.Buffer} {ret : CType} {value : StubResult}
    (hheaders : ∀ obj ∈ (E.unpack packet).objects, IsHeader obj)
    (h : RpcBroker.stubReturn E ret packet = .ok value) : stubReturn E ret packet = .ok value := by
  cases ret with
  | int =>
      obtain ⟨v, hv, hvalue⟩ := bind_eq_ok.mp h
      exact bind_eq_ok.mpr ⟨v, reading_eq_ok.mpr ⟨takeApart_of_headers hheaders, hv⟩,
        pure_eq_ok.mpr (pure_eq_ok.mp hvalue)⟩
  | charPtr =>
      obtain ⟨p, hp, hvalue⟩ := bind_eq_ok.mp h
      exact bind_eq_ok.mpr ⟨p, reading_eq_ok.mpr ⟨takeApart_of_headers hheaders, hp⟩,
        pure_eq_ok.mpr (pure_eq_ok.mp hvalue)⟩

/-! ### The wait -/

/-- Does the wait of `waitForResponse` end with this arrival? -/
def Awaits (wait_response_indef : Bool) (next : Arrival) : Bool :=
  wait_response_indef || next.inTime 60000000

variable {C : ByteCodec} {S : Stulibc} {wait_response_indef : Bool} {s : Socket} {c : Connection}

theorem waitForResponse_eq :
    waitForResponse wait_response_indef s c =
      if Awaits wait_response_indef c.arrival then c.receive .getResponse
      else .error (.waiting (.timeout (.lit "timeout!"))) := by
  have hset : fdIsset s (fdSet s fdZero) = true := fdIsset_fdSet ..
  have husecs : (⟨60, 0⟩ : Timeval).usecs = 60000000 := rfl
  cases wait_response_indef with
  | true =>
      simp only [waitForResponse, Bool.not_true, Bool.false_eq_true, if_false,
        select_none c.arrival hset, afterWait_connection, Awaits, Bool.true_or, if_true]
      rfl
  | false =>
      rw [Awaits, Bool.false_or]
      by_cases htime : c.arrival.inTime 60000000 = true
      · simp only [waitForResponse, Bool.not_false, if_true, select, hset, husecs, htime,
          Bool.and_self, afterWait_connection]
        rfl
      · simp only [waitForResponse, Bool.not_false, if_true, select, hset, husecs, htime,
          Bool.and_false, Bool.false_eq_true, if_false, afterWait_timeout]
        rfl

/-! ### The stub -/

/-- **When a stub returns, and what**: a connection came in time, or the client waits
indefinitely; `accept` succeeded; a byte behind the length could be read, and no more than
an `int` can count; and `value` is what the reader of the result type makes of the packet. -/
theorem stub_returns_iff {ret : CType} {value : StubResult} :
    stubReply C S ret wait_response_indef s c = .ok value ↔
      (Awaits wait_response_indef c.arrival = true ∧ c.accepted = true ∧ 1 ≤ c.got ∧
        c.got < 0x80000000) ∧
      ∀ packet, c.receive .getResponse = .ok packet →
        ReadsReply (Libs.ofBytes C S) packet ret value := by
  rw [← c.receive_iff .getResponse, stubReply, waitForResponse_eq]
  by_cases hawaits : Awaits wait_response_indef c.arrival = true
  · rw [if_pos hawaits]
    cases hpacket : c.receive .getResponse with
    | error e => simp [bind, Except.bind]
    | ok packet =>
        have hread : stubReturn (Libs.ofBytes C S) ret packet = .ok value ↔
            ReadsReply (Libs.ofBytes C S) packet ret value := stubReturn_eq_ok
        simp only [bind, Except.bind, hread, hawaits, Except.ok.injEq, exists_eq', true_and,
          forall_eq']
  · rw [if_neg hawaits]
    simp [bind, Except.bind, hawaits]

/-- A response that comes whole, and in time, gives the stub the result. -/
theorem stubReply_response {payload : List UInt8} {op : CString} {id : Int32} {v : Arg}
    (hcarries : (Libs.ofBytes C S).Carries payload (responseHeaders op id v))
    (hdelivers : c.Delivers payload) (hawaits : Awaits wait_response_indef c.arrival = true) :
    stubReply C S v.type wait_response_indef s c = .ok v.received := by
  have hheaders : ∀ obj ∈ ((Libs.ofBytes C S).unpack payload).objects, IsHeader obj := by
    rw [hcarries.objects]
    simp only [responseHeaders, List.map_cons, List.map_nil, List.forall_mem_cons]
    exact ⟨isHeader_hdr .requestType _, isHeader_hdr .messageId _, isHeader_hdr .operation _,
      isHeader_hdr .reply _, by simp⟩
  rw [stubReply, waitForResponse_eq, if_pos hawaits, hdelivers.receive .getResponse]
  exact stubReturn_of_headers hheaders (stubReturn_response hcarries)

/-- A client that waits returns what its stub does. -/
theorem receiveOver_client {w : World} {net : Net (.ofBytes C S)} {m : Flight (List UInt8)}
    {d : Details} {n : Nat} {call : ClientCall} (hdest : m.sent.dest.details? = some d)
    (hbroker : d ≠ w.broker) (hserver : w.server d = none) (hwaiting : net.waiting d = some n)
    (hcall : net.calls[n]? = some call) {value : StubResult}
    (hreply : stubReply C S call.ret wait_response_indef s c = .ok value) :
    receiveOver w net m c =
      some { net with
        waiting := Function.update net.waiting d none
        returned := net.returned ++ [⟨n, m.call, value⟩] } := by
  have hreceiver : m.sent.dest.details?.bind (net.receiver? w) = some .getResponse := by
    rw [hdest, Option.bind_some, Net.receiver?, if_neg hbroker, hserver, hwaiting]
    rfl
  obtain ⟨packet, hpacket, hvalue⟩ := bind_eq_ok.mp hreply
  have hreceive : c.receive .getResponse = .ok packet := by
    rw [waitForResponse_eq] at hpacket
    split at hpacket
    next => exact hpacket
    next => exact absurd hpacket (by simp)
  rw [receiveOver, hreceiver]
  simp only [hreceive, receive, hdest, if_neg hbroker, hserver, clientReceives, hwaiting, hcall,
    bind, Option.bind_some, stubReturn_refines hvalue]

end RpcBroker.Checked
