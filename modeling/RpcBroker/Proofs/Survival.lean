import RpcBroker.Proofs.Connections
import RpcBroker.Proofs.Digestible
import RpcBroker.Proofs.Execution
import RpcBroker.Proofs.Handling
import RpcBroker.Proofs.Serving
/-!
# RpcBroker.Proofs.Survival

**What ends the broker and the server**, connection by connection.

The broker handles its connections one after the other. `Outlived` is the exact condition on
a connection and on the repositories it meets (`broker_outlives_iff`).

In the server a thread that calls `exit`, or reads what has no defined value, or fails to
send ends the process with all other threads. `Endured` is the exact condition on a
connection and on what `isRegistered` is when its thread gets there. Which that is depends
on the order of the threads: before the acknowledgement requests are dropped.
`handled_in_orders_iff` says which connections can be handled in every order, and
`server_survives_iff` that these are the ones no schedule of the threads ends at.
-/

namespace RpcBroker.Checked

open CLib Msgpack
open scoped List

/-! ### The broker -/

section Broker

variable {C : ByteCodec} {S : Stulibc} {listening_socket : Socket}

end Broker

/-! ### The calls of a request -/

variable {E : Libs} {program : ServerProgram} {broker : Details}

/-- The call can be made: the operation, which every block compares, is a string, and what
the stub of that name reads has been sent at its type. -/
structure Answerable (program : ServerProgram) (call : Call) : Prop where
  compared : program.protos ≠ [] → ∃ op, call.operation = .str op
  read : ∀ proto ∈ program.protos, call.operation = .str proto.name →
    (readParams proto.params call.params).isSome ∧ call.message_id.isSome

/-- The stubs that are called, in order. -/
def calledStubs (program : ServerProgram) (calls : List Call) : List Proto :=
  calls.flatMap fun call => program.protos.filter fun proto => call.operation = .str proto.name

/-- A block sends one response to the broker if it is its function that is called, and
nothing if it is not. -/
theorem stubBlock_sends {call : Call} {op : CString} (hop : call.operation = .str op)
    {proto : Proto} {block : List (Sent E.Buffer)}
    (h : stubBlock E program call proto = some block) :
    block.length = (if op = proto.name then 1 else 0) ∧
      ∀ sent ∈ block, sent.dest.details?.isSome := by
  rw [stubBlock, hop, Stulibc.strEquals_str] at h
  by_cases hname : op = proto.name
  · rw [if_pos (decide_eq_true hname)] at h
    simp only [Option.bind_eq_bind, Option.bind_eq_some_iff] at h
    obtain ⟨args, -, op', -, id, -, response, -, hblock⟩ := h
    obtain rfl := Option.some.inj hblock
    rw [if_pos hname]
    exact ⟨rfl, List.forall_mem_singleton.mpr rfl⟩
  · rw [if_neg (by simpa using hname)] at h
    obtain rfl := Option.some.inj h
    rw [if_neg hname]
    exact ⟨rfl, by simp⟩

theorem callBlocks_eq_ok {call : Call} {op : CString} (hop : call.operation = .str op)
    {protos : List Proto} {sents : List (Sent E.Buffer)} :
    callBlocks E program call protos = .ok sents ↔
      ∃ blocks, protos.mapM (stubBlock E program call) = some blocks ∧ blocks.flatten = sents := by
  induction protos generalizing sents with
  | nil => simp [callBlocks, eq_comm]
  | cons proto protos ih =>
      have hequal : strEquals call.operation (.str proto.name) = .ok (decide (op = proto.name)) := by
        rw [hop]
        rfl
      rw [callBlocks, hequal]
      simp only [bind, Except.bind, mapM_cons_eq_some]
      cases hblock : stubBlock E program call proto with
      | none => simp
      | some block =>
          have hrest : (do
              let rest ← callBlocks E program call protos
              return block ++ rest) = Except.ok sents ↔
              ∃ rest, callBlocks E program call protos = .ok rest ∧ block ++ rest = sents := by
            simp only [bind_eq_ok, pure_eq_ok]
          refine hrest.trans ?_
          simp only [ih]
          constructor
          · intro h
            obtain ⟨_, ⟨blocks, hblocks, rfl⟩, rfl⟩ := h
            exact ⟨block :: blocks, ⟨block, blocks, rfl, hblocks, rfl⟩, rfl⟩
          · intro h
            obtain ⟨_, ⟨block', blocks, hsame, hblocks, rfl⟩, rfl⟩ := h
            obtain rfl := Option.some.inj hsame
            exact ⟨blocks.flatten, ⟨blocks, hblocks, rfl⟩, rfl⟩

theorem callBlocks_sends {call : Call} {op : CString} (hop : call.operation = .str op)
    {protos : List Proto} {blocks : List (List (Sent E.Buffer))}
    (h : protos.mapM (stubBlock E program call) = some blocks) :
    blocks.flatten.length = (protos.filter fun proto => call.operation = .str proto.name).length ∧
      ∀ sent ∈ blocks.flatten, sent.dest.details?.isSome := by
  induction protos generalizing blocks with
  | nil =>
      obtain rfl : [] = blocks := Option.some.inj h
      exact ⟨rfl, by simp⟩
  | cons proto protos ih =>
      obtain ⟨block, rest, hblock, hrest, rfl⟩ := mapM_cons_eq_some.mp h
      obtain ⟨hlength, hdest⟩ := stubBlock_sends hop hblock
      obtain ⟨hlengths, hdests⟩ := ih hrest
      refine ⟨?_, List.forall_mem_append.mpr ⟨hdest, hdests⟩⟩
      rw [List.flatten_cons, List.length_append, hlength, hlengths]
      by_cases hname : op = proto.name
      · rw [if_pos hname, List.filter_cons_of_pos (by simp [hop, hname]), List.length_cons]
        omega
      · rw [if_neg hname, List.filter_cons_of_neg (by simp [hop, hname]), Nat.zero_add]

/-- **One call**: it can be made exactly if it is answerable; then each stub that is called
has sent its response. -/
theorem callBlocks_returns_iff (htyped : program.Typed) {call : Call} :
    (∃ sents, callBlocks E program call program.protos = .ok sents) ↔
      Answerable program call := by
  cases hop : call.operation with
  | str op =>
      have hdefined : (∃ blocks, program.protos.mapM (stubBlock E program call) = some blocks) ↔
          ∀ proto ∈ program.protos, call.operation = .str proto.name →
            (readParams proto.params call.params).isSome ∧ call.message_id.isSome := by
        rw [exists_mapM_iff]
        refine forall₂_congr fun proto hproto => ?_
        rw [stubBlock_returns_iff htyped hproto, hop, Stulibc.strEquals_str]
        simp [Ptr.string?]
      constructor
      · intro h
        obtain ⟨sents, h⟩ := h
        obtain ⟨blocks, hblocks, -⟩ := (callBlocks_eq_ok hop).mp h
        exact ⟨fun _ => ⟨op, hop⟩, hdefined.mp ⟨blocks, hblocks⟩⟩
      · intro h
        obtain ⟨blocks, hblocks⟩ := hdefined.mpr h.read
        exact ⟨_, (callBlocks_eq_ok hop).mpr ⟨blocks, hblocks, rfl⟩⟩
  | _ =>
      cases hprotos : program.protos with
      | nil =>
          refine iff_of_true ⟨[], rfl⟩ ⟨fun hne => absurd hprotos hne, ?_⟩
          rw [hprotos]
          simp
      | cons proto protos =>
          refine iff_of_false (fun h => ?_) (fun h => ?_)
          · obtain ⟨sents, h⟩ := h
            rw [callBlocks, hop] at h
            exact absurd h (by simp [strEquals, deref, bind, Except.bind])
          · obtain ⟨op, hstr⟩ := h.compared (by simp [hprotos])
            exact absurd (hop.symm.trans hstr) (by simp)

/-- What the blocks send for a call is what the model says. -/
theorem callBlocks_refines {call : Call} {sents : List (Sent E.Buffer)}
    (h : callBlocks E program call program.protos = .ok sents) :
    callMarshelResponseSend E program call = some sents := by
  cases hprotos : program.protos with
  | nil =>
      rw [hprotos] at h
      obtain rfl := Except.ok.inj h
      simp [callMarshelResponseSend, hprotos]
  | cons proto protos =>
      cases hop : call.operation with
      | str op =>
          obtain ⟨blocks, hblocks, rfl⟩ := (callBlocks_eq_ok hop).mp h
          rw [callMarshelResponseSend, hblocks]
          rfl
      | _ =>
          rw [hprotos, callBlocks, hop] at h
          exact absurd h (by simp [strEquals, deref, bind, Except.bind])

/-- Answering the calls is answering each of them. -/
theorem answerCalls_eq_ok {calls : List Call} {sents : List (Sent E.Buffer)} :
    answerCalls E program calls = .ok sents ↔
      ∃ sentss, List.Forall₂ (fun call sents => callBlocks E program call program.protos = .ok sents)
        calls sentss ∧ sentss.flatten = sents := by
  induction calls generalizing sents with
  | nil => simp [answerCalls, eq_comm]
  | cons call calls ih =>
      rw [answerCalls, bind_eq_ok]
      simp only [bind_eq_ok, pure_eq_ok, ih, List.forall₂_cons_left_iff]
      constructor
      · intro h
        obtain ⟨first, hfirst, _, ⟨rest, hrest, rfl⟩, rfl⟩ := h
        exact ⟨first :: rest, ⟨first, rest, hfirst, hrest, rfl⟩, rfl⟩
      · intro h
        obtain ⟨_, ⟨first, rest, hfirst, hrest, rfl⟩, rfl⟩ := h
        exact ⟨first, hfirst, rest.flatten, ⟨rest, hrest, rfl⟩, rfl⟩

theorem answerCalls_refines {calls : List Call} {sents : List (Sent E.Buffer)}
    (h : answerCalls E program calls = .ok sents) :
    ∃ sentss, calls.mapM (callMarshelResponseSend E program) = some sentss ∧
      sentss.flatten = sents := by
  obtain ⟨sentss, hsentss, rfl⟩ := answerCalls_eq_ok.mp h
  refine ⟨sentss, ?_, rfl⟩
  clear h
  induction hsentss with
  | nil => rfl
  | cons hcall _ ih => exact mapM_cons_eq_some.mpr ⟨_, _, callBlocks_refines hcall, ih, rfl⟩

theorem answerCalls_returns_iff (htyped : program.Typed) {calls : List Call} :
    (∃ sents, answerCalls E program calls = .ok sents) ↔
      ∀ call ∈ calls, Answerable program call := by
  have hall : (∃ sentss, List.Forall₂
      (fun call sents => callBlocks E program call program.protos = .ok sents) calls sentss) ↔
      ∀ call ∈ calls, Answerable program call := by
    simp only [← callBlocks_returns_iff (E := E) htyped]
    induction calls with
    | nil => simp
    | cons call calls ih =>
        rw [List.forall_mem_cons, ← ih]
        simp only [List.forall₂_cons_left_iff]
        constructor
        · intro h
          obtain ⟨_, first, rest, hfirst, hrest, rfl⟩ := h
          exact ⟨⟨first, hfirst⟩, ⟨rest, hrest⟩⟩
        · intro h
          obtain ⟨⟨first, hfirst⟩, ⟨rest, hrest⟩⟩ := h
          exact ⟨_, first, rest, hfirst, hrest, rfl⟩
  rw [← hall]
  simp only [answerCalls_eq_ok]
  constructor
  · intro h
    obtain ⟨_, sentss, hsentss, -⟩ := h
    exact ⟨sentss, hsentss⟩
  · intro h
    obtain ⟨sentss, hsentss⟩ := h
    exact ⟨_, sentss, hsentss, rfl⟩

/-- What is sent for calls is one response to the broker from each stub that is called. -/
theorem answerCalls_sends (htyped : program.Typed) {calls : List Call}
    {sents : List (Sent E.Buffer)} (h : answerCalls E program calls = .ok sents) :
    sents.length = (calledStubs program calls).length ∧
      ∀ sent ∈ sents, sent.dest.details?.isSome := by
  obtain ⟨sentss, hsentss, rfl⟩ := answerCalls_eq_ok.mp h
  clear h
  induction hsentss with
  | nil => exact ⟨rfl, by simp⟩
  | @cons call sents calls sentss hcall _ ih =>
      have hblocks : sents.length =
          (program.protos.filter fun proto => call.operation = .str proto.name).length ∧
            ∀ sent ∈ sents, sent.dest.details?.isSome := by
        have hanswerable := (callBlocks_returns_iff htyped).mp ⟨sents, hcall⟩
        cases hprotos : program.protos with
        | nil =>
            rw [hprotos] at hcall
            obtain rfl := Except.ok.inj hcall
            exact ⟨rfl, by simp⟩
        | cons proto protos =>
            obtain ⟨op, hop⟩ := hanswerable.compared (by simp [hprotos])
            obtain ⟨blocks, hmap, rfl⟩ := (callBlocks_eq_ok hop).mp hcall
            rw [← hprotos]
            exact callBlocks_sends hop hmap
      obtain ⟨hlength, hdest⟩ := ih
      refine ⟨?_, List.forall_mem_append.mpr ⟨hblocks.2, hdest⟩⟩
      rw [List.flatten_cons, List.length_append, hblocks.1, hlength, calledStubs, calledStubs,
        List.flatMap_cons, List.length_append]

theorem sendAll_eq_ok {Buffer : Type} {sents : List (Sent Buffer)} {sends : Sends}
    (hdest : ∀ sent ∈ sents, sent.dest.details?.isSome) :
    sendAll sents sends = .ok () ↔ ∀ k < sents.length, (sends k).Succeed := by
  induction sents generalizing sends with
  | nil => simp [sendAll]
  | cons sent sents ih =>
      obtain ⟨hfirst, hrest⟩ := List.forall_mem_cons.mp hdest
      rw [sendAll, bind_eq_ok]
      simp only [sendReq_eq_ok, ih hrest, List.length_cons]
      constructor
      · intro h
        obtain ⟨total, ⟨-, hsucceed, -⟩, hmore⟩ := h
        intro k hk
        cases k with
        | zero => exact hsucceed
        | succ k => exact hmore k (Nat.lt_of_succ_lt_succ hk)
      · intro h
        exact ⟨_, ⟨hfirst, h 0 (Nat.succ_pos _), rfl⟩, fun k hk => h (k + 1) (Nat.succ_lt_succ hk)⟩

/-! ### One packet -/

/-- The calls of the packet can be made, and their responses are sent. -/
structure Callable (E : Libs) (program : ServerProgram) (broker : Details) (sends : Sends)
    (packet : E.Buffer) : Prop where
  headers : ∀ obj ∈ (E.unpack packet).objects, IsHeader obj
  answerable : ∀ call ∈ marshalCalls broker (headersIn E packet) none .unassigned,
    Answerable program call
  sent : ∀ k < (calledStubs program
    (marshalCalls broker (headersIn E packet) none .unassigned)).length, (sends k).Succeed

/-- The packet gets through the server. It has no complete object, or starts with its
request type; and if it is a request to a registered server, it can make its calls. -/
def Servable (E : Libs) (program : ServerProgram) (broker : Details) (sends : Sends)
    (isRegistered : Bool) (packet : E.Buffer) : Prop :=
  ∃ t, getReqType E packet = .ok t ∧
    (t = RequestType.serviceRequest.code → isRegistered = true →
      Callable E program broker sends packet)

variable {C : ByteCodec} {S : Stulibc} {x : Exchange} {isRegistered : Bool}

theorem marshalCallSend_returns_iff (htyped : program.Typed) {sends : Sends}
    {packet : List UInt8} :
    (∃ sents, marshalCallSend C S program broker sends packet = .ok sents) ↔
      Callable (Libs.ofBytes C S) program broker sends packet := by
  have hcalls : (∀ obj ∈ ((Libs.ofBytes C S).unpack packet).objects, IsHeader obj) →
      unpackMarshalCallSend (Libs.ofBytes C S) packet broker =
        .ok (marshalCalls broker (headersIn (Libs.ofBytes C S) packet) none .unassigned) := by
    intro hheaders
    have hentries := (entries_iff (E := Libs.ofBytes C S)).mpr fun obj hobj => by
      obtain ⟨name, val, rfl, -⟩ := hheaders obj hobj
      exact ⟨.str name, val, rfl⟩
    exact unpackMarshalLoop_entries hentries broker none .unassigned
  constructor
  · intro h
    obtain ⟨sents, h⟩ := h
    obtain ⟨calls, hread, h⟩ := bind_eq_ok.mp h
    obtain ⟨htaken, hunpack⟩ := reading_eq_ok.mp hread
    have hheaders := takeApart_goesThrough.mp htaken
    obtain rfl := Except.ok.inj ((hcalls hheaders).symm.trans hunpack)
    obtain ⟨answers, hanswers, h⟩ := bind_eq_ok.mp h
    obtain ⟨⟨⟩, hsent, -⟩ := bind_eq_ok.mp h
    obtain ⟨hlength, hdest⟩ := answerCalls_sends htyped hanswers
    refine ⟨hheaders, (answerCalls_returns_iff htyped).mp ⟨_, hanswers⟩, ?_⟩
    rw [← hlength]
    exact (sendAll_eq_ok hdest).mp hsent
  · intro h
    obtain ⟨sents, hsents⟩ := (answerCalls_returns_iff (E := Libs.ofBytes C S) htyped).mpr h.answerable
    obtain ⟨hlength, hdest⟩ := answerCalls_sends htyped hsents
    have hsent := h.sent
    rw [← hlength] at hsent
    exact ⟨sents, bind_eq_ok.mpr ⟨_, reading_eq_ok.mpr
      ⟨takeApart_goesThrough.mpr h.headers, hcalls h.headers⟩, bind_eq_ok.mpr
        ⟨sents, hsents, bind_eq_ok.mpr ⟨(), (sendAll_eq_ok hdest).mpr hsent, rfl⟩⟩⟩⟩

/-- What a request is answered with is what the model says. -/
theorem marshalCallSend_refines {sends : Sends} {packet : List UInt8}
    {sents : List (Sent (List UInt8))}
    (h : marshalCallSend C S program broker sends packet = .ok sents) :
    RpcBroker.marshalCallSend C S program broker packet = .ok sents := by
  obtain ⟨calls, hread, h⟩ := bind_eq_ok.mp h
  obtain ⟨answers, hanswers, h⟩ := bind_eq_ok.mp h
  obtain ⟨⟨⟩, -, h⟩ := bind_eq_ok.mp h
  obtain rfl := Except.ok.inj h
  obtain ⟨sentss, hsentss, rfl⟩ := answerCalls_refines hanswers
  rw [RpcBroker.marshalCallSend, (reading_eq_ok.mp hread).2]
  simp only [hsentss]

/-! ### One connection -/

/-- A connection does not end the server if it can read a byte behind the length, no more
than an `int` can count, and the packet gets through. -/
def Endured (C : ByteCodec) (S : Stulibc) (program : ServerProgram) (broker : Details)
    (isRegistered : Bool) (x : Exchange) : Prop :=
  (x.accepted = true ∧ 1 ≤ x.got ∧ x.got < 0x80000000) ∧
    ∀ packet, x.receive .readAndProcessDataOnSocket = .ok packet →
      Servable (Libs.ofBytes C S) program broker x.sends isRegistered packet

/-- An acknowledgement comes over the connection. -/
def Acknowledges (C : ByteCodec) (S : Stulibc) (x : Exchange) : Prop :=
  ∃ packet, x.receive .readAndProcessDataOnSocket = .ok packet ∧
    IsAck (Libs.ofBytes C S) packet

/-- What acknowledges is endured by a server that is registered and by one that is not. -/
theorem Endured.of_acknowledges (h : Endured C S program broker isRegistered x)
    (hack : Acknowledges C S x) (registered : Bool) : Endured C S program broker registered x := by
  refine ⟨h.1, fun packet hpacket => ?_⟩
  obtain ⟨packet', hpacket', htype'⟩ := hack
  obtain rfl := Except.ok.inj (hpacket.symm.trans hpacket')
  obtain ⟨t, htype, -⟩ := h.2 packet hpacket
  obtain rfl := Except.ok.inj ((getReqType_eq_ok.mp htype).2.symm.trans htype')
  exact ⟨_, htype, fun ht => absurd ht (by decide)⟩

/-- What a thread does with a packet of type `t`. -/
def Handled (C : ByteCodec) (S : Stulibc) (program : ServerProgram) (broker : Details)
    (isRegistered : Bool) (sends : Sends) (packet : List UInt8) (t : Int32)
    (r : Bool × List (Sent (List UInt8))) : Prop :=
  if t = RequestType.serviceRegistrationAck.code then r = (true, [])
  else if t = RequestType.serviceRequest.code ∧ isRegistered = true then
    r.1 = isRegistered ∧ marshalCallSend C S program broker sends packet = .ok r.2
  else r = (isRegistered, [])

/-- A thread that gets through has decoded the type of its packet before. -/
theorem handle_eq_ok {r : Bool × List (Sent (List UInt8))} :
    (threadServer C S program broker).handle isRegistered x = .ok r ↔
      ∃ packet t, x.receive .readAndProcessDataOnSocket = .ok packet ∧
        getReqType (Libs.ofBytes C S) packet = .ok t ∧
        Handled C S program broker isRegistered x.sends packet t r := by
  simp only [Workers.Job.handle, Workers.Job.enter, threadServer]
  cases x.receive .readAndProcessDataOnSocket with
  | error e => simp [bind, Except.bind]
  | ok packet =>
      simp only [bind, Except.bind, Except.ok.injEq, exists_and_left, exists_eq_left']
      cases getReqType (Libs.ofBytes C S) packet with
      | error e => simp
      | ok t =>
          simp only [pure, Except.pure, Except.ok.injEq, exists_eq_left', Handled]
          by_cases hack : t = RequestType.serviceRegistrationAck.code
          · simp only [if_pos hack, Except.ok.injEq, eq_comm]
          · simp only [if_neg hack, Bool.and_eq_true, decide_eq_true_eq]
            by_cases hreq : t = RequestType.serviceRequest.code ∧ isRegistered = true
            · simp only [if_pos hreq]
              cases marshalCallSend C S program broker x.sends packet with
              | error e => simp
              | ok sents => simp [Prod.ext_iff, eq_comm]
            · simp only [if_neg hreq, Except.ok.injEq, eq_comm]

/-- A thread that gets through does what the model says. -/
theorem handle_refines {r : Bool × List (Sent (List UInt8))}
    (h : (threadServer C S program broker).handle isRegistered x = .ok r) :
    (RpcBroker.threadServer C S program broker).handle isRegistered x.toConnection = .ok r := by
  obtain ⟨packet, t, hpacket, htype, hr⟩ := handle_eq_ok.mp h
  simp only [Workers.Job.handle, Workers.Job.enter, RpcBroker.threadServer, hpacket,
    (getReqType_eq_ok.mp htype).2, Except.mapError, bind, Except.bind, pure, Except.pure]
  by_cases hack : t = RequestType.serviceRegistrationAck.code
  · rw [Handled, if_pos hack] at hr
    simp only [if_pos hack, hr]
  · rw [Handled, if_neg hack] at hr
    by_cases hreq : t = RequestType.serviceRequest.code ∧ isRegistered = true
    · rw [if_pos hreq] at hr
      have hreq' : (t = RequestType.serviceRequest.code && isRegistered) = true := by
        simpa using hreq
      simp only [if_neg hack, if_pos hreq', marshalCallSend_refines hr.2]
      rw [← hr.1]
    · rw [if_neg hreq] at hr
      have hreq' : ¬ (t = RequestType.serviceRequest.code && isRegistered) = true := by
        simpa using hreq
      simp only [if_neg hack, if_neg hreq', hr]

theorem handle_returns_iff (htyped : program.Typed) :
    (∃ r, (threadServer C S program broker).handle isRegistered x = .ok r) ↔
      Endured C S program broker isRegistered x := by
  have hhandled : ∀ packet t, (∃ r, Handled C S program broker isRegistered x.sends packet t r) ↔
      (t = RequestType.serviceRequest.code → isRegistered = true →
        Callable (Libs.ofBytes C S) program broker x.sends packet) := by
    intro packet t
    by_cases hack : t = RequestType.serviceRegistrationAck.code
    · have hne : t ≠ RequestType.serviceRequest.code := hack ▸ by decide
      simp only [Handled, if_pos hack]
      exact iff_of_true ⟨_, rfl⟩ fun h => absurd h hne
    · simp only [Handled, if_neg hack]
      by_cases hreq : t = RequestType.serviceRequest.code ∧ isRegistered = true
      · simp only [hreq.1, hreq.2, forall_const, ← marshalCallSend_returns_iff htyped]
        constructor
        · intro h
          obtain ⟨⟨_, sents⟩, -, hsents⟩ := h
          exact ⟨sents, hsents⟩
        · intro h
          obtain ⟨sents, hsents⟩ := h
          exact ⟨(true, sents), rfl, hsents⟩
      · simp only [if_neg hreq]
        exact iff_of_true ⟨_, rfl⟩ fun ht hregistered => absurd ⟨ht, hregistered⟩ hreq
  rw [Endured, ← x.receive_iff .readAndProcessDataOnSocket]
  constructor
  · intro h
    obtain ⟨r, h⟩ := h
    obtain ⟨packet, t, hpacket, htype, hr⟩ := handle_eq_ok.mp h
    refine ⟨⟨packet, hpacket⟩, fun packet' hpacket' => ?_⟩
    obtain rfl := Except.ok.inj (hpacket.symm.trans hpacket')
    exact ⟨t, htype, (hhandled packet t).mp ⟨r, hr⟩⟩
  · intro h
    obtain ⟨⟨packet, hpacket⟩, hservable⟩ := h
    obtain ⟨t, htype, hcallable⟩ := hservable packet hpacket
    obtain ⟨r, hr⟩ := (hhandled packet t).mpr hcallable
    exact ⟨r, handle_eq_ok.mpr ⟨packet, t, hpacket, htype, hr⟩⟩

/-- A thread leaves the server registered if it was, or if the thread brings the
acknowledgement. -/
theorem handle_isRegistered {registered : Bool} {sents : List (Sent (List UInt8))}
    (h : (threadServer C S program broker).handle isRegistered x = .ok (registered, sents)) :
    registered = true ↔ isRegistered = true ∨ Acknowledges C S x := by
  obtain ⟨packet, t, hpacket, htype, hr⟩ := handle_eq_ok.mp h
  have hacks : Acknowledges C S x ↔ t = RequestType.serviceRegistrationAck.code := by
    simp [Acknowledges, IsAck, hpacket, (getReqType_eq_ok.mp htype).2]
  rw [hacks]
  by_cases hack : t = RequestType.serviceRegistrationAck.code
  · rw [Handled, if_pos hack] at hr
    simp [hack, (Prod.mk.inj hr).1]
  · rw [Handled, if_neg hack] at hr
    by_cases hreq : t = RequestType.serviceRequest.code ∧ isRegistered = true
    · rw [if_pos hreq] at hr
      obtain rfl : registered = isRegistered := hr.1
      simp [hack]
    · rw [if_neg hreq] at hr
      simp [hack, (Prod.mk.inj hr).1]

/-! ### All orders -/

/-- Two elements of a list may come first. -/
theorem exists_perm_of_mem {α : Type} {x y : α} {xs : List α} (hx : x ∈ xs) (hy : y ∈ xs)
    (hne : y ≠ x) : ∃ rest, (y :: x :: rest).Perm xs := by
  obtain ⟨before, after, rfl⟩ := List.append_of_mem hx
  have hother : y ∈ before ++ after := by
    simpa [hne] using hy
  obtain ⟨front, back, hsplit⟩ := List.append_of_mem hother
  refine ⟨front ++ back, ?_⟩
  calc y :: x :: (front ++ back)
      _ ~ x :: y :: (front ++ back) := .swap ..
      _ ~ x :: (front ++ y :: back) := List.perm_middle.symm.cons x
      _ = x :: (before ++ after) := by rw [hsplit]
      _ ~ before ++ x :: after := List.perm_middle.symm

/-- One order: a server that is registered only if an acknowledgement comes handles what it
endures. -/
theorem run_of_endured (htyped : program.Typed) {xs order : List Exchange}
    (h : ∀ x ∈ xs, Endured C S program broker false x ∧
      ((∃ ack ∈ xs, Acknowledges C S ack) → Endured C S program broker true x))
    (hmem : ∀ x ∈ order, x ∈ xs)
    (hacked : isRegistered = true → ∃ ack ∈ xs, Acknowledges C S ack) :
    ∃ r, Machine.run (threadServer C S program broker).handle isRegistered order = .ok r := by
  induction order generalizing isRegistered with
  | nil => exact ⟨_, rfl⟩
  | cons x order ih =>
      obtain ⟨hx, hmem⟩ := List.forall_mem_cons.mp hmem
      have hendured : Endured C S program broker isRegistered x := by
        cases isRegistered with
        | false => exact (h x hx).1
        | true => exact (h x hx).2 (hacked rfl)
      obtain ⟨⟨registered, sents⟩, hstep⟩ := (handle_returns_iff htyped).mpr hendured
      have hacked' : registered = true → ∃ ack ∈ xs, Acknowledges C S ack := by
        intro hregistered
        rcases (handle_isRegistered hstep).mp hregistered with hbefore | hack
        · exact hacked hbefore
        · exact ⟨x, hx, hack⟩
      obtain ⟨⟨t, outs⟩, hrest⟩ := ih hmem hacked'
      exact ⟨_, Machine.run_cons.mpr ⟨_, _, _, hstep, hrest, rfl⟩⟩

/-- The connections can be handled in each of their orders exactly if each is endured by a
server that is not registered and, should an acknowledgement come over one of them, by one
that is. -/
theorem handled_in_orders_iff (htyped : program.Typed) {xs : List Exchange} :
    (∀ order : List Exchange, order.Perm xs →
      ∃ r, Machine.run (threadServer C S program broker).handle false order = .ok r) ↔
    ∀ x ∈ xs, Endured C S program broker false x ∧
      ((∃ ack ∈ xs, Acknowledges C S ack) → Endured C S program broker true x) := by
  constructor
  · intro h x hx
    have hfirst : Endured C S program broker false x := by
      obtain ⟨before, after, rfl⟩ := List.append_of_mem hx
      obtain ⟨⟨t, outs⟩, hrun⟩ := h (x :: (before ++ after)) List.perm_middle.symm
      obtain ⟨_, _, _, hstep, -, -⟩ := Machine.run_cons.mp hrun
      exact (handle_returns_iff htyped).mp ⟨_, hstep⟩
    refine ⟨hfirst, fun hacked => ?_⟩
    obtain ⟨ack, hmem, hack⟩ := hacked
    by_cases hsame : ack = x
    · exact hfirst.of_acknowledges (hsame ▸ hack) true
    · -- The thread of `x` comes right behind that of `ack`.
      obtain ⟨rest, hperm⟩ := exists_perm_of_mem hx hmem hsame
      obtain ⟨⟨t, outs⟩, hrun⟩ := h _ hperm
      obtain ⟨registered, _, _, hstep, hrest, -⟩ := Machine.run_cons.mp hrun
      obtain rfl := (handle_isRegistered hstep).mpr (.inr hack)
      obtain ⟨_, _, _, hstep', -, -⟩ := Machine.run_cons.mp hrest
      exact (handle_returns_iff htyped).mp ⟨_, hstep'⟩
  · intro h order hperm
    exact run_of_endured htyped h (fun x hx => hperm.mem_iff.mp hx) (by simp)

/-! ### All schedules -/

theorem endured_of_delivers {payload : List UInt8} (h : x.Delivers payload)
    (hservable : Servable (Libs.ofBytes C S) program broker x.sends isRegistered payload) :
    Endured C S program broker isRegistered x := by
  have hreceive := h.receive .readAndProcessDataOnSocket
  refine ⟨(x.receive_iff .readAndProcessDataOnSocket).mp ⟨payload, hreceive⟩, ?_⟩
  intro packet hpacket
  obtain rfl := Except.ok.inj (hpacket.symm.trans hreceive)
  exact hservable

/-- An acknowledgement without its other headers, as a packet of fifteen bytes. -/
def ackPacket : List UInt8 :=
  ByteCodec.messagePack.pack
    (packMapInt Hdr.requestType.text RequestType.serviceRegistrationAck.code)

/-- It arrives whole. -/
def ackConnection : Connection := { failedConnection with stream := (sendData ackPacket 4 15).1 }

theorem ackConnection_delivers : ackConnection.Delivers ackPacket where
  accepted := rfl
  whole := ⟨⟨4, 15, 19, by decide, by decide, by decide, by decide, by decide⟩,
    ⟨rfl, by decide, by decide⟩, by decide⟩
  size := by decide

/-- A packet of only a request type that is none of a request. -/
theorem servable_requestType {t : RequestType} (ht : t ≠ .serviceRequest) {sends : Sends} :
    Servable (Libs.ofBytes C S) program broker sends isRegistered
      (C.pack (packMapInt Hdr.requestType.text t.code)) := by
  have hcarries : (Libs.ofBytes C S).Carries (C.pack (packMapInt Hdr.requestType.text t.code))
      [.ofInt .requestType t.code] :=
    carries_of_parse (completes_packMapInt .requestType t.code).encodes.parse
  have hheader : ∀ obj ∈ ((Libs.ofBytes C S).unpack
      (C.pack (packMapInt Hdr.requestType.text t.code))).objects.head?, IsHeader obj := by
    rw [hcarries.objects]
    intro obj hobj
    obtain rfl := Option.some.inj hobj
    exact isHeader_hdr .requestType _
  refine ⟨t.code, getReqType_eq_ok.mpr ⟨hheader, getReqType_ofInt hcarries⟩,
    fun hcode => absurd hcode ?_⟩
  cases t <;> first | decide | exact absurd rfl ht

/-- **Which connections the server survives**, whatever its threads do when: no thread is
ever at something that ends the process exactly if each connection is endured by a server
that is not registered and, if an acknowledgement comes over one of them, by one that is. -/
theorem server_survives_iff (htyped : program.Typed) {xs : List Exchange} :
    (∀ (events : List (Workers.Event Exchange)) (pool : ServerPool),
      events.filterMap Workers.Event.input? = xs →
      events.foldlM (threadServer C S program broker).next (.init false) = some pool →
      pool.Intact (threadServer C S program broker)) ↔
    ∀ x ∈ xs, Endured C S program broker false x ∧
      ((∃ ack ∈ xs, Acknowledges C S ack) → Endured C S program broker true x) := by
  rw [Workers.Job.intact_iff]
  exact handled_in_orders_iff htyped

/-- A packet nobody handles, and the acknowledgement. -/
theorem server_survives_two :
    addProgram.Typed ∧ ∀ (events : List (Workers.Event Exchange)) (pool : ServerPool),
      events.filterMap Workers.Event.input? =
        [⟨failedConnection, fun _ => ⟨4, 15⟩⟩, ⟨ackConnection, fun _ => ⟨4, 15⟩⟩] →
      events.foldlM (threadServer ByteCodec.messagePack Libs.reference.toStulibc addProgram
        exampleServer).next (.init false) = some pool →
      pool.Intact (threadServer ByteCodec.messagePack Libs.reference.toStulibc addProgram
        exampleServer) := by
  have htyped : addProgram.Typed := by
    intro proto hproto as
    rw [List.mem_singleton.mp hproto]
    rfl
  refine ⟨htyped, (server_survives_iff htyped).mpr ?_⟩
  intro x hx
  rcases List.mem_cons.mp hx with rfl | hx
  · exact ⟨endured_of_delivers failedConnection_delivers (servable_requestType (by decide)),
      fun _ => endured_of_delivers failedConnection_delivers (servable_requestType (by decide))⟩
  · obtain rfl := List.mem_singleton.mp hx
    exact ⟨endured_of_delivers ackConnection_delivers (servable_requestType (by decide)),
      fun _ => endured_of_delivers ackConnection_delivers (servable_requestType (by decide))⟩

end RpcBroker.Checked
