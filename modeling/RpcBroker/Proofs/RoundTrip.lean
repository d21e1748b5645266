import RpcBroker.Proofs.Decoders
import RpcBroker.Proofs.Messages
/-!
# RpcBroker.Proofs.RoundTrip

**Arguments and results across the wire.** A call leaves the client as a packed
request and reaches the server's stub as an array of pointers; its result goes
back as a response.

Both ways lose negative integers. The packer writes them as such, and the
reader tags them `NEGATIVE_INTEGER`, a type neither `unpack_marshal_call_send`
nor `get_hdr_int` has a branch for: the stub is handed a null pointer, the
client a 0. Everything else arrives, which makes non-negativity the exact
condition in both directions.
-/

namespace RpcBroker

open CLib Msgpack

variable {E : Libs}

/-! ### The generated format -/

theorem formatOfToken_int : formatOfToken CType.int.text = [percent, convInt] := by decide

theorem formatOfToken_charPtr : formatOfToken CType.charPtr.text = [percent, convStr] := by decide

/-- The generator's loop, started at a type, appends one conversion for each
parameter and skips the names. -/
theorem formatLoop_paramTokens (params : List Param) :
    ∀ i, i % 2 = 0 →
      formatLoop i (paramTokens params) = params.flatMap fun p => formatOfToken p.type.text := by
  have hstep : ∀ (p : Param) (name : CString) (tokens : List CString) (i : Nat), i % 2 = 0 →
      formatLoop i ([p.type.text, name] ++ tokens) =
        formatOfToken p.type.text ++ formatLoop (i + 2) tokens := by
    intro p name tokens i hi
    have hodd : ¬ (i + 1) % 2 = 0 := by omega
    simp only [List.cons_append, List.nil_append, formatLoop, if_pos hi, if_neg hodd]
  induction params with
  | nil => intro i _; rfl
  | cons p params ih =>
      intro i hi
      have heven : (i + 2) % 2 = 0 := by omega
      rw [List.flatMap_cons, ← ih (i + 2) heven]
      cases params with
      | nil => exact hstep p p.name [] i hi
      | cons q params => exact hstep p _ (paramTokens (q :: params)) i hi

/-- The format of a stub fits arguments of the parameters' types. -/
theorem stubFormat_fits {params : List Param} {args : List Arg}
    (h : args.map Arg.type = params.map Param.type) :
    FormatFits (stubFormat params).chars args := by
  have hfits : FormatFits (params.flatMap fun p => formatOfToken p.type.text) args := by
    induction params generalizing args with
    | nil =>
        obtain rfl : args = [] := by simpa using h
        exact .nil
    | cons p params ih =>
        obtain ⟨a, as, rfl, ha, has⟩ := List.map_eq_cons_iff.mp h
        rw [List.flatMap_cons, ← ha]
        cases a with
        | int v => exact formatOfToken_int ▸ .int v (ih has)
        | str s => exact formatOfToken_charPtr ▸ .str s (ih has)
  -- A C string ends at the first NUL, so the format must not contain one.
  have hnul : 0 ∉ params.flatMap fun p => formatOfToken p.type.text := by
    intro hmem
    obtain ⟨p, -, hp⟩ := List.mem_flatMap.mp hmem
    cases htype : p.type with
    | int => exact absurd (htype ▸ hp) (by decide)
    | charPtr => exact absurd (htype ▸ hp) (by decide)
  rw [stubFormat, formatLoop_paramTokens params 0 rfl, CString.chars_ofBytes hnul]
  exact hfits

/-! ### Arguments -/

theorem marshalCalls_ofInt (broker : Details) (k : Hdr) (i : Int32) (hs : List Header)
    (id : Option Int32) (op : Ptr) :
    marshalCalls broker (Header.ofInt k i :: hs) id op =
      marshalCalls broker hs (nextId id (Header.ofInt k i)) op := by
  have hop : nextOp op (Header.ofInt k i) = op := by
    rw [nextOp, nextStr, Header.str?_ofInt]
  rw [marshalCalls, hop]
  by_cases hi : 0 ≤ i
  · simp only [Header.ofInt, Object.ofInt_nonneg hi]
  · simp only [Header.ofInt, Object.ofInt_neg hi]

theorem marshalCalls_ofStr (broker : Details) (k : Hdr) (s : CString) (hs : List Header)
    (id : Option Int32) (op : Ptr) :
    marshalCalls broker (Header.ofStr k s :: hs) id op =
      marshalCalls broker hs id (nextOp op (Header.ofStr k s)) := by
  have hid : nextId id (Header.ofStr k s) = id := by
    rw [nextId, Header.int?_ofStr, Option.none_or]
  rw [marshalCalls, hid]
  rfl

/-- A client's request makes exactly one call, with its id and operation and an
entry for each argument. -/
theorem marshalCalls_request (broker client : Details) {rand : Int32} (hrand : 0 ≤ rand)
    (op : CString) (args : List Arg) :
    marshalCalls broker (requestHeaders client rand op args) none .unassigned =
      [callAt broker (some rand) (.str op) (args.map Arg.object)] := by
  rw [requestHeaders, marshalCalls_ofInt, marshalCalls_ofInt, marshalCalls_ofStr,
    marshalCalls_ofStr, marshalCalls_ofStr]
  simp [marshalCalls, nextId, nextOp, nextStr, Header.ofArray, hrand]

/-- The request a client packs, as the server's decoder takes it apart. -/
theorem request_calls {fmt : CString} {args : List Arg} (hfit : FormatFits fmt.chars args)
    {rand : Int32} (hrand : 0 ≤ rand) (client : Details) (op : CString) (broker : Details) :
    ∃ ts, packClientRequestData client rand op fmt args = some ts ∧
      unpackMarshalCallSend E (E.pack ts) broker =
        .ok [callAt broker (some rand) (.str op) (args.map Arg.object)] := by
  obtain ⟨ts, hts, hparse⟩ := packClientRequestData_parse client rand op hfit
  refine ⟨ts, hts, ?_⟩
  rw [unpackMarshalCallSend_carries (carries_of_parse hparse), marshalCalls_request _ _ hrand]

/-- An argument is read back from the entry made for it unless it is a negative
integer. -/
theorem read_ofObject_iff (a : Arg) :
    (ParamPtr.ofObject a.object).read a.type = some a ↔ ∀ v, a = .int v → 0 ≤ v := by
  cases a with
  | str s => simp [Arg.object, Arg.type, ParamPtr.ofObject, ParamPtr.read]
  | int v =>
      by_cases hv : 0 ≤ v
      · simp [Arg.object, Arg.type, Object.ofInt_nonneg hv, ParamPtr.ofObject, ParamPtr.read,
          wordOfInt, hv]
      · simp [Arg.object, Arg.type, Object.ofInt_neg hv, ParamPtr.ofObject, ParamPtr.read, hv]

/-- The stub's request for the call `op(args)` reaches the server as exactly one
call with the operation, the message id and, for every parameter, an entry the
server's stub reads the argument from. -/
def ArgumentsArrive (E : Libs) (client broker : Details) (rand : Int32) (op : CString)
    (params : List Param) (args : List Arg) : Prop :=
  ∃ ts ps, packClientRequestData client rand op (stubFormat params) args = some ts ∧
    unpackMarshalCallSend E (E.pack ts) broker = .ok [⟨some rand, .str op, broker, ps⟩] ∧
    List.Forall₂ (fun (p : ParamPtr) (a : Arg) => p.read a.type = some a) ps args

theorem argumentsArrive_iff_read {client broker : Details} {rand : Int32} (hrand : 0 ≤ rand)
    {op : CString} {params : List Param} {args : List Arg}
    (htypes : args.map Arg.type = params.map Param.type) :
    ArgumentsArrive E client broker rand op params args ↔
      ∀ a ∈ args, (ParamPtr.ofObject a.object).read a.type = some a := by
  obtain ⟨ts, hts, hcalls⟩ :=
    request_calls (E := E) (stubFormat_fits htypes) hrand client op broker
  have hread : ArgumentsArrive E client broker rand op params args ↔
      List.Forall₂ (fun (p : ParamPtr) (a : Arg) => p.read a.type = some a)
        ((args.map Arg.object).map ParamPtr.ofObject) args := by
    constructor
    · intro h
      obtain ⟨ts', ps, hts', hcalls', hread⟩ := h
      obtain rfl : ts = ts' := Option.some.inj (hts.symm.trans hts')
      rw [hcalls] at hcalls'
      simp only [callAt, Except.ok.injEq, List.cons.injEq, Call.mk.injEq, true_and,
        and_true] at hcalls'
      exact hcalls' ▸ hread
    · intro h
      exact ⟨ts, _, hts, hcalls, h⟩
  rw [hread, List.map_map, List.forall₂_map_left_iff, List.forall₂_same]
  rfl

/-- **Arguments survive the wire** exactly when no `int` among them is
negative. -/
theorem argumentsArrive_iff (E : Libs) (client broker : Details) {rand : Int32}
    (hrand : 0 ≤ rand) (op : CString) {params : List Param} {args : List Arg}
    (htypes : args.map Arg.type = params.map Param.type) :
    ArgumentsArrive E client broker rand op params args ↔ ∀ v, Arg.int v ∈ args → 0 ≤ v := by
  rw [argumentsArrive_iff_read hrand htypes]
  constructor
  · intro h v hv
    exact (read_ofObject_iff (.int v)).mp (h _ hv) v rfl
  · intro h a ha
    exact (read_ofObject_iff a).mpr fun v hv => h v (hv ▸ ha)

/-- `sayHello(20, "Stuart")` arrives whole. -/
theorem argumentsArrive_sayHello :
    ArgumentsArrive Libs.reference ⟨.lit "127.0.0.1", .lit "9091"⟩ ⟨.lit "127.0.0.1", .lit "9090"⟩
      1804289383 (.lit "sayHello") [⟨.int, .lit "age"⟩, ⟨.charPtr, .lit "name"⟩]
      [.int 20, .str (.lit "Stuart")] :=
  (argumentsArrive_iff Libs.reference _ _ (by decide) _ rfl).mpr (by simp)

/-- `diffirence(200, -1)` does not: the second entry is a null pointer. -/
theorem argumentsArrive_diffirence_neg :
    ¬ ∀ (E : Libs) (client broker : Details) (rand : Int32) (op : CString) (params : List Param)
      (args : List Arg), 0 ≤ rand → args.map Arg.type = params.map Param.type →
      ArgumentsArrive E client broker rand op params args := by
  intro h
  have harrive := h Libs.reference ⟨.lit "127.0.0.1", .lit "9091"⟩ ⟨.lit "127.0.0.1", .lit "9090"⟩
    1804289383 (.lit "diffirence") [⟨.int, .lit "one"⟩, ⟨.int, .lit "two"⟩]
    [.int 200, .int (-1)] (by decide) rfl
  have hread := (argumentsArrive_iff_read (by decide) rfl).mp harrive (.int (-1)) (by simp)
  exact absurd hread (by decide)

/-! ### Results -/

/-- A result as the client's stub hands it on. -/
def Arg.returned : Arg → StubResult
  | .int v => .int v
  | .str s => .ptr (.str s)

/-- The response packed for the result `v` of the call `message_id` of `op` gives
`v` back where the client's stub reads it, and the id and the operation where the
broker does. -/
def ResultSurvives (E : Libs) (op : CString) (message_id : Int32) (v : Arg) : Prop :=
  ∃ ts, packClientResponseData op message_id (responseFormat v.type) [v] = some ts ∧
    stubReturn E v.type (E.pack ts) = .ok v.returned ∧
    getHdrInt E (E.pack ts) Hdr.messageId.text = .ok message_id ∧
    getHdrStr E (E.pack ts) Hdr.operation.text = .ok (.str op)

theorem responseFormat_fits (v : Arg) : FormatFits (responseFormat v.type).chars [v] := by
  cases v with
  | int v =>
      have hchars : (CString.lit "%d").chars = [percent, convInt] := by decide
      exact hchars ▸ .int v .nil
  | str s =>
      have hchars : (CString.lit "%s").chars = [percent, convStr] := by decide
      exact hchars ▸ .str s .nil

/-- The id in a response, to `get_hdr_int`: a negative one is not found. -/
theorem lastInt_messageId_response (op : CString) (id : Int32) (v : Arg) :
    lastInt Hdr.messageId.text (responseHeaders op id v) = if 0 ≤ id then some id else none := by
  have hreply : Header.int? Hdr.messageId.text ⟨Hdr.reply.text.chars, v.object⟩ = none := by
    cases v with
    | int w => exact (Header.int?_ofInt .messageId .reply w).trans (by simp)
    | str s => rfl
  simp [responseHeaders, lastInt_cons, hreply]

theorem firstStr_operation_response (op : CString) (id : Int32) (v : Arg) :
    firstStr Hdr.operation.text (responseHeaders op id v) = some op := by
  simp [responseHeaders, firstStr_cons]

/-- What the client's stub returns for a response with the result `v`. -/
def Arg.received : Arg → StubResult
  | .int v => .int (if 0 ≤ v then v else 0)
  | .str s => .ptr (.str s)

theorem stubReturn_response {packet : E.Buffer} {op : CString} {id : Int32} {v : Arg}
    (h : E.Carries packet (responseHeaders op id v)) :
    stubReturn E v.type packet = .ok v.received := by
  cases v with
  | int w =>
      have hlast : lastInt Hdr.reply.text (responseHeaders op id (.int w)) =
          if 0 ≤ w then some w else none := by
        have hreply := Header.int?_ofInt .reply .reply w
        simp only [Header.ofInt, true_and] at hreply
        simp [responseHeaders, lastInt_cons, Arg.object, hreply]
      rw [Arg.type, stubReturn, getHdrInt_carries h, hlast]
      by_cases hw : 0 ≤ w
      · simp [bind, Except.bind, pure, Except.pure, Arg.received, hw]
      · simp [bind, Except.bind, pure, Except.pure, Arg.received, hw]
  | str s =>
      have hfirst : firstStr Hdr.reply.text (responseHeaders op id (.str s)) = some s := by
        have hreply := Header.str?_ofStr .reply .reply s
        simp only [Header.ofStr, if_true] at hreply
        simp [responseHeaders, firstStr_cons, Arg.object, hreply]
      rw [Arg.type, stubReturn, getHdrStr_carries h, hfirst]
      rfl

theorem resultSurvives_iff_read (op : CString) (id : Int32) (v : Arg) :
    ResultSurvives E op id v ↔
      (if 0 ≤ id then id else 0) = id ∧ v.received = v.returned := by
  obtain ⟨ts, hts, hparse⟩ := packClientResponseData_parse op id (responseFormat_fits v)
  have hcarries : E.Carries (E.pack ts) (responseHeaders op id v) := carries_of_parse hparse
  have hid : getHdrInt E (E.pack ts) Hdr.messageId.text = .ok (if 0 ≤ id then id else 0) := by
    rw [getHdrInt_carries hcarries, lastInt_messageId_response]
    by_cases hi : 0 ≤ id
    · simp [hi]
    · simp [hi]
  have hop : getHdrStr E (E.pack ts) Hdr.operation.text = .ok (.str op) := by
    rw [getHdrStr_carries hcarries, firstStr_operation_response]
    rfl
  have hret := stubReturn_response hcarries
  constructor
  · intro h
    obtain ⟨ts', hts', hret', hid', -⟩ := h
    obtain rfl : ts = ts' := Option.some.inj (hts.symm.trans hts')
    exact ⟨Except.ok.inj (hid.symm.trans hid'), Except.ok.inj (hret.symm.trans hret')⟩
  · intro h
    exact ⟨ts, hts, by rw [hret, h.2], by rw [hid, h.1], hop⟩

/-- **Results survive the wire** exactly when the message id and an integer
result are not negative. -/
theorem resultSurvives_iff (E : Libs) (op : CString) (message_id : Int32) (v : Arg) :
    ResultSurvives E op message_id v ↔ 0 ≤ message_id ∧ ∀ w, v = .int w → 0 ≤ w := by
  have hkeep : ∀ i : Int32, (if 0 ≤ i then i else 0) = i ↔ 0 ≤ i := by
    intro i
    constructor
    · intro h
      by_contra hi
      rw [if_neg hi] at h
      exact hi (h ▸ Int32.le_refl 0)
    · intro h
      exact if_pos h
  rw [resultSurvives_iff_read, hkeep]
  cases v with
  | int w => simp [Arg.returned, Arg.received, hkeep]
  | str s => simp [Arg.returned, Arg.received]

/-- `diffirence(578, 200)` is -378, which the client receives as 0. -/
theorem resultSurvives_diffirence_neg :
    ¬ ∀ (E : Libs) (op : CString) (message_id : Int32) (v : Arg),
      ResultSurvives E op message_id v := by
  intro h
  have hread := (resultSurvives_iff_read _ _ _).mp (h Libs.reference (.lit "diffirence") 7
    (.int (-378)))
  exact absurd hread.2 (by decide)

end RpcBroker
