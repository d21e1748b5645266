import RpcBroker.Proofs.Agreement
import RpcBroker.Proofs.Readings
/-!
# RpcBroker.Proofs.Execution

**What a server executes.** The loop over a request makes a call at every array,
whatever the name of its header, and hands over the elements as they are; the
stub takes as many as its function has parameters, at the types of the prototype.

So a request is executed at most once, on its `params`, exactly when it carries
no other array (`oncePerRequest_iff`), and the stubs read only what was sent exactly
when each array holds the arguments of the function that is called on it
(`readsWhatWasSent_iff`).
-/

namespace RpcBroker

open CLib Msgpack

variable {E : Libs}

/-! ### One call per array -/

/-- The elements of a header that carries an array. -/
def Header.array? (h : Header) : Option (List Object) :=
  match h.val with
  | .array elems => some elems
  | _ => none

theorem Header.array?_eq_some {h : Header} {elems : List Object} :
    h.array? = some elems ↔ h.val = .array elems := by
  unfold Header.array?
  cases h.val <;> simp

@[simp] theorem Header.array?_ofInt (k : Hdr) (i : Int32) : (Header.ofInt k i).array? = none := by
  by_cases hi : 0 ≤ i
  · simp only [Header.array?, Header.ofInt, Object.ofInt_nonneg hi]
  · simp only [Header.array?, Header.ofInt, Object.ofInt_neg hi]

@[simp] theorem Header.array?_ofStr (k : Hdr) (s : CString) : (Header.ofStr k s).array? = none :=
  rfl

@[simp] theorem Header.array?_ofArray (k : Hdr) (elems : List Object) :
    (Header.ofArray k elems).array? = some elems := rfl

/-- The calls pass on the arrays, in order. -/
theorem marshalCalls_params (broker : Details) (hs : List Header) (id : Option Int32) (op : Ptr) :
    (marshalCalls broker hs id op).map Call.params =
      (hs.filterMap Header.array?).map fun elems => elems.map ParamPtr.ofObject := by
  induction hs generalizing id op with
  | nil => rfl
  | cons h hs ih =>
      rw [marshalCalls]
      cases hval : h.val with
      | array elems =>
          rw [List.filterMap_cons_some (Header.array?_eq_some.mpr hval), List.map_cons,
            List.map_cons, ih]
          rfl
      | _ =>
          have hnone : h.array? = none := by simp [Header.array?, hval]
          rw [List.filterMap_cons_none hnone]
          exact ih _ _

/-! ### One response per call -/

/-- A block sends one response if it is its function that is called, and nothing
if it is not. -/
theorem stubBlock_length {program : ServerProgram} {call : Call} {proto : Proto}
    {sents : List (Sent E.Buffer)} (h : stubBlock E program call proto = some sents) :
    sents.length ≤ if call.operation = .str proto.name then 1 else 0 := by
  unfold stubBlock at h
  by_cases hequal : E.strEquals call.operation (.str proto.name) = true
  · rw [if_pos hequal] at h
    simp only [Option.bind_eq_bind, Option.bind_eq_some_iff] at h
    obtain ⟨args, -, op, hop, id, -, ts, -, hsents⟩ := h
    obtain rfl := Option.some.inj hsents
    -- The block has read the operation, so it is a string, and the name of the function.
    have hcall : call.operation = .str proto.name := by
      cases hptr : call.operation with
      | str s =>
          rw [hptr, Stulibc.strEquals_str, decide_eq_true_eq] at hequal
          rw [hequal]
      | null => rw [hptr] at hop; exact absurd hop (by simp [Ptr.string?])
      | unassigned => rw [hptr] at hop; exact absurd hop (by simp [Ptr.string?])
    rw [if_pos hcall]
    exact Nat.le_refl _
  · rw [if_neg hequal] at h
    obtain rfl := Option.some.inj h
    exact Nat.zero_le _

/-- **A call is answered at most once**: the functions have different names. -/
theorem callMarshelResponseSend_length {program : ServerProgram} {call : Call}
    {sents : List (Sent E.Buffer)} (h : callMarshelResponseSend E program call = some sents) :
    sents.length ≤ 1 := by
  have hblocks : ∀ (protos : List Proto) (blocks : List (List (Sent E.Buffer))),
      protos.mapM (stubBlock E program call) = some blocks →
      blocks.flatten.length ≤ (protos.map Proto.name).countP fun s => call.operation = .str s := by
    intro protos
    induction protos with
    | nil =>
        intro blocks hblocks
        obtain rfl : [] = blocks := Option.some.inj hblocks
        exact Nat.zero_le _
    | cons proto protos ih =>
        intro blocks hblocks
        obtain ⟨block, rest, hblock, hrest, rfl⟩ := mapM_cons_eq_some.mp hblocks
        have hhead := stubBlock_length hblock
        have htail := ih rest hrest
        rw [List.flatten_cons, List.length_append, List.map_cons, List.countP_cons]
        simp only [decide_eq_true_eq]
        omega
  obtain ⟨blocks, hmap, rfl⟩ := callMarshelResponseSend_eq_some.mp h
  refine Nat.le_trans (hblocks program.protos blocks hmap) ?_
  cases hop : call.operation with
  | str op =>
      have hcount : (program.protos.map Proto.name).count op ≤ 1 :=
        List.nodup_iff_count_le_one.mp program.distinct op
      simpa [List.count, eq_comm, beq_eq_decide] using hcount
  | null => simp
  | unassigned => simp

/-- One call or none is answered at most once. -/
theorem readAndProcess_length {packet : E.Buffer} {program : ServerProgram} {broker : Details}
    {isRegistered isRegistered' : Bool} {sents : List (Sent E.Buffer)}
    (hcalls : ∀ calls, unpackMarshalCallSend E packet broker = .ok calls → calls.length ≤ 1)
    (h : readAndProcessDataOnSocket E program broker isRegistered packet =
      .ok (some (isRegistered', sents))) : sents.length ≤ 1 := by
  unfold readAndProcessDataOnSocket at h
  obtain ⟨t, -, h⟩ := bind_eq_ok.mp h
  split at h
  next =>
      obtain ⟨-, rfl⟩ := Prod.mk.inj (Option.some.inj (pure_eq_ok.mp h))
      exact Nat.zero_le _
  next =>
      split at h
      next =>
          obtain ⟨calls, hunpack, h⟩ := bind_eq_ok.mp h
          have hsents := pure_eq_ok.mp h
          rw [Option.bind_eq_bind, Option.bind_eq_some_iff] at hsents
          obtain ⟨blocks, hblocks, hsents⟩ := hsents
          obtain ⟨-, rfl⟩ := Prod.mk.inj (Option.some.inj hsents)
          have hone := hcalls calls hunpack
          match calls with
          | [] =>
              obtain rfl : [] = blocks := Option.some.inj hblocks
              exact Nat.zero_le _
          | [call] =>
              obtain ⟨block, rest, hblock, hrest, rfl⟩ := mapM_cons_eq_some.mp hblocks
              obtain rfl : [] = rest := Option.some.inj hrest
              rw [List.flatten_singleton]
              exact callMarshelResponseSend_length hblock
          | _ :: _ :: _ => exact absurd hone (by simp)
      next =>
          obtain ⟨-, rfl⟩ := Prod.mk.inj (Option.some.inj (pure_eq_ok.mp h))
          exact Nat.zero_le _

/-! ### One execution per request -/

/-- The packet is executed at most once, only with the array under `params`, and
answered at most once, by whatever server and in whatever state it is in. -/
def OncePerRequest (E : Libs) (packet : E.Buffer) (hs : List Header) : Prop :=
  (∀ broker calls, unpackMarshalCallSend E packet broker = .ok calls → calls.length ≤ 1 ∧
    ∀ call ∈ calls, ∃ h ∈ hs, ∃ elems, h.key = Hdr.serviceParams.text ∧ h.val = .array elems ∧
      call.params = elems.map ParamPtr.ofObject) ∧
  ∀ program broker isRegistered isRegistered' sents,
    readAndProcessDataOnSocket E program broker isRegistered packet =
      .ok (some (isRegistered', sents)) → sents.length ≤ 1

/-- The headers carry at most one array, and that one is named `params`. -/
def OnlyParams (hs : List Header) : Prop :=
  (hs.filter fun h => h.array?.isSome).length ≤ 1 ∧
    ∀ h ∈ hs, h.array?.isSome → h.key = Hdr.serviceParams.text

/-- The number of calls is the number of arrays. -/
theorem marshalCalls_length (broker : Details) (hs : List Header) (id : Option Int32) (op : Ptr) :
    (marshalCalls broker hs id op).length = (hs.filter fun h => h.array?.isSome).length := by
  have hparams := congrArg List.length (marshalCalls_params broker hs id op)
  rw [List.length_map, List.length_map] at hparams
  rw [hparams, List.length_filterMap_eq_countP, List.countP_eq_length_filter]

/-- **A request is executed at most once exactly when `params` is its only
array.** -/
theorem oncePerRequest_iff (E : Libs) {packet : E.Buffer} {hs : List Header}
    (hcarries : E.Carries packet hs) : OncePerRequest E packet hs ↔ OnlyParams hs := by
  have hunpack := fun broker => unpackMarshalCallSend_carries hcarries broker
  constructor
  · intro h
    have honce := fun broker => h.1 broker _ (hunpack broker)
    have hone : (hs.filter fun h => h.array?.isSome).length ≤ 1 := by
      rw [← marshalCalls_length exampleServer hs none .unassigned]
      exact (honce exampleServer).1
    refine ⟨hone, ?_⟩
    intro g hg harray
    obtain ⟨elems, helems⟩ := Option.isSome_iff_exists.mp harray
    obtain ⟨before, after, hsplit⟩ := List.append_of_mem hg
    have hcall := (mem_marshalCalls exampleServer hs _).mpr
      ⟨before, g, after, hsplit, elems, Header.array?_eq_some.mp helems, rfl⟩
    obtain ⟨p, hp, elems', hkey, hval, -⟩ := (honce exampleServer).2 _ hcall
    -- With one array only, the header of the call is the one named `params`.
    have hsame : ∀ a ∈ hs.filter (fun h => h.array?.isSome),
        ∀ b ∈ hs.filter (fun h => h.array?.isSome), a = b := by
      intro a ha b hb
      obtain ⟨c, hc⟩ := List.length_eq_one_iff.mp
        (Nat.le_antisymm hone (List.length_pos_of_mem ha))
      rw [hc, List.mem_singleton] at ha hb
      rw [ha, hb]
    have hgp : g = p := hsame g (List.mem_filter.mpr ⟨hg, harray⟩) p
      (List.mem_filter.mpr ⟨hp, by simp [Header.array?_eq_some.mpr hval]⟩)
    rw [hgp, hkey]
  · intro h
    obtain ⟨hone, hparams⟩ := h
    have hcalls : ∀ broker calls, unpackMarshalCallSend E packet broker = .ok calls →
        calls.length ≤ 1 := by
      intro broker calls hok
      obtain rfl := Except.ok.inj ((hunpack broker).symm.trans hok)
      rw [marshalCalls_length]
      exact hone
    refine ⟨?_, ?_⟩
    · intro broker calls hok
      refine ⟨hcalls broker calls hok, ?_⟩
      obtain rfl := Except.ok.inj ((hunpack broker).symm.trans hok)
      intro call hcall
      obtain ⟨before, g, after, hsplit, elems, hval, rfl⟩ :=
        (mem_marshalCalls broker hs call).mp hcall
      have hg : g ∈ hs := by simp [hsplit]
      exact ⟨g, hg, elems, hparams g hg (by simp [Header.array?_eq_some.mpr hval]), hval, rfl⟩
    · intro program broker isRegistered isRegistered' sents hstep
      exact readAndProcess_length (hcalls broker) hstep

/-- The request for `add(20, 199)`. -/
theorem oncePerRequest_add :
    OncePerRequest Libs.reference addRequest
      (requestHeaders exampleClient 7 (.lit "add") [.int 20, .int 199]) := by
  refine (oncePerRequest_iff Libs.reference rfl).mpr ⟨by decide, ?_⟩
  simp [requestHeaders]

/-- A request for `add` with a second array behind its parameters. -/
def twoArrays : List Header :=
  [.ofInt .requestType RequestType.serviceRequest.code, .ofInt .messageId 7,
    .ofStr .operation (.lit "add"), .ofArray .serviceParams [.ofInt 20, .ofInt 199],
    .ofArray .services [.ofInt 1, .ofInt 2]]

/-- It is executed twice. -/
theorem oncePerRequest_twoArrays :
    ¬ ∀ (E : Libs) (packet : E.Buffer) (hs : List Header), E.Carries packet hs →
      (∀ h ∈ hs, h.name.length < maxHeaderNameSize) →
      getReqType E packet = .ok RequestType.serviceRequest.code → OncePerRequest E packet hs := by
  intro h
  have hcarries : Libs.reference.Carries (packetOf twoArrays) twoArrays := rfl
  have honce := (h Libs.reference _ twoArrays hcarries (by decide) rfl).1 exampleServer _
    (unpackMarshalCallSend_carries hcarries exampleServer)
  rw [marshalCalls_length] at honce
  exact absurd honce.1 (by decide)

/-! ### The arguments of a call -/

/-- An object of the kind a parameter is declared with. -/
def CType.OfKind : CType → Object → Prop
  | .int, .positiveInteger _ => True
  | .charPtr, .str _ => True
  | _, _ => False

/-- The array holds the arguments of a parameter list: for each parameter there is
an element of its kind. -/
def Provides (elems : List Object) (params : List CType) : Prop :=
  ∀ (i : Nat) (t : CType), params[i]? = some t → ∃ obj, elems[i]? = some obj ∧ t.OfKind obj

/-- The entry made for an element can be read at a type exactly when the element
is of that kind. -/
theorem read_ofObject_isSome (t : CType) (obj : Object) :
    ((ParamPtr.ofObject obj).read t).isSome ↔ t.OfKind obj := by
  cases t <;> cases obj <;> simp [ParamPtr.ofObject, ParamPtr.read, CType.OfKind]

/-- **The reads of a stub are defined exactly when its arguments were sent.** -/
theorem readParams_isSome (params : List CType) (elems : List Object) :
    (readParams params (elems.map ParamPtr.ofObject)).isSome ↔ Provides elems params := by
  induction params generalizing elems with
  | nil => simp [readParams, Provides]
  | cons t ts ih =>
      cases elems with
      | nil =>
          refine iff_of_false (by simp [readParams]) ?_
          intro h
          obtain ⟨obj, hobj, -⟩ := h 0 t rfl
          exact absurd hobj (by simp)
      | cons obj elems =>
          have hsplit : (readParams (t :: ts) ((obj :: elems).map ParamPtr.ofObject)).isSome ↔
              ((ParamPtr.ofObject obj).read t).isSome ∧
                (readParams ts (elems.map ParamPtr.ofObject)).isSome := by
            rw [List.map_cons, readParams]
            cases (ParamPtr.ofObject obj).read t with
            | none => simp
            | some a => cases readParams ts (elems.map ParamPtr.ofObject) <;> simp
          rw [hsplit, ih, read_ofObject_isSome]
          constructor
          · rintro ⟨hhead, htail⟩ i u hu
            cases i with
            | zero =>
                obtain rfl := Option.some.inj hu
                exact ⟨obj, rfl, hhead⟩
            | succ i => exact htail i u hu
          · intro h
            refine ⟨?_, fun i u hu => h (i + 1) u hu⟩
            obtain ⟨obj', hobj', hkind⟩ := h 0 t rfl
            obtain rfl := Option.some.inj hobj'
            exact hkind

/-- Whenever a call reaches the stub of a function, it was made for an array of
the packet that has, for every parameter, an element of the declared kind, and the
entry the stub reads was assigned from it. -/
def ReadsWhatWasSent (E : Libs) (program : ServerProgram) (packet : E.Buffer)
    (hs : List Header) : Prop :=
  ∀ broker calls, unpackMarshalCallSend E packet broker = .ok calls → ∀ call ∈ calls,
    ∀ f ∈ program.protos, E.strEquals call.operation (.str f.name) = true →
      ∃ h ∈ hs, ∃ elems, h.val = .array elems ∧ ∀ (i : Nat) (t : CType), f.params[i]? = some t →
        ∃ obj, elems[i]? = some obj ∧ t.OfKind obj ∧
          call.params[i]? = some (ParamPtr.ofObject obj)

/-- Every array holds the arguments of each function whose name the last operation
before the array is equal to. -/
def ArgumentsProvided (E : Libs) (program : ServerProgram) (hs : List Header) : Prop :=
  ∀ before h after elems, hs = before ++ h :: after → h.val = .array elems →
    ∀ f ∈ program.protos,
      E.strEquals (strResult (lastStr Hdr.operation.text before)) (.str f.name) = true →
      Provides elems f.params

/-- Entries of the kinds of a parameter list come from an array that provides it. -/
theorem provides_of_entries {elems elems' : List Object} {params : List CType}
    (h : ∀ (i : Nat) (t : CType), params[i]? = some t → ∃ obj, elems'[i]? = some obj ∧
      t.OfKind obj ∧ (elems.map ParamPtr.ofObject)[i]? = some (ParamPtr.ofObject obj)) :
    Provides elems params := by
  intro i t ht
  obtain ⟨obj, -, hkind, hentry⟩ := h i t ht
  rw [List.getElem?_map, Option.map_eq_some_iff] at hentry
  obtain ⟨obj', hobj', heq⟩ := hentry
  refine ⟨obj', hobj', ?_⟩
  rw [← read_ofObject_isSome, heq, read_ofObject_isSome]
  exact hkind

/-- **The stubs read only what was sent exactly when every array holds the
arguments of the function called on it.** -/
theorem readsWhatWasSent_iff (E : Libs) (program : ServerProgram) {packet : E.Buffer}
    {hs : List Header} (hcarries : E.Carries packet hs) :
    ReadsWhatWasSent E program packet hs ↔ ArgumentsProvided E program hs := by
  have hunpack := fun broker => unpackMarshalCallSend_carries hcarries broker
  constructor
  · intro h before g after elems hsplit hval f hf hname
    have hcall := (mem_marshalCalls exampleServer hs _).mpr
      ⟨before, g, after, hsplit, elems, hval, rfl⟩
    obtain ⟨-, -, elems', -, hentries⟩ := h exampleServer _ (hunpack exampleServer) _ hcall f hf hname
    exact provides_of_entries hentries
  · intro h broker calls hok call hcall f hf hname
    obtain rfl := Except.ok.inj ((hunpack broker).symm.trans hok)
    obtain ⟨before, g, after, hsplit, elems, hval, rfl⟩ := (mem_marshalCalls broker hs call).mp hcall
    refine ⟨g, by simp [hsplit], elems, hval, ?_⟩
    intro i t ht
    obtain ⟨obj, hobj, hkind⟩ := h before g after elems hsplit hval f hf hname i t ht
    refine ⟨obj, hobj, hkind, ?_⟩
    rw [callAt, List.getElem?_map, hobj]
    rfl

theorem nodup_add : (([⟨.int, .lit "add", [.int, .int]⟩] : List Proto).map Proto.name).Nodup :=
  List.nodup_singleton _

/-- A server with the function `add`. -/
def addProgram : ServerProgram where
  protos := [⟨.int, .lit "add", [.int, .int]⟩]
  distinct := nodup_add
  result _ _ := .int 0

/-- The request for `add(20, 199)`. -/
theorem readsWhatWasSent_add :
    ReadsWhatWasSent Libs.reference addProgram addRequest
      (requestHeaders exampleClient 7 (.lit "add") [.int 20, .int 199]) := by
  refine (readsWhatWasSent_iff Libs.reference addProgram rfl).mpr ?_
  intro before g after elems hsplit hval f hf _
  obtain rfl := List.mem_singleton.mp hf
  have hmem : elems ∈ (requestHeaders exampleClient 7 (.lit "add") [.int 20, .int 199]).filterMap
      Header.array? :=
    List.mem_filterMap.mpr ⟨g, by simp [hsplit], Header.array?_eq_some.mpr hval⟩
  have helems : elems = [.ofInt 20, .ofInt 199] := by
    simpa [requestHeaders, Arg.object, eq_comm] using hmem
  rw [helems, ← readParams_isSome]
  rfl

/-- A request for `add` without arguments. -/
def addOfNothing : List Header := requestHeaders exampleClient 7 (.lit "add") []

/-- The stub of `add` reads two of them. -/
theorem readsWhatWasSent_addOfNothing :
    ¬ ∀ (E : Libs) (program : ServerProgram) (packet : E.Buffer) (hs : List Header),
      E.Carries packet hs → getReqType E packet = .ok RequestType.serviceRequest.code →
      (∃ f ∈ program.protos, firstStr Hdr.operation.text hs = some f.name) →
      (∃ h ∈ hs, h.array?.isSome) → ReadsWhatWasSent E program packet hs := by
  intro h
  have hcarries : Libs.reference.Carries (packetOf addOfNothing) addOfNothing := rfl
  have hreads := h Libs.reference addProgram _ addOfNothing hcarries rfl
    ⟨_, List.mem_singleton_self _, rfl⟩
    ⟨_, List.mem_of_getElem? (i := 5) rfl, rfl⟩
  have hunpack := unpackMarshalCallSend_carries hcarries exampleServer
  rw [addOfNothing, marshalCalls_request _ _ (by decide)] at hunpack
  obtain ⟨-, -, elems, -, hentries⟩ := hreads exampleServer _ hunpack _
    (List.mem_singleton_self _) _ (List.mem_singleton_self _) rfl
  obtain ⟨obj, -, -, hentry⟩ := hentries 0 .int rfl
  exact absurd hentry (by simp [callAt])

end RpcBroker
