import RpcBroker.Proofs.BlockRun
import RpcBroker.Proofs.BlockText
import RpcBroker.Proofs.Readings
/-!
# RpcBroker.Proofs.Capture

**Parameters that hide the request.** The generated block declares the parameters
of the interface's function next to its own use of `operation`, `message_id`,
`broker_address`, `broker_port` and `params`. A parameter by one of these names
hides what the enclosing function was called with, and the response goes out with
the argument in its place. By any other names the block answers the request it was
given (`answers_iff`), as the block it was modelled as before
(`runServerBlock_eq_stubBlock`).
-/

namespace RpcBroker

open CLib Msgpack Perl CBlock

variable {E : Libs} {proto : Prototype} {result : List Arg → Arg} {args : List Arg}
  {message_id : Int32} {broker : Details} {verbose : Bool} {ps : List ParamPtr}

/-- The entries of `params` fit the parameters. -/
def Fits (params : List (CType × Identifier)) (ps : List ParamPtr) : Prop :=
  List.Forall₂ (fun param p => (p.read param.1).isSome = true) params ps

/-- **The block answers the request it was given**: in every call with fitting
arguments it sends one response, with the operation and the message id that were
passed in, to the address and port that were passed in. -/
def Answers (proto : Prototype) : Prop :=
  ∀ (E : Libs) (result : List Arg → Arg) (message_id : Int32) (broker : Details) (verbose : Bool)
    (ps : List ParamPtr), (∀ args, (result args).type = proto.ret) → Fits proto.params ps →
    ∃ fmt results tokens,
      packClientResponseData (.ofBytes proto.name.chars) message_id fmt results = some tokens ∧
      runServerBlock E proto result message_id (.ofBytes proto.name.chars) broker verbose ps =
        some [(tokens, broker.location)]

/-- The variables of the enclosing function the block depends on. -/
def captured : List Text :=
  [text "operation", text "message_id", text "broker_address", text "broker_port", text "params"]

/-- Fitting entries are read. -/
theorem Fits.readParams {params : List (CType × Identifier)} (h : Fits params ps) :
    ∃ args, readParams (params.map Prod.fst) ps = some args := by
  induction h with
  | nil => exact ⟨[], rfl⟩
  | cons hp _ ih =>
      obtain ⟨a, ha⟩ := Option.isSome_iff_exists.mp hp
      obtain ⟨as, has⟩ := ih
      exact ⟨a :: as, by simp [RpcBroker.readParams, ha, has]⟩

/-! ### What the names mean -/

/-- What a variable of the enclosing function means behind the declarations: what it
was called with, or an argument if a parameter has its name. -/
structure Means (proto : Prototype) (args : List Arg) (x : Text) (outer v : CVal) : Prop where
  free : x ∉ proto.names → v = outer
  hidden : x ∈ proto.names → ∃ a ∈ args, v = .ofArg a

theorem exists_means (hres : Resolves proto) (hlen : args.length = proto.params.length)
    {operation : CString} {env : Env CVal}
    (henv : bodyEnv proto args message_id operation broker verbose ps = env) {x : Text}
    {outer : CVal} (hx : x ≠ text "response")
    (houter : (callEnv message_id operation broker verbose ps).lookup x = some (some outer)) :
    ∃ v, valueOf env x = some v ∧ Means proto args x outer v := by
  rw [← henv]
  by_cases hmem : x ∈ proto.names
  · obtain ⟨q, hq, rfl⟩ : ∃ q ∈ proto.params.zip args, q.1.2.chars = x := by
      rw [← zip_names hlen] at hmem
      exact List.mem_map.mp hmem
    exact ⟨_, valueOf_bodyEnv hres hlen hq, fun h => absurd hmem h,
      fun _ => ⟨q.2, (List.of_mem_zip hq).2, rfl⟩⟩
  · refine ⟨outer, ?_, fun _ => rfl, fun h => absurd h hmem⟩
    rw [valueOf, lookup_bodyEnv hlen hmem, List.lookup_cons, beq_false_of_ne hx, houter]
    rfl

theorem truth_ofArg (a : Arg) : ∃ b, (CVal.ofArg a).truth = some b := by
  cases a with
  | int v => exact ⟨_, rfl⟩
  | str s => exact ⟨_, rfl⟩

/-- Packing a response. -/
theorem runPackResponse_iff {op id : CVal} {fmt : CString} {r : Arg}
    {q : CVal × List (List Token × Location)} :
    runPackResponse [.ref .sbuffer, op, id, .ptr (.str fmt), .ofArg r] = some q ↔
      ∃ s i tokens, op = .ptr (.str s) ∧ id = .int i ∧
        packClientResponseData s i fmt [r] = some tokens ∧ q = (.packet tokens, []) := by
  have harg : (CVal.ofArg r).arg? = some r := by
    cases r with
    | int v => rfl
    | str s => rfl
  constructor
  · intro h
    rw [runPackResponse.eq_def] at h
    split at h
    · rename_i p i fmt' v heq
      simp only [List.cons.injEq, CVal.ptr.injEq, and_true, true_and] at heq
      obtain ⟨rfl, rfl, rfl, rfl⟩ := heq
      cases p with
      | str s =>
          rw [harg] at h
          cases htokens : packClientResponseData s i fmt [r] with
          | none => simp [Ptr.string?, htokens] at h
          | some tokens =>
              refine ⟨s, i, tokens, rfl, rfl, htokens, ?_⟩
              simpa [Ptr.string?, htokens, eq_comm] using h
      | null => simp [Ptr.string?] at h
      | unassigned => simp [Ptr.string?] at h
    · exact absurd h (by simp)
  · rintro ⟨s, i, tokens, rfl, rfl, htokens, rfl⟩
    simp [runPackResponse, Ptr.string?, harg, htokens]

/-- Sending it. -/
theorem runSendReq_iff {address port v : CVal} {b : Bool} (htruth : v.truth = some b)
    {tokens : List Token} {sent : List (List Token × Location)} :
    (runSendReq [.ref (.packet tokens), address, port, v]).map Prod.snd = some sent ↔
      ∃ dest : Location, address = .ptr dest.address ∧ port = .ptr dest.port ∧
        sent = [(tokens, dest)] := by
  constructor
  · intro h
    rw [runSendReq.eq_def] at h
    split at h
    · rename_i tokens' p q v' heq
      simp only [List.cons.injEq, CVal.ref.injEq, CVal.packet.injEq, and_true] at heq
      obtain ⟨rfl, rfl, rfl, rfl⟩ := heq
      rw [htruth] at h
      exact ⟨⟨p, q⟩, rfl, rfl, (Option.some.inj h).symm⟩
    · exact absurd h (by simp)
  · rintro ⟨dest, rfl, rfl, rfl⟩
    rw [runSendReq, htruth]
    rfl

/-- Packing a response and sending it. -/
theorem respond_iff {op id address port v : CVal} {fmt : CString} {r : Arg} {b : Bool}
    (htruth : v.truth = some b) {sent : List (List Token × Location)} :
    ((runPackResponse [.ref .sbuffer, op, id, .ptr (.str fmt), .ofArg r]).bind fun q =>
        (runSendReq [.ref q.1, address, port, v]).map Prod.snd) = some sent ↔
      ∃ s i tokens dest, op = .ptr (.str s) ∧ id = .int i ∧
        packClientResponseData s i fmt [r] = some tokens ∧ address = .ptr dest.address ∧
        port = .ptr dest.port ∧ sent = [(tokens, dest)] := by
  rw [Option.bind_eq_some_iff]
  constructor
  · rintro ⟨q, hq, hsent⟩
    obtain ⟨s, i, tokens, hop, hid, htokens, rfl⟩ := runPackResponse_iff.mp hq
    obtain ⟨dest, haddress, hport, hdest⟩ := (runSendReq_iff htruth).mp hsent
    exact ⟨s, i, tokens, dest, hop, hid, htokens, haddress, hport, hdest⟩
  · rintro ⟨s, i, tokens, dest, hop, hid, htokens, haddress, hport, hdest⟩
    exact ⟨_, runPackResponse_iff.mpr ⟨s, i, tokens, hop, hid, htokens, rfl⟩,
      (runSendReq_iff htruth).mpr ⟨dest, haddress, hport, hdest⟩⟩

/-- **What a block that compiles sends.** -/
theorem exists_run (hres : Resolves proto) (hnot : text "params" ∉ proto.names)
    (hread : readParams (proto.params.map Prod.fst) ps = some args) :
    ∃ op id address port,
      Means proto args (text "operation") (.ptr (.str (.ofBytes proto.name.chars))) op ∧
      Means proto args (text "message_id") (.int message_id) id ∧
      Means proto args (text "broker_address") (.ptr (.str broker.address)) address ∧
      Means proto args (text "broker_port") (.ptr (.str broker.port)) port ∧
      ∀ sent, runServerBlock E proto result message_id (.ofBytes proto.name.chars) broker verbose
          ps = some sent ↔
        ∃ s i tokens dest, op = .ptr (.str s) ∧ id = .int i ∧
          packClientResponseData s i (responseFormat proto.ret) [result args] = some tokens ∧
          address = .ptr dest.address ∧ port = .ptr dest.port ∧ sent = [(tokens, dest)] := by
  have hlen : args.length = proto.params.length := by
    rw [length_of_readParams hread, List.length_map]
  obtain ⟨env, henv⟩ : ∃ env, bodyEnv proto args message_id (.ofBytes proto.name.chars) broker
      verbose ps = env := ⟨_, rfl⟩
  have hmeans := fun {x : Text} {outer : CVal} => @exists_means proto args message_id broker verbose
    ps hres hlen _ env henv x outer
  obtain ⟨op, hop, hopMeans⟩ := hmeans (by decide : text "operation" ≠ text "response") rfl
  obtain ⟨id, hid, hidMeans⟩ := hmeans (by decide : text "message_id" ≠ text "response") rfl
  obtain ⟨address, haddress, haddressMeans⟩ :=
    hmeans (by decide : text "broker_address" ≠ text "response") rfl
  obtain ⟨port, hport, hportMeans⟩ :=
    hmeans (by decide : text "broker_port" ≠ text "response") rfl
  obtain ⟨v, hverbose, hvMeans⟩ := hmeans (by decide : text "verbose" ≠ text "response") rfl
  have htruth : ∃ b, v.truth = some b := by
    by_cases hmem : text "verbose" ∈ proto.names
    · obtain ⟨a, -, rfl⟩ := hvMeans.hidden hmem
      exact truth_ofArg a
    · exact ⟨verbose, hvMeans.free hmem ▸ rfl⟩
  obtain ⟨b, htruth⟩ := htruth
  refine ⟨op, id, address, port, hopMeans, hidMeans, haddressMeans, hportMeans, fun sent => ?_⟩
  rw [run_serverBlock hres hnot hread henv hop hid haddress hport hverbose htruth,
    respond_iff htruth]

/-! ### The condition -/

/-- A result of the declared type is packed. -/
theorem exists_response (op : CString) (message_id : Int32) {t : CType} {r : Arg}
    (htype : r.type = t) :
    ∃ tokens, packClientResponseData op message_id (responseFormat t) [r] = some tokens := by
  subst htype
  cases r with
  | int v => exact ⟨_, rfl⟩
  | str s => exact ⟨_, rfl⟩

/-- A response says which operation and message id it was packed with. -/
theorem response_inj {op op' fmt fmt' : CString} {id id' : Int32} {rs rs' : List Arg}
    {tokens : List Token} (h : packClientResponseData op id fmt rs = some tokens)
    (h' : packClientResponseData op' id' fmt' rs' = some tokens) : op = op' ∧ id = id' := by
  simp only [packClientResponseData, Option.bind_eq_bind, Option.bind_eq_some_iff, Option.pure_def,
    Option.some.injEq] at h h'
  obtain ⟨vals, -, rfl⟩ := h
  obtain ⟨vals', -, heq⟩ := h'
  simp only [packMapInt, packMapStr, List.cons_append, List.nil_append, List.cons.injEq,
    Token.packInt.injEq, Token.packStrBody.injEq, true_and] at heq
  exact ⟨(CString.ext heq.2.2.1).symm, heq.1.symm⟩

/-- An entry that fits a type, and reads as nothing a request is made of. -/
def sampleEntry : CType → ParamPtr
  | .int => .int 1
  | .charPtr => .str (.lit "0")

/-- What it is read as. -/
def sampleArg : CType → Arg
  | .int => .int 1
  | .charPtr => .str (.lit "0")

theorem type_sampleArg (t : CType) : (sampleArg t).type = t := by
  cases t with
  | int => rfl
  | charPtr => rfl

theorem read_sampleEntry (t : CType) : (sampleEntry t).read t = some (sampleArg t) := by
  cases t with
  | int => rfl
  | charPtr => rfl

theorem fits_sample (params : List (CType × Identifier)) :
    Fits params (params.map fun param => sampleEntry param.1) := by
  rw [Fits, List.forall₂_map_right_iff, List.forall₂_same]
  intro param _
  rw [read_sampleEntry]
  rfl

theorem readParams_sample (params : List (CType × Identifier)) :
    readParams (params.map Prod.fst) (params.map fun param => sampleEntry param.1) =
      some (params.map fun param => sampleArg param.1) := by
  induction params with
  | nil => rfl
  | cons param params ih => simp [readParams, read_sampleEntry, ih]

/-- An argument of the sample is the number 1 or the string `0`. -/
theorem Means.sample {x : Text} {outer v : CVal}
    (h : Means proto (proto.params.map fun param => sampleArg param.1) x outer v)
    (hx : x ∈ proto.names) : v = .int 1 ∨ v = .ptr (.str (.lit "0")) := by
  obtain ⟨a, ha, rfl⟩ := h.hidden hx
  obtain ⟨param, -, rfl⟩ := List.mem_map.mp ha
  cases param.1 with
  | int => exact Or.inl rfl
  | charPtr => exact Or.inr rfl

/-- No identifier is the string `0`. -/
theorem ofBytes_ne_zero (x : Identifier) : CString.ofBytes x.chars ≠ .lit "0" := by
  intro h
  have hnul : 0 ∉ x.chars := fun hmem => absurd (x.word 0 hmem) (by decide)
  have hchars : x.chars = [48] := by
    rw [← CString.chars_ofBytes hnul, h]
    rfl
  exact x.noDigit 48 (by rw [hchars]; rfl) (by decide)

/-- Where no name is hidden, the block sends the response to the request. -/
theorem run_uncaptured (hcompiles : compiles proto = true)
    (hfree : ∀ x ∈ captured, x ∉ proto.names)
    (hread : readParams (proto.params.map Prod.fst) ps = some args)
    (sent : List (List Token × Location)) :
    runServerBlock E proto result message_id (.ofBytes proto.name.chars) broker verbose ps =
        some sent ↔
      ∃ tokens, packClientResponseData (.ofBytes proto.name.chars) message_id
          (responseFormat proto.ret) [result args] = some tokens ∧
        sent = [(tokens, broker.location)] := by
  obtain ⟨op, id, address, port, hop, hid, haddress, hport, hsent⟩ :=
    @exists_run E proto result args message_id broker verbose ps (resolves_of_compiles hcompiles)
      (hfree _ (by decide)) hread
  obtain rfl := hop.free (hfree _ (by decide))
  obtain rfl := hid.free (hfree _ (by decide))
  obtain rfl := haddress.free (hfree _ (by decide))
  obtain rfl := hport.free (hfree _ (by decide))
  rw [hsent]
  constructor
  · rintro ⟨s, i, tokens, dest, hs, hi, htokens, haddr, hport, rfl⟩
    obtain rfl := Ptr.str.inj (CVal.ptr.inj hs)
    obtain rfl := CVal.int.inj hi
    have hdest : broker.location = dest := by
      cases dest
      rw [Details.location, CVal.ptr.inj haddr, CVal.ptr.inj hport]
    exact ⟨tokens, htokens, hdest ▸ rfl⟩
  · rintro ⟨tokens, htokens, rfl⟩
    exact ⟨_, _, tokens, broker.location, rfl, rfl, htokens, rfl, rfl, rfl⟩

/-- Where no name is hidden, the block is the one the server is modelled with. -/
theorem runServerBlock_eq_stubBlock (hcompiles : compiles proto = true)
    (hfree : ∀ x ∈ captured, x ∉ proto.names) (program : ServerProgram)
    (hread : readParams (proto.params.map Prod.fst) ps = some args) :
    (runServerBlock E proto (program.result (.ofBytes proto.name.chars)) message_id
        (.ofBytes proto.name.chars) broker verbose ps).map
          (List.map fun s => (⟨E.pack s.1, s.2⟩ : Sent E.Buffer)) =
      stubBlock E program ⟨some message_id, .str (.ofBytes proto.name.chars), broker, ps⟩
        ⟨proto.ret, .ofBytes proto.name.chars, proto.params.map Prod.fst⟩ := by
  have hrun : runServerBlock E proto (program.result (.ofBytes proto.name.chars)) message_id
      (.ofBytes proto.name.chars) broker verbose ps =
      (packClientResponseData (.ofBytes proto.name.chars) message_id (responseFormat proto.ret)
        [program.result (.ofBytes proto.name.chars) args]).map fun tokens =>
          [(tokens, broker.location)] := by
    refine Option.ext fun sent => ?_
    rw [run_uncaptured hcompiles hfree hread, Option.map_eq_some_iff]
    simp only [eq_comm]
  rw [hrun, Option.map_map, stubBlock, E.strEquals_str, decide_eq_true rfl, if_pos rfl, hread]
  show _ = (packClientResponseData _ _ _ _).bind _
  cases packClientResponseData (.ofBytes proto.name.chars) message_id (responseFormat proto.ret)
      [program.result (.ofBytes proto.name.chars) args] with
  | none => rfl
  | some tokens => rfl

/-- **The block printed for a prototype answers the request it was given exactly when
no parameter has the name of one of the variables it depends on.** -/
theorem answers_iff (proto : Prototype) (eol : Bool) (hcompiles : compiles proto = true) :
    (serverStub (proto.line ++ lineEnd eol)).map ServerStub.output =
        some (blockText (serverBlock proto) ++ text "\n") ∧
      (Answers proto ↔ ∀ x ∈ captured, x ∉ proto.names) := by
  have hres := resolves_of_compiles hcompiles
  refine ⟨serverStub_blockText proto eol, ?_⟩
  constructor
  · intro h x hx hmem
    obtain ⟨fmt, results, tokens, hresponse, hrun⟩ := h .reference (fun _ => sampleArg proto.ret) 0
      ⟨.lit "a", .lit "a"⟩ false _ (fun _ => type_sampleArg _) (fits_sample proto.params)
    by_cases hparams : text "params" ∈ proto.names
    · rw [run_serverBlock_params hres hparams] at hrun
      exact absurd hrun (by simp)
    obtain ⟨op, id, address, port, hop, hid, haddress, hport, hsent⟩ :=
      exists_run hres hparams (readParams_sample proto.params)
    obtain ⟨s, i, tokens', dest, rfl, rfl, hresponse', rfl, rfl, heq⟩ := (hsent _).mp hrun
    obtain ⟨rfl, rfl⟩ : tokens = tokens' ∧ _ = dest := by simpa using heq
    obtain ⟨rfl, rfl⟩ := response_inj hresponse hresponse'
    simp only [captured, List.mem_cons, List.not_mem_nil, or_false] at hx
    rcases hx with rfl | rfl | rfl | rfl | rfl
    · rcases hop.sample hmem with h0 | h0
      · exact absurd h0 (by simp)
      · exact ofBytes_ne_zero proto.name (by simpa using h0)
    · rcases hid.sample hmem with h0 | h0
      · exact absurd (CVal.int.inj h0) (by decide)
      · exact absurd h0 (by simp)
    · rcases haddress.sample hmem with h0 | h0
      · exact absurd h0 (by simp [Details.location])
      · exact absurd h0 (by simp [Details.location]; decide)
    · rcases hport.sample hmem with h0 | h0
      · exact absurd h0 (by simp [Details.location])
      · exact absurd h0 (by simp [Details.location]; decide)
    · exact hparams hmem
  · intro h E result message_id broker verbose ps hresult hfits
    obtain ⟨args, hread⟩ := hfits.readParams
    obtain ⟨tokens, htokens⟩ := exists_response (.ofBytes proto.name.chars) message_id
      (hresult args)
    exact ⟨_, _, tokens, htokens,
      (run_uncaptured hcompiles h hread _).mpr ⟨tokens, htokens, rfl⟩⟩

theorem isIdentifier_one : isIdentifier (text "one") = true := by decide

theorem isIdentifier_two : isIdentifier (text "two") = true := by decide

theorem isIdentifier_add : isIdentifier (text "add") = true := by decide

/-- `int add(int one, int two);` -/
def addProto : Prototype :=
  ⟨.int, .ofText _ isIdentifier_add,
    [(.int, .ofText _ isIdentifier_one), (.int, .ofText _ isIdentifier_two)]⟩

theorem answers_add : compiles addProto = true ∧ Answers addProto :=
  ⟨by decide, (answers_iff addProto true (by decide)).2.mpr (by decide)⟩

theorem isIdentifier_echo : isIdentifier (text "echo") = true := by decide

theorem isIdentifier_operation : isIdentifier (text "operation") = true := by decide

/-- `char* echo(char* operation);` -/
def echoProto : Prototype :=
  ⟨.charPtr, .ofText _ isIdentifier_echo, [(.charPtr, .ofText _ isIdentifier_operation)]⟩

/-- The response to `echo("hi")` is one to an operation `hi`. -/
theorem answers_echo : ¬ ∀ proto, compiles proto = true → Answers proto := by
  intro h
  obtain ⟨fmt, results, tokens, hresponse, hrun⟩ := h echoProto (by decide) .reference
    (fun _ => .str (.lit "hi")) 7 ⟨.lit "127.0.0.1", .lit "5000"⟩ false [.str (.lit "hi")]
    (fun _ => rfl) (.cons rfl .nil)
  obtain ⟨other, hother⟩ : ∃ other, packClientResponseData (.lit "hi") 7 (responseFormat .charPtr)
      [.str (.lit "hi")] = some other := ⟨_, rfl⟩
  have hsent : runServerBlock .reference echoProto (fun _ => .str (.lit "hi")) 7
      (.ofBytes echoProto.name.chars) ⟨.lit "127.0.0.1", .lit "5000"⟩ false [.str (.lit "hi")] =
      (packClientResponseData (.lit "hi") 7 (responseFormat .charPtr) [.str (.lit "hi")]).map
        fun tokens => [(tokens, ⟨.str (.lit "127.0.0.1"), .str (.lit "5000")⟩)] := rfl
  rw [hother, hrun] at hsent
  obtain ⟨rfl, -⟩ : tokens = other ∧ _ := by simpa using hsent
  exact absurd (response_inj hresponse hother).1 (by decide)

end RpcBroker
