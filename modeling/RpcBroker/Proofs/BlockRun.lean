import RpcBroker.Model.ServerBlock
/-!
# RpcBroker.Proofs.BlockRun

**What the generated block does when it compiles.** Its names resolve: no parameter
is called like a function the block calls or like `response` and `pkt`
(`resolves_of_compiles`). Then its declarations read the arguments, and what is
behind them packs and sends what `operation`, `message_id`, `broker_address` and
`broker_port` mean there, which need not be what the enclosing function has
(`run_serverBlock`). A parameter called `params` is read before it has a value
(`run_serverBlock_params`).
-/

namespace RpcBroker

open CLib Msgpack Perl CBlock

/-! ### What the names mean to the compiler -/

/-- The names of the parameters. -/
def Prototype.names (proto : Prototype) : List Text := proto.params.map fun param => param.2.chars

/-- The names behind the parameters' declarations that must not be variables. -/
def calledNames : List Text :=
  [text "Packet", text "pack_client_response_data", text "unpack_data", text "send_req",
    text "msgpack_sbuffer_destroy"]

/-- In scope where the block begins. -/
def Prototype.outerScope (proto : Prototype) : Scope :=
  functionScope ++ (proto.name.chars, proto.entity) :: headerScope

/-- In scope behind the declarations of the parameters. -/
def Prototype.bodyScope (proto : Prototype) : Scope :=
  declare (fun param => param.2.chars) (fun param => .var param.1.cTy) proto.params
    ((text "response", .var (.named (text "msgpack_sbuffer"))) :: proto.outerScope)

/-- The names of a block that compiles are what the block uses them as. -/
structure Resolves (proto : Prototype) : Prop where
  distinct : proto.names.Nodup
  response : text "response" ∉ proto.names
  pkt : text "pkt" ∉ proto.names
  called : ∀ g ∈ calledNames, g ∉ proto.names
  function : proto.name.chars ∉ proto.names
  notPkt : proto.name.chars ≠ text "pkt"
  notLocal : proto.name.chars ∉ text "response" :: functionScope.map Prod.fst
  notHeader : proto.name.chars ∉ headerScope.map Prod.fst

theorem readDecls_name (params : List (CType × Identifier)) (i : Nat) :
    (readDecls params i).map Decl.name = params.map fun param => param.2.chars := by
  induction params generalizing i with
  | nil => rfl
  | cons param params ih =>
      rw [readDecls, List.map_cons, ih, List.map_cons]
      rfl

theorem declare_readDecls (params : List (CType × Identifier)) (i : Nat) (outer : Scope) :
    declare Decl.name (fun d => Entity.var d.type) (readDecls params i) outer =
      declare (fun param => param.2.chars) (fun param => .var param.1.cTy) params outer := by
  induction params generalizing i outer with
  | nil => rfl
  | cons param params ih =>
      rw [readDecls, declare_cons, ih, declare_cons]
      rfl

/-- A name that is no variable in the body is no parameter's. -/
theorem notMem_names_of_lookup {proto : Prototype} (hnodup : proto.names.Nodup) {x : Text}
    {e : Entity} (hx : proto.bodyScope.lookup x = some e) (he : ∀ t, e ≠ .var t) :
    x ∉ proto.names := by
  intro hmem
  obtain ⟨param, hparam, rfl⟩ := List.mem_map.mp hmem
  have hvar : proto.bodyScope.lookup param.2.chars = some (.var param.1.cTy) :=
    lookup_declare_of_mem hnodup hparam _
  exact he _ (Option.some.inj (hx.symm.trans hvar))

/-- A name declared as a function behind `pkt` is neither `pkt` nor a parameter's. -/
theorem notMem_of_call {proto : Prototype} (hnodup : proto.names.Nodup) {t : CTy} {g : Text}
    {params : List CTy} {variadic : Bool} {ret : CTy}
    (h : ((text "pkt", Entity.var t) :: proto.bodyScope).lookup g =
      some (.func params variadic ret)) :
    g ≠ text "pkt" ∧ g ∉ proto.names ∧
      proto.bodyScope.lookup g = some (.func params variadic ret) := by
  have hne : g ≠ text "pkt" := by
    rintro rfl
    simp at h
  rw [List.lookup_cons, beq_false_of_ne hne] at h
  exact ⟨hne, notMem_names_of_lookup hnodup h (by simp), h⟩

/-- What the statements behind the parameters need. -/
theorem respond_compiles {proto : Prototype} {here : List Text} {r : List Ident × Scope}
    (h : checkAll here proto.bodyScope (respondStmts proto) = some r) :
    text "pkt" ∉ here ∧ proto.bodyScope.lookup (text "Packet") = some .typedef ∧
      ∀ g ∈ [proto.name.chars, text "pack_client_response_data", text "unpack_data",
        text "send_req", text "msgpack_sbuffer_destroy"], ∃ params variadic ret,
        ((text "pkt", Entity.var (.named (text "Packet"))) :: proto.bodyScope).lookup g =
          some (.func params variadic ret) := by
  obtain ⟨_, _, hblank, h⟩ := checkAll_cons.mp h
  obtain ⟨rfl, rfl⟩ := Prod.mk.inj (Option.some.inj hblank)
  obtain ⟨_, _, hdecl, h⟩ := checkAll_cons.mp h
  obtain ⟨hpacket, hfresh, hinit, hscope⟩ := check_decl.mp hdecl
  obtain ⟨rfl, rfl⟩ := Prod.mk.inj hscope
  obtain ⟨_, _, hprint, h⟩ := checkAll_cons.mp h
  obtain ⟨-, ⟨_, hunpack⟩, hscope⟩ := check_ifExpr.mp hprint
  obtain ⟨rfl, rfl⟩ := Prod.mk.inj hscope
  obtain ⟨_, _, hblank, h⟩ := checkAll_cons.mp h
  obtain ⟨rfl, rfl⟩ := Prod.mk.inj (Option.some.inj hblank)
  obtain ⟨_, _, hexpr, h⟩ := checkAll_cons.mp h
  obtain ⟨⟨_, hsend⟩, hscope⟩ := check_expr.mp hexpr
  obtain ⟨rfl, rfl⟩ := Prod.mk.inj hscope
  obtain ⟨_, _, hexpr, -⟩ := checkAll_cons.mp h
  obtain ⟨⟨_, hdestroy⟩, -⟩ := check_expr.mp hexpr
  obtain ⟨_, hpack, -⟩ := checkInit_some.mp hinit
  refine ⟨hfresh, declarable_named.mp hpacket, ?_⟩
  simp only [List.forall_mem_cons, List.not_mem_nil, false_implies, implies_true, and_true]
  refine ⟨func_of_mem_calls hpack ?_, func_of_mem_calls hpack List.mem_cons_self,
    func_of_mem_calls hunpack List.mem_cons_self, func_of_mem_calls hsend List.mem_cons_self,
    func_of_mem_calls hdestroy List.mem_cons_self⟩
  -- The interface's function is called in the last argument of the packing.
  simp [Expr.calls, callsAll, Prototype.callExpr]

/-- **A block that compiles resolves.** -/
theorem resolves_of_compiles {proto : Prototype} (h : compiles proto = true) : Resolves proto := by
  rw [compiles, Bool.and_eq_true, Bool.and_eq_true] at h
  obtain ⟨⟨-, hheader⟩, hcheck⟩ := h
  rw [Block.check, Bool.and_eq_true, Option.isSome_iff_exists] at hcheck
  obtain ⟨-, r, hbody⟩ := hcheck
  obtain ⟨_, _, hresponse, hbody⟩ := checkAll_cons.mp hbody
  obtain ⟨-, -, -, hscope⟩ := check_decl.mp hresponse
  obtain ⟨rfl, rfl⟩ := Prod.mk.inj hscope
  obtain ⟨_, _, hdecls, hbody⟩ := checkAll_append.mp hbody
  obtain ⟨hnodup, hfresh, rfl, rfl⟩ := checkAll_decls hdecls
  rw [readDecls_name] at hnodup
  rw [readDecls_name, declare_readDecls] at hbody
  obtain ⟨hpkt, hpacket, hcalls⟩ := respond_compiles hbody
  have hcall : ∀ g ∈ [proto.name.chars, text "pack_client_response_data", text "unpack_data",
      text "send_req", text "msgpack_sbuffer_destroy"], g ≠ text "pkt" ∧ g ∉ proto.names := by
    intro g hg
    obtain ⟨_, _, _, hlookup⟩ := hcalls g hg
    obtain ⟨hne, hnot, -⟩ := notMem_of_call hnodup hlookup
    exact ⟨hne, hnot⟩
  obtain ⟨hnotPkt, hfunction⟩ := hcall proto.name.chars (List.mem_cons_self ..)
  refine ⟨hnodup, ?_, ?_, ?_, hfunction, hnotPkt, ?_, ?_⟩
  · intro hmem
    obtain ⟨param, hparam, hname⟩ := List.mem_map.mp hmem
    obtain ⟨d, hd, hdname⟩ : ∃ d ∈ readDecls proto.params 0, d.name = text "response" := by
      rw [← List.mem_map, readDecls_name]
      exact hmem
    exact hfresh d hd (hdname ▸ List.mem_cons_self ..)
  · intro hmem
    exact hpkt (List.mem_append_left _ (List.mem_reverse.mpr hmem))
  · intro g hg
    rcases List.mem_cons.mp hg with rfl | hg
    · exact notMem_names_of_lookup hnodup hpacket (by simp)
    · exact (hcall g (List.mem_cons_of_mem _ hg)).2
  · obtain ⟨_, _, _, hlookup⟩ := hcalls proto.name.chars (List.mem_cons_self ..)
    obtain ⟨-, -, hlookup⟩ := notMem_of_call hnodup hlookup
    rw [Prototype.bodyScope, lookup_declare_of_notMem hfunction] at hlookup
    have hvars : ∀ d ∈ (text "response", Entity.var (.named (text "msgpack_sbuffer"))) ::
        functionScope, ∃ t, d.2 = .var t := by
      simp [functionScope]
    intro hmem
    have hmem' : proto.name.chars ∈ ((text "response",
        Entity.var (.named (text "msgpack_sbuffer"))) :: functionScope).map Prod.fst := hmem
    obtain ⟨e, he, t, rfl⟩ := lookup_append_of_mem (P := fun e => ∃ t, e = .var t) hvars hmem'
      ((proto.name.chars, proto.entity) :: headerScope)
    exact absurd (he.symm.trans hlookup) (by simp)
  · intro hmem
    have hclash : proto.name.chars ∉
        text "call_marshelResponse_send" :: headerScope.map Prod.fst := by
      simpa only [Bool.not_eq_true', List.contains_eq_mem, decide_eq_false_iff_not] using hheader
    exact hclash (List.mem_cons_of_mem _ hmem)

/-! ### Running the declarations -/

section Run

variable {E : Libs} {proto : Prototype} {result : List Arg → Arg}

theorem eval_readExpr (env : Env CVal) (t : CType) (i : Nat) :
    eval (blockHost E proto result) env (readExpr t i) =
      ((valueOf env (text "params")).bind (CVal.paramAt t · i)).map (·, []) := by
  cases t with
  | int => rfl
  | charPtr => rfl

/-- `readParams` reads one entry at a time. -/
theorem readParams_drop {ts : List CType} {t : CType} {ps : List ParamPtr} {i : Nat}
    {args : List Arg} (h : readParams (t :: ts) (ps.drop i) = some args) :
    ∃ a as, args = a :: as ∧ CVal.paramAt t (.ptrs ps) i = some (.ofArg a) ∧
      readParams ts (ps.drop (i + 1)) = some as := by
  cases hdrop : ps.drop i with
  | nil =>
      rw [hdrop] at h
      exact absurd h (by simp [readParams])
  | cons p rest =>
      have hget : ps[i]? = some p := by
        rw [← List.head?_drop, hdrop]
        rfl
      have hrest : ps.drop (i + 1) = rest := by
        rw [← List.drop_drop, hdrop]
        rfl
      rw [hdrop, readParams] at h
      cases hread : p.read t with
      | none => simp [hread] at h
      | some a =>
          cases has : readParams ts rest with
          | none => simp [hread, has] at h
          | some as =>
              obtain rfl : args = a :: as := by simpa [hread, has, eq_comm] using h
              exact ⟨a, as, rfl, by simp [CVal.paramAt, hget, hread], hrest ▸ has⟩

/-- **The declarations read the arguments**, if none of them hides the array. -/
theorem execAll_readDecls {ps : List ParamPtr} {params : List (CType × Identifier)} :
    ∀ {env : Env CVal} {i : Nat} {args : List Arg},
      valueOf env (text "params") = some (.ptrs ps) →
      text "params" ∉ params.map (fun param => param.2.chars) →
      readParams (params.map Prod.fst) (ps.drop i) = some args →
      execAll (blockHost E proto result) env ((readDecls params i).map Decl.stmt) =
        some (declare (fun q => q.1.2.chars) (fun q => some (CVal.ofArg q.2)) (params.zip args) env,
          []) := by
  induction params with
  | nil => intro env i args _ _ _; rfl
  | cons param params ih =>
      intro env i args hps hnot hread
      obtain ⟨hne, hrest⟩ := not_or.mp fun h => hnot (List.mem_cons.mpr h)
      obtain ⟨a, as, rfl, hat, has⟩ := readParams_drop hread
      have hps' : ∀ v, valueOf ((param.2.chars, v) :: env) (text "params") = some (.ptrs ps) := by
        intro v
        rw [valueOf_of_ne hne, hps]
      rw [readDecls, List.map_cons, execAll_cons, Decl.stmt, readDecl, exec_decl, eval_readExpr,
        hps', Option.bind_some, hat, Option.map_some, Option.map_some, Option.bind_some,
        ih (hps' _) hrest has, List.zip_cons_cons, declare_cons]
      rfl

/-- A parameter called `params` is read before it has a value. -/
theorem execAll_readDecls_captured {ps : List ParamPtr} {params : List (CType × Identifier)}
    (hmem : text "params" ∈ params.map fun param => param.2.chars) :
    ∀ {env : Env CVal} {i : Nat}, valueOf env (text "params") = some (.ptrs ps) →
      execAll (blockHost E proto result) env ((readDecls params i).map Decl.stmt) = none := by
  induction params with
  | nil => exact absurd hmem List.not_mem_nil
  | cons param params ih =>
      intro env i hps
      rw [readDecls, List.map_cons, execAll_cons, Decl.stmt, readDecl, exec_decl, eval_readExpr]
      by_cases hname : text "params" = param.2.chars
      · rw [hname, valueOf_self]
        rfl
      · have hrest := (List.mem_cons.mp hmem).resolve_left hname
        cases hval : (valueOf ((param.2.chars, none) :: env) (text "params")).bind
            (CVal.paramAt param.1 · i) with
        | none => rfl
        | some v =>
            rw [Option.map_some, Option.map_some, Option.bind_some,
              ih hrest (by rw [valueOf_of_ne hname, hps])]
            rfl

/-! ### Running the rest -/

/-- What is in scope behind the declarations, when `args` were read. -/
def bodyEnv (proto : Prototype) (args : List Arg) (message_id : Int32) (operation : CString)
    (broker : Details) (verbose : Bool) (ps : List ParamPtr) : Env CVal :=
  declare (fun q => q.1.2.chars) (fun q => some (CVal.ofArg q.2)) (proto.params.zip args)
    ((text "response", some .sbuffer) :: callEnv message_id operation broker verbose ps)

variable {args : List Arg} {message_id : Int32} {operation : CString} {broker : Details}
  {verbose : Bool} {ps : List ParamPtr}

/-- There is an argument for each parameter. -/
theorem length_of_readParams {ts : List CType} (h : readParams ts ps = some args) :
    args.length = ts.length := by
  induction ts generalizing ps args with
  | nil =>
      obtain rfl : args = [] := by simpa [readParams, eq_comm] using h
      rfl
  | cons t ts ih =>
      have h' : readParams (t :: ts) (ps.drop 0) = some args := h
      obtain ⟨a, as, rfl, -, has⟩ := readParams_drop h'
      rw [List.length_cons, ih has, List.length_cons]

theorem zip_names (hlen : args.length = proto.params.length) :
    (proto.params.zip args).map (fun q => q.1.2.chars) = proto.names := by
  have hfst : (proto.params.zip args).map Prod.fst = proto.params :=
    List.map_fst_zip (Nat.le_of_eq hlen.symm)
  rw [Prototype.names, ← congrArg (List.map fun param => param.2.chars) hfst, List.map_map]
  rfl

/-- What is no parameter's name is what the enclosing function has. -/
theorem lookup_bodyEnv (hlen : args.length = proto.params.length) {x : Text}
    (hx : x ∉ proto.names) :
    (bodyEnv proto args message_id operation broker verbose ps).lookup x =
      ((text "response", some CVal.sbuffer) ::
        callEnv message_id operation broker verbose ps).lookup x :=
  lookup_declare_of_notMem (zip_names hlen ▸ hx) _

/-- A parameter's name is its argument. -/
theorem valueOf_bodyEnv (hres : Resolves proto) (hlen : args.length = proto.params.length)
    {q : (CType × Identifier) × Arg} (hq : q ∈ proto.params.zip args) :
    valueOf (bodyEnv proto args message_id operation broker verbose ps) q.1.2.chars =
      some (.ofArg q.2) := by
  have hnodup : ((proto.params.zip args).map fun q => q.1.2.chars).Nodup :=
    zip_names hlen ▸ hres.distinct
  have hlookup : (bodyEnv proto args message_id operation broker verbose ps).lookup
      q.1.2.chars = some (some (.ofArg q.2)) := lookup_declare_of_mem hnodup hq _
  rw [valueOf, hlookup]
  rfl

theorem mapM_arg? (args : List Arg) : (args.map CVal.ofArg).mapM CVal.arg? = some args := by
  induction args with
  | nil => rfl
  | cons a args ih =>
      rw [List.map_cons, List.mapM_cons, ih]
      cases a with
      | int v => rfl
      | str s => rfl

/-- A function of the headers is run as such. -/
theorem blockHost_fn (hres : Resolves proto) {g : Text} (hg : g ∈ headerScope.map Prod.fst)
    (vs : List CVal) :
    (blockHost E proto result).fn g vs =
      if g = text "STR_Equals" then runStrEquals E vs
      else if g = text "pack_client_response_data" then runPackResponse vs
      else if g = text "unpack_data" then runUnpackData vs
      else if g = text "send_req" then runSendReq vs
      else if g = text "msgpack_sbuffer_destroy" then runDestroy vs
      else none := by
  have hne : g ≠ proto.name.chars := fun h => hres.notHeader (h ▸ hg)
  exact if_neg hne

theorem fn_strEquals (hres : Resolves proto) (vs : List CVal) :
    (blockHost E proto result).fn (text "STR_Equals") vs = runStrEquals E vs := by
  rw [blockHost_fn hres (by decide), if_pos rfl]

theorem fn_packResponse (hres : Resolves proto) (vs : List CVal) :
    (blockHost E proto result).fn (text "pack_client_response_data") vs = runPackResponse vs := by
  rw [blockHost_fn hres (by decide), if_neg (by decide), if_pos rfl]

theorem fn_unpackData (hres : Resolves proto) (vs : List CVal) :
    (blockHost E proto result).fn (text "unpack_data") vs = runUnpackData vs := by
  rw [blockHost_fn hres (by decide), if_neg (by decide), if_neg (by decide), if_pos rfl]

theorem fn_sendReq (hres : Resolves proto) (vs : List CVal) :
    (blockHost E proto result).fn (text "send_req") vs = runSendReq vs := by
  rw [blockHost_fn hres (by decide), if_neg (by decide), if_neg (by decide), if_neg (by decide),
    if_pos rfl]

theorem fn_destroy (hres : Resolves proto) (vs : List CVal) :
    (blockHost E proto result).fn (text "msgpack_sbuffer_destroy") vs = runDestroy vs := by
  rw [blockHost_fn hres (by decide), if_neg (by decide), if_neg (by decide), if_neg (by decide),
    if_neg (by decide), if_pos rfl]

/-- The call of the interface's function, with `pkt` in scope. -/
theorem eval_callExpr (hres : Resolves proto) (hlen : args.length = proto.params.length) :
    eval (blockHost E proto result)
        ((text "pkt", none) :: bodyEnv proto args message_id operation broker verbose ps)
        proto.callExpr = some (.ofArg (result args), []) := by
  have hhidden : ((text "pkt", none) ::
      bodyEnv proto args message_id operation broker verbose ps).lookup proto.name.chars = none := by
    rw [List.lookup_cons, beq_false_of_ne hres.notPkt, lookup_bodyEnv hlen hres.function]
    refine List.lookup_eq_none_iff.mpr fun d hd => ?_
    have hne : proto.name.chars ≠ d.1 := by
      intro heq
      refine hres.notLocal (heq ▸ ?_)
      exact List.mem_map_of_mem (f := Prod.fst) hd
    simpa using hne
  have hvals : ∀ q ∈ proto.params.zip args, valueOf ((text "pkt", none) ::
      bodyEnv proto args message_id operation broker verbose ps) q.1.2.chars =
        some (.ofArg q.2) := by
    intro q hq
    have hne : q.1.2.chars ≠ text "pkt" := by
      intro heq
      refine hres.pkt (heq ▸ ?_)
      exact List.mem_map_of_mem (f := fun param => param.2.chars) (List.of_mem_zip hq).1
    rw [valueOf_of_ne hne, valueOf_bodyEnv hres hlen hq]
  have hfst : (proto.params.zip args).map Prod.fst = proto.params :=
    List.map_fst_zip (Nat.le_of_eq hlen.symm)
  have hvars : proto.params.map (fun param => Expr.var param.2.chars) =
      (proto.params.zip args).map fun q => .var q.1.2.chars := by
    rw [← congrArg (List.map fun param => Expr.var param.2.chars) hfst, List.map_map]
    rfl
  have hsnd : (proto.params.zip args).map (fun q => CVal.ofArg q.2) = args.map CVal.ofArg := by
    rw [← congrArg (List.map CVal.ofArg) (List.map_snd_zip (Nat.le_of_eq hlen)), List.map_map]
    rfl
  have hargs := evalArgs_vars (H := blockHost E proto result) hvals
  rw [hsnd] at hargs
  rw [Prototype.callExpr, hvars, eval_call hhidden hargs]
  have hfn : (blockHost E proto result).fn proto.name.chars (args.map CVal.ofArg) =
      some (.ofArg (result args), []) := by
    show (if proto.name.chars = proto.name.chars then _ else _) = _
    rw [if_pos rfl, mapM_arg?]
    rfl
  rw [hfn]
  rfl

/-- Packing gives a packet and puts out nothing. -/
theorem runPackResponse_eq_some {vs : List CVal} {r : CVal × List (List Token × Location)}
    (h : runPackResponse vs = some r) : ∃ tokens, r = (.packet tokens, []) := by
  rw [runPackResponse.eq_def] at h
  split at h
  · simp only [Option.bind_eq_bind, Option.bind_eq_some_iff, Option.pure_def,
      Option.some.injEq] at h
    obtain ⟨_, -, _, -, _, -, tokens, -, rfl⟩ := h
    exact ⟨tokens, rfl⟩
  · exact absurd h (by simp)

variable {env : Env CVal}

/-- The functions called behind the declarations are not hidden. -/
theorem lookup_called (hres : Resolves proto) (hlen : args.length = proto.params.length)
    (henv : bodyEnv proto args message_id operation broker verbose ps = env) {g : Text}
    (hg : g ∈ calledNames) (v : Option CVal) : ((text "pkt", v) :: env).lookup g = none := by
  have hne : ∀ g ∈ calledNames, g ≠ text "pkt" := by decide
  rw [List.lookup_cons, beq_false_of_ne (hne g hg), ← henv, lookup_bodyEnv hlen (hres.called g hg)]
  simp only [calledNames, List.mem_cons, List.not_mem_nil, or_false] at hg
  rcases hg with rfl | rfl | rfl | rfl | rfl <;> rfl

/-- Behind `pkt` the block sends it to what the names mean there. -/
theorem execAll_sendStmts (hres : Resolves proto) {env : Env CVal}
    (hcalled : ∀ g ∈ calledNames, env.lookup g = none) {tokens : List Token}
    {address port v : CVal} {b : Bool}
    (hresponse : valueOf env (text "response") = some .sbuffer)
    (hpkt : valueOf env (text "pkt") = some (.packet tokens))
    (haddress : valueOf env (text "broker_address") = some address)
    (hport : valueOf env (text "broker_port") = some port)
    (hverbose : valueOf env (text "verbose") = some v) (htruth : v.truth = some b) :
    execAll (blockHost E proto result) env sendStmts =
      (runSendReq [.ref (.packet tokens), address, port, v]).map fun s => (env, s.2) := by
  have hprint : exec (blockHost E proto result) env (.ifExpr (.var (text "verbose"))
      (.call (text "unpack_data") (text ", ") [.addr (text "pkt"), .var (text "verbose")])) =
      some (env, []) := by
    have hargs : evalArgs (blockHost E proto result) env
        [.addr (text "pkt"), .var (text "verbose")] = some ([.ref (.packet tokens), v], []) := by
      simp only [evalArgs, eval, hpkt, hverbose]
      rfl
    have hcall : eval (blockHost E proto result) env (.call (text "unpack_data") (text ", ")
        [.addr (text "pkt"), .var (text "verbose")]) = some (.unit, []) := by
      rw [eval_call (hcalled _ (by decide)) hargs, fn_unpackData hres, runUnpackData, htruth]
      rfl
    have hcond : eval (blockHost E proto result) env (.var (text "verbose")) = some (v, []) := by
      rw [eval, hverbose]
      rfl
    rw [exec_ifExpr hcond htruth, hcall]
    cases b with
    | false => rfl
    | true => rfl
  have hsend : exec (blockHost E proto result) env (.expr (.call (text "send_req") (text ", ")
      [.addr (text "pkt"), .var (text "broker_address"), .var (text "broker_port"),
        .var (text "verbose")])) =
      (runSendReq [.ref (.packet tokens), address, port, v]).map fun s => (env, s.2) := by
    have hargs : evalArgs (blockHost E proto result) env
        [.addr (text "pkt"), .var (text "broker_address"), .var (text "broker_port"),
          .var (text "verbose")] = some ([.ref (.packet tokens), address, port, v], []) := by
      simp only [evalArgs, eval, hpkt, haddress, hport, hverbose]
      rfl
    rw [exec_expr, eval_call (hcalled _ (by decide)) hargs, fn_sendReq hres, Option.map_map]
    rfl
  have hdestroy : exec (blockHost E proto result) env (.expr
      (.call (text "msgpack_sbuffer_destroy") (text ", ") [.addr (text "response")])) =
      some (env, []) := by
    have hargs : evalArgs (blockHost E proto result) env [.addr (text "response")] =
        some ([.ref .sbuffer], []) := by
      simp only [evalArgs, eval, hresponse]
      rfl
    rw [exec_expr, eval_call (hcalled _ (by decide)) hargs, fn_destroy hres]
    rfl
  have hblank : exec (blockHost E proto result) env .blank = some (env, []) := rfl
  rw [sendStmts, execAll_cons, hprint, Option.bind_some, execAll_cons, hblank, Option.bind_some,
    execAll_cons, hsend]
  cases runSendReq [.ref (.packet tokens), address, port, v] with
  | none => rfl
  | some s =>
      rw [Option.map_some, Option.bind_some, execAll_cons, hdestroy]
      simp [execAll]

/-- The statements behind the declarations pack and send what the names mean there. -/
theorem execAll_respondStmts (hres : Resolves proto) (hlen : args.length = proto.params.length)
    (henv : bodyEnv proto args message_id operation broker verbose ps = env)
    {op id address port v : CVal} {b : Bool} (hop : valueOf env (text "operation") = some op)
    (hid : valueOf env (text "message_id") = some id)
    (haddress : valueOf env (text "broker_address") = some address)
    (hport : valueOf env (text "broker_port") = some port)
    (hverbose : valueOf env (text "verbose") = some v) (htruth : v.truth = some b) :
    (execAll (blockHost E proto result) env (respondStmts proto)).map Prod.snd =
      (runPackResponse [.ref .sbuffer, op, id, .ptr (.str (.ofBytes (responseConv
        proto.ret.text.chars))), .ofArg (result args)]).bind fun r =>
          (runSendReq [.ref r.1, address, port, v]).map Prod.snd := by
  have hresponse : valueOf env (text "response") = some .sbuffer := by
    rw [valueOf, ← henv, lookup_bodyEnv hlen hres.response]
    rfl
  have hother : ∀ (w : Option CVal) {x : Text}, x ≠ text "pkt" →
      valueOf ((text "pkt", w) :: env) x = valueOf env x := fun w _ hx => valueOf_of_ne hx w env
  have hcall : eval (blockHost E proto result) ((text "pkt", none) :: env) proto.callExpr =
      some (.ofArg (result args), []) := by
    rw [← henv]
    exact eval_callExpr hres hlen
  have hargs : evalArgs (blockHost E proto result) ((text "pkt", none) :: env)
      [.addr (text "response"), .var (text "operation"), .var (text "message_id"),
        .str (responseConv proto.ret.text.chars), proto.callExpr] =
      some ([.ref .sbuffer, op, id, .ptr (.str (.ofBytes (responseConv proto.ret.text.chars))),
        .ofArg (result args)], []) := by
    simp only [evalArgs, eval, hother none (by decide : text "response" ≠ text "pkt"),
      hother none (by decide : text "operation" ≠ text "pkt"),
      hother none (by decide : text "message_id" ≠ text "pkt"), hresponse, hop, hid, hcall]
    rfl
  have hpack : exec (blockHost E proto result) env (packStmt proto) =
      (runPackResponse [.ref .sbuffer, op, id, .ptr (.str (.ofBytes (responseConv
        proto.ret.text.chars))), .ofArg (result args)]).map fun r =>
          ((text "pkt", some r.1) :: env, r.2) := by
    rw [packStmt, exec_decl, eval_call (lookup_called hres hlen henv (by decide) none) hargs,
      fn_packResponse hres, Option.map_map]
    rfl
  have hblank : exec (blockHost E proto result) env .blank = some (env, []) := rfl
  rw [respondStmts, execAll_cons, hblank, Option.bind_some, execAll_cons, hpack]
  cases hr : runPackResponse [.ref .sbuffer, op, id, .ptr (.str (.ofBytes (responseConv
      proto.ret.text.chars))), .ofArg (result args)] with
  | none => rfl
  | some r =>
      obtain ⟨tokens, rfl⟩ := runPackResponse_eq_some hr
      have hsend : execAll (blockHost E proto result)
          ((text "pkt", some (.packet tokens)) :: env) sendStmts =
          (runSendReq [.ref (.packet tokens), address, port, v]).map fun s => (_, s.2) :=
        execAll_sendStmts hres (fun g hg => lookup_called hres hlen henv hg _)
          (by rw [hother _ (by decide), hresponse]) (valueOf_self ..)
          (by rw [hother _ (by decide), haddress]) (by rw [hother _ (by decide), hport])
          (by rw [hother _ (by decide), hverbose]) htruth
      rw [Option.map_some, Option.bind_some, hsend, Option.bind_some]
      cases runSendReq [.ref (.packet tokens), address, port, v] with
      | none => rfl
      | some s => rfl

/-! ### Running the block -/

theorem ofBytes_responseConv (t : CType) :
    CString.ofBytes (responseConv t.text.chars) = responseFormat t := by
  cases t with
  | int => rfl
  | charPtr => rfl

/-- For a call of its own function the block does what its body does. -/
theorem runServerBlock_body (hres : Resolves proto) :
    runServerBlock E proto result message_id (.ofBytes proto.name.chars) broker verbose ps =
      ((execAll (blockHost E proto result) ((text "response", some .sbuffer) ::
        callEnv message_id (.ofBytes proto.name.chars) broker verbose ps)
          ((readDecls proto.params 0).map Decl.stmt)).bind fun r =>
        (execAll (blockHost E proto result) r.1 (respondStmts proto)).map fun r' =>
          r.2 ++ r'.2) := by
  have hargs : evalArgs (blockHost E proto result)
      (callEnv message_id (.ofBytes proto.name.chars) broker verbose ps)
      [.var (text "operation"), .str proto.name.chars] =
      some ([.ptr (.str (.ofBytes proto.name.chars)), .ptr (.str (.ofBytes proto.name.chars))],
        []) := rfl
  have hcond : eval (blockHost E proto result)
      (callEnv message_id (.ofBytes proto.name.chars) broker verbose ps) (serverBlock proto).cond =
      some (.bool true, []) := by
    rw [serverBlock, eval_call rfl hargs, fn_strEquals hres, runStrEquals, E.strEquals_str,
      decide_eq_true rfl]
    rfl
  have hdecl : exec (blockHost E proto result)
      (callEnv message_id (.ofBytes proto.name.chars) broker verbose ps)
      (.decl (.named (text "msgpack_sbuffer")) (text "response") none) =
      some ((text "response", some .sbuffer) ::
        callEnv message_id (.ofBytes proto.name.chars) broker verbose ps, []) := rfl
  rw [runServerBlock, Block.run_of_true hcond rfl]
  show (execAll _ _ (_ :: (_ ++ _))).map _ = _
  rw [execAll_cons, hdecl, Option.bind_some, execAll_append]
  cases execAll (blockHost E proto result) ((text "response", some .sbuffer) ::
      callEnv message_id (.ofBytes proto.name.chars) broker verbose ps)
      ((readDecls proto.params 0).map Decl.stmt) with
  | none => rfl
  | some r =>
      cases hrest : execAll (blockHost E proto result) r.1 (respondStmts proto) with
      | none => simp [hrest]
      | some r' => simp [hrest]

/-- **The block packs and sends what its names mean behind the declarations.** -/
theorem run_serverBlock (hres : Resolves proto) (hnot : text "params" ∉ proto.names)
    (hread : readParams (proto.params.map Prod.fst) ps = some args)
    (henv : bodyEnv proto args message_id (.ofBytes proto.name.chars) broker verbose ps = env)
    {op id address port v : CVal} {b : Bool} (hop : valueOf env (text "operation") = some op)
    (hid : valueOf env (text "message_id") = some id)
    (haddress : valueOf env (text "broker_address") = some address)
    (hport : valueOf env (text "broker_port") = some port)
    (hverbose : valueOf env (text "verbose") = some v) (htruth : v.truth = some b) :
    runServerBlock E proto result message_id (.ofBytes proto.name.chars) broker verbose ps =
      (runPackResponse [.ref .sbuffer, op, id, .ptr (.str (responseFormat proto.ret)),
        .ofArg (result args)]).bind fun r =>
          (runSendReq [.ref r.1, address, port, v]).map Prod.snd := by
  have hlen : args.length = proto.params.length := by
    rw [length_of_readParams hread, List.length_map]
  have hdecls : execAll (blockHost E proto result) ((text "response", some .sbuffer) ::
      callEnv message_id (.ofBytes proto.name.chars) broker verbose ps)
      ((readDecls proto.params 0).map Decl.stmt) = some (env, []) := by
    rw [← henv]
    exact execAll_readDecls rfl hnot hread
  rw [runServerBlock_body hres, hdecls, Option.bind_some, ← ofBytes_responseConv,
    ← execAll_respondStmts hres hlen henv hop hid haddress hport hverbose htruth]
  rfl

/-- With a parameter called `params` it has no defined behaviour. -/
theorem run_serverBlock_params (hres : Resolves proto) (hmem : text "params" ∈ proto.names) :
    runServerBlock E proto result message_id (.ofBytes proto.name.chars) broker verbose ps =
      none := by
  rw [runServerBlock_body hres, execAll_readDecls_captured hmem rfl]
  rfl

end Run

end RpcBroker
