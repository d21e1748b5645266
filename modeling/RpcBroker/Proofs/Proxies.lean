import RpcBroker.Model.Proxies
import RpcBroker.Proofs.BlockText
import RpcBroker.Proofs.Capture
import RpcBroker.Proofs.Handling
/-!
# RpcBroker.Proofs.Proxies

**The files the generators write mean what the programs are modelled with.** From an
interface of prototypes and lines without `);`, `client-proxy.c` has the stub of each
prototype, `server-proxy.c` a dispatcher with a block for each, in the order of the
interface (`proxies_printed`). Run on any call, the dispatcher does what
`call_marshelResponse_send` does in the model of the server (`dispatcher_correct`).
-/

namespace RpcBroker

open CLib Msgpack Perl CBlock

/-! ### Lines -/

/-- **A line without `);` is no prototype.** -/
theorem matchPrototype_none {line : Text} (h : ¬ text ");" <:+: line) :
    matchPrototype line = none := by
  rw [matchPrototype]
  cases hsearch : search prototypePattern line with
  | none => rfl
  | some ws =>
      obtain ⟨htakes, hinfix⟩ := search_sound hsearch
      -- The last two classes of the pattern are those of `)` and `;`.
      have hlast : List.Forall₂ Item.Takes [.one (· = 41), .one (· = 59)] (ws.drop 6) :=
        List.forall₂_drop 6 htakes
      obtain ⟨u, rest, hu, hrest, hdrop⟩ := List.forall₂_cons_left_iff.mp hlast
      obtain ⟨v, rest, hv, hnil, rfl⟩ := List.forall₂_cons_left_iff.mp hrest
      obtain rfl := List.forall₂_nil_left_iff.mp hnil
      obtain ⟨c, rfl, hc⟩ := hu.one
      obtain ⟨d, rfl, hd⟩ := hv.one
      obtain rfl := of_decide_eq_true hc
      obtain rfl := of_decide_eq_true hd
      refine absurd (List.IsInfix.trans ?_ hinfix) h
      rw [← List.take_append_drop 6 ws, hdrop, List.flatten_append]
      exact (List.suffix_append _ _).isInfix

/-- The end of a line adds no `);`. -/
theorem unmatched_lineEnd {line : Text} (h : ¬ text ");" <:+: line) (eol : Bool) :
    ¬ text ");" <:+: line ++ lineEnd eol := by
  cases eol with
  | false => rwa [lineEnd, List.append_nil]
  | true =>
      intro hmem
      obtain ⟨front, back, hsplit⟩ := hmem
      rcases List.eq_nil_or_concat' back with rfl | ⟨back, c, rfl⟩
      · have hends : (59 : UInt8) = 10 := by
          have hlast := congrArg List.getLast? hsplit
          rw [List.append_nil, List.getLast?_append, List.getLast?_append] at hlast
          exact Option.some.inj hlast
        exact absurd hends (by decide)
      · rw [← List.append_assoc] at hsplit
        obtain ⟨hline, -⟩ := List.append_inj' hsplit rfl
        exact h ⟨front, back, hline⟩

/-- No line of an interface has the end of a line in it. -/
theorem InterfaceLine.newline_notMem (line : InterfaceLine) : 10 ∉ line.chars := by
  cases line with
  | other line oneLine unmatched => exact oneLine
  | prototype proto =>
      have hword : ¬ (isWord 10 || (10 : UInt8) = 42) = true := by decide
      intro hmem
      simp only [InterfaceLine.chars, Prototype.line, List.mem_append] at hmem
      rcases hmem with ((((hmem | hmem) | hmem) | hmem) | hmem) | hmem
      · exact hword ((CType.chars_text proto.ret).2 10 hmem)
      · exact absurd hmem (by decide)
      · exact hword (by rw [proto.name.word 10 hmem, Bool.true_or])
      · exact absurd hmem (by decide)
      · exact proto.paramsText_ne_newline 10 hmem rfl
      · exact absurd hmem (by decide)

/-- The last line of a file, with or without its newline. -/
theorem flatMap_lastLine {prints : Text → Text} (hnil : prints [] = []) {line : Text}
    (h : 10 ∉ line) (eol : Bool) :
    (readLines (line ++ lineEnd eol)).flatMap prints = prints (line ++ lineEnd eol) := by
  cases eol with
  | true =>
      have hread : readLines (line ++ lineEnd true) = [line ++ lineEnd true] := readLines_line h
      rw [hread, List.flatMap_singleton]
  | false =>
      rw [lineEnd, List.append_nil]
      by_cases hline : line = []
      · rw [hline, hnil]
        rfl
      · rw [readLines_last hline h, List.flatMap_singleton]

/-- What a script prints for the lines of a file is what it prints for its prototypes. -/
theorem flatMap_readLines {prints : Text → Text} {printed : Prototype → Text}
    (hproto : ∀ (proto : Prototype) (eol : Bool), prints (proto.line ++ lineEnd eol) = printed proto)
    (hother : ∀ (line : Text) (eol : Bool), ¬ text ");" <:+: line →
      prints (line ++ lineEnd eol) = []) (lines : List InterfaceLine) (eol : Bool) :
    (readLines (interfaceText lines eol)).flatMap prints =
      (prototypes lines).flatMap printed := by
  have hline : ∀ (line : InterfaceLine) (lines : List InterfaceLine) (eol : Bool),
      prints (line.chars ++ lineEnd eol) ++ (prototypes lines).flatMap printed =
        (prototypes (line :: lines)).flatMap printed := by
    intro line lines eol
    cases line with
    | prototype proto =>
        rw [InterfaceLine.chars, hproto, prototypes, List.flatMap_cons]
    | other line oneLine unmatched =>
        rw [InterfaceLine.chars, hother line eol unmatched, prototypes, List.nil_append]
  have hnil : prints [] = [] := hother [] false (by decide)
  induction lines with
  | nil => rfl
  | cons line lines ih =>
      cases lines with
      | nil =>
          rw [interfaceText, flatMap_lastLine hnil line.newline_notMem, ← hline line [] eol]
          exact (List.append_nil _).symm
      | cons next lines =>
          have hread : readLines (line.chars ++ text "\n" ++ interfaceText (next :: lines) eol) =
              (line.chars ++ lineEnd true) :: readLines (interfaceText (next :: lines) eol) := by
            rw [List.append_assoc]
            exact readLines_line line.newline_notMem
          rw [interfaceText, hread, List.flatMap_cons, ih, hline line (next :: lines) true]

/-! ### The files -/

theorem clientStub_stub (proto : Prototype) (eol : Bool) :
    clientStub (proto.line ++ lineEnd eol) = some proto.stub := by
  have hformat := clientStub_stubFormat proto eol
  rw [clientStub_line] at hformat ⊢
  have hconv : (proto.params.flatMap fun param => [percent, param.1.conversion]) =
      (stubFormat (proto.params.map declared)).chars := Option.some.inj hformat
  rw [hconv]
  rfl

theorem clientProxy_interface (lines : List InterfaceLine) (eol : Bool) :
    clientProxy (interfaceText lines eol) =
      clientBeginning ++ (prototypes lines).flatMap fun proto => proto.stub.output := by
  have hproto : ∀ (proto : Prototype) (eol : Bool),
      clientPrints (proto.line ++ lineEnd eol) = proto.stub.output := by
    intro proto eol
    rw [clientPrints, clientStub_stub]
    rfl
  have hother : ∀ (line : Text) (eol : Bool), ¬ text ");" <:+: line →
      clientPrints (line ++ lineEnd eol) = [] := by
    intro line eol hline
    rw [clientPrints, clientStub, matchPrototype_none (unmatched_lineEnd hline eol)]
    rfl
  rw [clientProxy, flatMap_readLines hproto hother]

theorem serverProxy_interface (lines : List InterfaceLine) (eol : Bool) :
    serverProxy (interfaceText lines eol) = dispatcherText (prototypes lines) := by
  have hproto : ∀ (proto : Prototype) (eol : Bool),
      serverPrints (proto.line ++ lineEnd eol) = blockText (serverBlock proto) ++ text "\n" := by
    intro proto eol
    rw [serverPrints, serverStub_blockText]
    rfl
  have hother : ∀ (line : Text) (eol : Bool), ¬ text ");" <:+: line →
      serverPrints (line ++ lineEnd eol) = [] := by
    intro line eol hline
    rw [serverPrints, serverStub, matchPrototype_none (unmatched_lineEnd hline eol)]
    rfl
  rw [serverProxy, flatMap_readLines hproto hother, dispatcherText]

/-- **What the generators print**: from any interface of prototypes and other lines the
client gets the stub of each prototype and the server a dispatcher with the block of each,
all in the order of the interface. -/
theorem proxies_printed (lines : List InterfaceLine) (eol : Bool) :
    clientProxy (interfaceText lines eol) =
        clientBeginning ++ ((prototypes lines).flatMap fun proto => proto.stub.output) ∧
      serverProxy (interfaceText lines eol) = dispatcherText (prototypes lines) :=
  ⟨clientProxy_interface lines eol, serverProxy_interface lines eol⟩

/-! ### A block, on any call -/

section Run

variable {E : Libs} {proto : Prototype} {result : List Arg → Arg} {message_id : Int32}
  {operation : CString} {broker : Details} {verbose : Bool} {ps : List ParamPtr}

theorem readParams_cons_drop (t : CType) (ts : List CType) (ps : List ParamPtr) (i : Nat) :
    readParams (t :: ts) (ps.drop i) =
      (ps[i]?.bind (·.read t)).bind fun a => (readParams ts (ps.drop (i + 1))).map (a :: ·) := by
  rw [← List.head?_drop, ← List.drop_drop]
  cases ps.drop i with
  | nil => rfl
  | cons p rest =>
      rw [readParams, List.head?_cons, Option.bind_some, List.drop_one, List.tail_cons]
      cases p.read t with
      | none => rfl
      | some a =>
          cases readParams ts rest with
          | none => rfl
          | some as => rfl

/-- An entry that cannot be read leaves the declarations without a defined value. -/
theorem execAll_readDecls_none {params : List (CType × Identifier)} :
    ∀ {env : Env CVal} {i : Nat}, valueOf env (text "params") = some (.ptrs ps) →
      text "params" ∉ params.map (fun param => param.2.chars) →
      readParams (params.map Prod.fst) (ps.drop i) = none →
      execAll (blockHost E proto result) env ((readDecls params i).map Decl.stmt) = none := by
  induction params with
  | nil =>
      intro env i _ _ hread
      exact absurd hread (by simp [readParams])
  | cons param params ih =>
      intro env i hps hnot hread
      obtain ⟨hne, hrest⟩ := not_or.mp fun h => hnot (List.mem_cons.mpr h)
      rw [List.map_cons, readParams_cons_drop] at hread
      rw [readDecls, List.map_cons, execAll_cons, Decl.stmt, readDecl, exec_decl, eval_readExpr,
        valueOf_of_ne hne, hps, Option.bind_some, CVal.paramAt]
      cases hat : ps[i]?.bind (·.read param.1) with
      | none => rfl
      | some a =>
          rw [hat, Option.bind_some, Option.map_eq_none_iff] at hread
          have hps' : valueOf ((param.2.chars, some (CVal.ofArg a)) :: env) (text "params") =
              some (.ptrs ps) := by rw [valueOf_of_ne hne, hps]
          rw [Option.map_some, Option.map_some, Option.map_some, Option.bind_some,
            ih hps' hrest hread]
          rfl

/-- A block has no defined behaviour for entries it cannot read. -/
theorem runServerBlock_unread (hres : Resolves proto) (hnot : text "params" ∉ proto.names)
    (hread : readParams (proto.params.map Prod.fst) ps = none) :
    runServerBlock E proto result message_id (.ofBytes proto.name.chars) broker verbose ps =
      none := by
  rw [runServerBlock_body hres, execAll_readDecls_none (i := 0) rfl hnot hread]
  rfl

/-- A block does nothing in the call of another function. -/
theorem runServerBlock_other (hres : Resolves proto)
    (hother : operation ≠ .ofBytes proto.name.chars) :
    runServerBlock E proto result message_id operation broker verbose ps = some [] := by
  have hargs : evalArgs (blockHost E proto result)
      (callEnv message_id operation broker verbose ps)
      [.var (text "operation"), .str proto.name.chars] =
      some ([.ptr (.str operation), .ptr (.str (.ofBytes proto.name.chars))], []) := rfl
  have hcond : eval (blockHost E proto result) (callEnv message_id operation broker verbose ps)
      (serverBlock proto).cond = some (.bool false, []) := by
    rw [serverBlock, eval_call rfl hargs, fn_strEquals hres, runStrEquals, E.strEquals_str,
      decide_eq_false hother]
    rfl
  exact Block.run_of_false hcond rfl

/-- **A block does in every call what the server's model says.** -/
theorem runServerBlock_stubBlock (hcompiles : compiles proto = true)
    (hfree : ∀ x ∈ captured, x ∉ proto.names) (program : ServerProgram) :
    (runServerBlock E proto (program.result (.ofBytes proto.name.chars)) message_id operation
        broker verbose ps).map (List.map fun s => (⟨E.pack s.1, s.2⟩ : Sent E.Buffer)) =
      stubBlock E program ⟨some message_id, .str operation, broker, ps⟩ proto.proto := by
  have hres := resolves_of_compiles hcompiles
  by_cases hop : operation = .ofBytes proto.name.chars
  · subst hop
    cases hread : readParams (proto.params.map Prod.fst) ps with
    | some args => exact runServerBlock_eq_stubBlock hcompiles hfree program hread
    | none =>
        rw [runServerBlock_unread hres (hfree _ (by decide)) hread, stubBlock, Prototype.proto,
          E.strEquals_str, decide_eq_true rfl, if_pos rfl, hread]
        rfl
  · rw [runServerBlock_other hres hop, stubBlock_other rfl hop]
    rfl

end Run

/-! ### The dispatcher -/

/-- Results that are passed on one by one. -/
theorem mapM_map_option {α β γ : Type} (f : α → Option β) (g : β → γ) (as : List α) :
    (as.mapM fun a => (f a).map g) = (as.mapM f).map (List.map g) := by
  induction as with
  | nil => rfl
  | cons a as ih =>
      rw [List.mapM_cons, List.mapM_cons, ih]
      cases f a with
      | none => rfl
      | some b =>
          cases as.mapM f with
          | none => rfl
          | some bs => rfl

/-- Two functions that agree on the elements. -/
theorem mapM_congr_option {α β : Type} {f g : α → Option β} {as : List α}
    (h : ∀ a ∈ as, f a = g a) : as.mapM f = as.mapM g := by
  induction as with
  | nil => rfl
  | cons a as ih =>
      obtain ⟨ha, has⟩ := List.forall_mem_cons.mp h
      rw [List.mapM_cons, List.mapM_cons, ha, ih has]

/-- **The dispatcher that is printed is the one the server is modelled with**, on every
call, if its blocks compile and no parameter has a name they use. -/
theorem dispatcher_correct (E : Libs) {lines : List InterfaceLine} (eol : Bool)
    (hcompiles : ∀ proto ∈ prototypes lines, compiles proto = true)
    (hfree : ∀ proto ∈ prototypes lines, ∀ x ∈ captured, x ∉ proto.names)
    {program : ServerProgram} (hprotos : program.protos = (prototypes lines).map Prototype.proto)
    (message_id : Int32) (operation : CString) (broker : Details) (verbose : Bool)
    (ps : List ParamPtr) :
    serverProxy (interfaceText lines eol) = dispatcherText (prototypes lines) ∧
      (runServerProxy E (prototypes lines) program.result message_id operation broker verbose
        ps).map (List.map fun s => (⟨E.pack s.1, s.2⟩ : Sent E.Buffer)) =
      callMarshelResponseSend E program ⟨some message_id, .str operation, broker, ps⟩ := by
  refine ⟨serverProxy_interface lines eol, ?_⟩
  have hblocks : program.protos.mapM
      (stubBlock E program ⟨some message_id, .str operation, broker, ps⟩) =
      ((prototypes lines).mapM fun proto => runServerBlock E proto
        (program.result (.ofBytes proto.name.chars)) message_id operation broker verbose ps).map
          (List.map (List.map fun s => (⟨E.pack s.1, s.2⟩ : Sent E.Buffer))) := by
    rw [hprotos, List.mapM_map, ← mapM_map_option]
    refine mapM_congr_option fun proto hproto => ?_
    exact (runServerBlock_stubBlock (hcompiles proto hproto) (hfree proto hproto) program).symm
  rw [callMarshelResponseSend, hblocks, runServerProxy]
  cases (prototypes lines).mapM fun proto => runServerBlock E proto
      (program.result (.ofBytes proto.name.chars)) message_id operation broker verbose ps with
  | none => rfl
  | some blocks => exact congrArg some List.map_flatten

open ServerInterface in
theorem prototypes_interfaceFile : prototypes interfaceFile = serverInterface := rfl

open ServerInterface in
/-- `add(20, 199)`, with the dispatcher printed from `server_interface.h`. -/
theorem dispatcher_correct_interface :
    ∃ response : Libs.reference.Buffer, (runServerProxy Libs.reference serverInterface
      (interfaceResult ⟨id, fun s _ => s⟩) 7 (.lit "add") ⟨.lit "127.0.0.1", .lit "9090"⟩ false
        [.int 20, .int 199]).map (List.map fun s => (⟨Libs.reference.pack s.1, s.2⟩ :
          Sent Libs.reference.Buffer)) =
      some [⟨response, ⟨.str (.lit "127.0.0.1"), .str (.lit "9090")⟩⟩] := by
  have hcompiles : ∀ proto ∈ prototypes interfaceFile, compiles proto = true := by
    rw [prototypes_interfaceFile]
    decide
  have hfree : ∀ proto ∈ prototypes interfaceFile, ∀ x ∈ captured, x ∉ proto.names := by
    rw [prototypes_interfaceFile]
    decide
  have hprotos : (serverProgram ⟨id, fun s _ => s⟩).protos =
      (prototypes interfaceFile).map Prototype.proto := rfl
  have hrun := (dispatcher_correct Libs.reference true hcompiles hfree hprotos 7 (.lit "add")
    ⟨.lit "127.0.0.1", .lit "9090"⟩ false [.int 20, .int 199]).2
  exact ⟨_, hrun.trans rfl⟩

end RpcBroker
