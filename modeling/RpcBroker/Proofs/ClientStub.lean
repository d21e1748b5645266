import RpcBroker.Model.ClientStub
import RpcBroker.Proofs.Capture
import RpcBroker.Proofs.Proxies
import RpcBroker.Proofs.RoundTrip
/-!
# RpcBroker.Proofs.ClientStub

What the two scripts print for a prototype fits together (`stubs_fit`).

**The stub that is printed makes the call the system is modelled with**, as long as it
compiles and no parameter has the name of one of the three variables of the client
program it depends on (`asks_iff`). A parameter with such a name hides the variable: the
request goes where the argument says, or the client waits at another port than the one
in the request.
-/

namespace RpcBroker

open CLib Msgpack Perl CBlock CFunction

variable {E : Libs} {proto : Prototype} {args : List Arg} {client broker : Details}
  {verbose : Bool} {rand : Int32} {answer : E.Buffer}

/-! ### The text -/

/-- **The script prints this function.** -/
theorem stubText_output (proto : Prototype) : stubText proto = proto.stub.output := by
  have hsbuf : text " )\n\x7b\n\n    msgpack_sbuffer sbuf;\n\n" =
      text " )\n\x7b\n\n" ++ (stubLine [.decl (text "msgpack_sbuffer") (text "sbuf")] ++
        text "\n") := by decide
  have hpack : stubLine [.call (packCall proto)] ++ text "\n" =
      text "    pack_client_request_data( &sbuf, (char*)__func__, \"" ++
        ((stubFormat (proto.params.map declared)).chars ++ (text "\"" ++
          ((proto.params.flatMap fun param => text "," ++ param.2.chars) ++ text ");\n\n"))) := by
    have hopen : text "    pack_client_request_data( &sbuf, (char*)__func__, \"" =
        text "    " ++ (text "pack_client_request_data" ++ (text "( " ++ (text "&" ++
          (text "sbuf" ++ (text ", " ++ (text "(char*)__func__" ++ (text ", " ++
            text "\""))))))) := by decide
    have hclose : text ");\n\n" = text ")" ++ (text ";" ++ (text "\n" ++ text "\n")) := by decide
    simp only [stubLine, List.map_cons, List.map_nil, join_singleton, lineStmtText, callText,
      packCall, List.flatMap_append, List.flatMap_cons, List.flatMap_nil, List.flatMap_map, argText,
      hopen, hclose, List.append_assoc, List.append_nil]
  have hpacket : text "    Packet pkt; pkt.buffer = sbuf.data; pkt.len = sbuf.size;\n\n" =
      stubLine [.decl (text "Packet") (text "pkt"),
        .copy (text "pkt") (text "buffer") (text "sbuf") (text "data"),
        .copy (text "pkt") (text "len") (text "sbuf") (text "size")] ++ text "\n" := by decide
  have hask : text "    Packet *result = send_and_receive( &pkt, broker_address, broker_port, " ++
      text "verbose, wait_response_port );\n\n" =
      stubLine [.declPtr (text "Packet") (text "result") askCall] ++ text "\n" := by decide
  have hdestroy :
      text "verbose, wait_response_port );\n\n    msgpack_sbuffer_destroy(&sbuf);\n\n    " =
      text "verbose, wait_response_port );\n\n" ++ (stubLine [.call destroyCall] ++ (text "\n" ++
        text "    ")) := by decide
  have hret : text "    " ++ (retStatement proto.ret.text.chars ++ text "\n\x7d\n\n") =
      stubLine [.ret (replyCall proto.ret)] ++ text "\x7d\n\n" := by
    cases proto.ret with
    | int => decide
    | charPtr => decide
  simp only [stubText, ClientStub.output, Prototype.stub, stubFunction, List.map_cons, List.map_nil,
    join_cons_cons, join_singleton, hsbuf, hpacket, List.append_assoc]
  rw [hdestroy, List.append_assoc (text "verbose, wait_response_port );\n\n"),
    ← List.append_assoc
      (text "    Packet *result = send_and_receive( &pkt, broker_address, broker_port, "),
    hask]
  simp only [List.append_assoc, hret]
  rw [← List.append_assoc (stubLine [.call (packCall proto)]), hpack]
  simp only [List.append_assoc]

/-- **The stubs of one prototype fit together**, and what the scripts print of them are the
function and the block made of the same pieces. -/
theorem stubs_fit (proto : Prototype) (eol : Bool) :
    ∃ client server, clientStub (proto.line ++ lineEnd eol) = some client ∧
      serverStub (proto.line ++ lineEnd eol) = some server ∧ StubsFit proto client server ∧
      client.output = stubText proto ∧
      server.output = blockText (serverBlock proto) ++ text "\n" := by
  obtain ⟨client, server, hclient, hserver, hfit⟩ := stubsFit_line proto eol
  refine ⟨client, server, hclient, hserver, hfit, ?_, ?_⟩
  · obtain rfl : proto.stub = client :=
      Option.some.inj ((clientStub_stub proto eol).symm.trans hclient)
    exact (stubText_output proto).symm
  · have hblock := serverStub_blockText proto eol
    rw [hserver] at hblock
    exact Option.some.inj hblock

/-! ### What compiles -/

/-- What compiling a stub says about the names of its parameters. -/
structure StubResolves (proto : Prototype) : Prop where
  nodup : proto.names.Nodup
  sbuf : text "sbuf" ∉ proto.names
  pkt : text "pkt" ∉ proto.names
  result : text "result" ∉ proto.names
  /-- They are not the functions the stub calls. -/
  called : ∀ c ∈ [packCall proto, askCall, destroyCall, replyCall proto.ret], c.fn ∉ proto.names

theorem stubFunction_names (proto : Prototype) :
    (stubFunction proto).params.map Prod.snd = proto.names := by
  rw [stubFunction, List.map_map]
  rfl

/-- A function the stub calls where these variables are declared is no parameter. -/
theorem fn_notMem_names {locals outer : Scope} {c : CFunction.Call} {t : CTy}
    (hlocals : ∀ d ∈ locals, ∃ type, d.2 = .var type)
    (h : typeOfCall (locals ++ ((stubFunction proto).paramScope ++ outer)) c = some t) :
    c.fn ∉ proto.names := by
  rw [← List.append_assoc] at h
  have hnot := notMem_of_typeOfCall ?_ h
  · rw [List.map_append, List.mem_append, not_or] at hnot
    rw [← stubFunction_names]
    simpa [Function.paramScope] using hnot.2
  · intro d hd
    rcases List.mem_append.mp hd with hd | hd
    · exact hlocals d hd
    · obtain ⟨p, -, rfl⟩ := List.mem_map.mp hd
      exact ⟨p.1, rfl⟩

theorem stubResolves_of_compiles (h : stubCompiles proto = true) : StubResolves proto := by
  obtain ⟨-, hcheck⟩ := (Bool.and_eq_true _ _).mp h
  rw [Function.check, Bool.and_eq_true, stubFunction_names] at hcheck
  obtain ⟨hnodup, hbody⟩ := hcheck
  have hlines : (stubFunction proto).lines.flatten =
      [.decl (text "msgpack_sbuffer") (text "sbuf"), .call (packCall proto),
        .decl (text "Packet") (text "pkt"),
        .copy (text "pkt") (text "buffer") (text "sbuf") (text "data"),
        .copy (text "pkt") (text "len") (text "sbuf") (text "size"),
        .declPtr (text "Packet") (text "result") askCall, .call destroyCall,
        .ret (replyCall proto.ret)] := rfl
  rw [hlines] at hbody
  simp only [CFunction.check, Bool.and_eq_true, Bool.not_eq_true', Option.isSome_iff_exists,
    Option.any_eq_true] at hbody
  obtain ⟨⟨-, hsbuf⟩, ⟨_, hpack⟩, ⟨-, hpkt⟩, -, -, ⟨⟨-, hresult⟩, _, hask, -⟩, ⟨_, hdestroy⟩,
    ⟨_, hreply, -⟩, -⟩ := hbody
  have hpkt' : text "pkt" ∉ proto.names := by
    simp only [List.contains_cons, Bool.or_eq_false_iff] at hpkt
    simpa using hpkt.2
  have hresult' : text "result" ∉ proto.names := by
    simp only [List.contains_cons, Bool.or_eq_false_iff] at hresult
    simpa using hresult.2.2
  have hone : ∀ d ∈ [(text "sbuf", Entity.var (.named (text "msgpack_sbuffer")))],
      ∃ type, d.2 = .var type := by simp
  have hthree : ∀ d ∈ [(text "result", Entity.var (.ptrTo (text "Packet"))),
      (text "pkt", .var (.named (text "Packet"))),
      (text "sbuf", .var (.named (text "msgpack_sbuffer")))], ∃ type, d.2 = .var type := by simp
  refine ⟨of_decide_eq_true hnodup, by simpa using hsbuf, hpkt', hresult', ?_⟩
  intro c hc
  simp only [List.mem_cons, List.not_mem_nil, or_false] at hc
  rcases hc with rfl | rfl | rfl | rfl
  · exact fn_notMem_names hone hpack
  · exact fn_notMem_names hthree hask
  · exact fn_notMem_names hthree hdestroy
  · exact fn_notMem_names hthree hreply

/-! ### A call -/

/-- What the stub asks for, where the variables it depends on hold these values. -/
def askedFor (tokens : List Token) (address port waitsAt : StubVal E.Buffer) : Option Asked := do
  return ⟨tokens, ← address.string?, ← port.string?, ← waitsAt.string?⟩

section Exec

variable {env : Env (StubVal E.Buffer)} {tokens : List Token}

/-- The buffer of the stub before and after packing. -/
def packedEnv (env : Env (StubVal E.Buffer)) (tokens : List Token) : Env (StubVal E.Buffer) :=
  (text "sbuf", some (.sbuffer (some tokens))) :: (text "sbuf", some (.sbuffer none)) :: env

theorem packCall_addrs (proto : Prototype) : (packCall proto).addrs = [text "sbuf"] := by
  have hparams : (proto.params.map fun param =>
      (text ",", CFunction.Arg.var param.2.chars)).filterMap (fun arg => arg.2.addr?) = [] := by
    rw [List.filterMap_map, List.filterMap_eq_nil_iff]
    intro param _
    rfl
  rw [CFunction.Call.addrs, packCall, List.filterMap_append, hparams]
  rfl

/-- The stub packs what its parameters hold. -/
theorem evalCall_pack (hfn : env.lookup (packCall proto).fn = none)
    (hparams : (proto.params.mapM fun param =>
      valueOf ((text "sbuf", some (.sbuffer none)) :: env) param.2.chars) = some (args.map .arg))
    (htokens : packClientRequestData client rand (.ofBytes proto.name.chars)
      (stubFormat (proto.params.map declared)) args = some tokens) :
    evalCall (stubHost E client rand answer) proto.name.chars
      ((text "sbuf", some (.sbuffer none)) :: env) (packCall proto) =
        some (.unit, packedEnv env tokens, []) := by
  have hargs : (packCall proto).args.mapM (fun arg =>
      evalArg (stubHost E client rand answer) proto.name.chars
        ((text "sbuf", some (.sbuffer none)) :: env) arg.2) =
      some (.ref (.sbuffer none) :: .arg (.str (.ofBytes proto.name.chars)) ::
        .arg (.str (stubFormat (proto.params.map declared))) :: args.map .arg) := by
    have hrest : ((proto.params.map fun param => (text ",", CFunction.Arg.var param.2.chars)).mapM
        fun arg => evalArg (stubHost E client rand answer) proto.name.chars
          ((text "sbuf", some (.sbuffer none)) :: env) arg.2) = some (args.map .arg) := by
      rw [List.mapM_map]
      exact hparams
    rw [packCall, List.mapM_append, hrest]
    simp [evalArg, stubHost]
  have hvalues : (args.map (StubVal.arg (B := E.Buffer))).mapM StubVal.arg? = some args := by
    rw [List.mapM_map]
    exact mapM_eq_some (List.forall₂_same.mpr fun _ _ => rfl)
  have hcons : (((text "sbuf", some (StubVal.sbuffer none)) :: env).lookup
      (packCall proto).fn) = none := by
    rw [List.lookup_cons, hfn]
    rfl
  have hrun : (stubHost E client rand answer).fn (packCall proto).fn
      (.ref (.sbuffer none) :: .arg (.str (.ofBytes proto.name.chars)) ::
        .arg (.str (stubFormat (proto.params.map declared))) :: args.map .arg) =
      some (.unit, [.sbuffer (some tokens)], []) := by
    have hpack : runPackRequest E client rand (.ref (.sbuffer none) ::
        .arg (.str (.ofBytes proto.name.chars)) ::
        .arg (.str (stubFormat (proto.params.map declared))) :: args.map .arg) =
        some (.unit, [.sbuffer (some tokens)], []) := by
      simp [runPackRequest, StubVal.string?, hvalues, htokens]
    exact hpack
  rw [evalCall_eq hcons hargs, packCall_addrs, hrun]
  rfl

/-- The packet of the stub as it is filled. -/
def filledEnv (env : Env (StubVal E.Buffer)) (tokens : List Token) : Env (StubVal E.Buffer) :=
  (text "pkt", some (.packet (some tokens) (some tokens))) ::
    (text "pkt", some (.packet (some tokens) none)) :: (text "pkt", some (.packet none none)) ::
    packedEnv env tokens

/-- The stub sends the buffer it packed. -/
theorem exec_fill (name : Ident) (ss : List CFunction.Stmt) :
    exec (stubHost E client rand answer) name (packedEnv env tokens)
      (.decl (text "Packet") (text "pkt") ::
        .copy (text "pkt") (text "buffer") (text "sbuf") (text "data") ::
        .copy (text "pkt") (text "len") (text "sbuf") (text "size") :: ss) =
      exec (stubHost E client rand answer) name (filledEnv env tokens) ss := by
  rfl

/-- What the three variables and the flag hold. -/
structure GlobalsHold (env : Env (StubVal E.Buffer))
    (address port flag waitsAt : StubVal E.Buffer) : Prop where
  address : valueOf env (text "broker_address") = some address
  port : valueOf env (text "broker_port") = some port
  flag : valueOf env (text "verbose") = some flag
  waitsAt : valueOf env (text "wait_response_port") = some waitsAt

/-- The variables of the stub itself, from the moment it asks. -/
def resultEnv (env : Env (StubVal E.Buffer)) (tokens : List Token) : Env (StubVal E.Buffer) :=
  (text "result", none) :: filledEnv env tokens

/-- The variables of the stub hide only their own names. -/
theorem valueOf_resultEnv {x : Ident} (hsbuf : x ≠ text "sbuf") (hpkt : x ≠ text "pkt")
    (hresult : x ≠ text "result") : valueOf (resultEnv env tokens) x = valueOf env x := by
  rw [resultEnv, valueOf_of_ne hresult, filledEnv, valueOf_of_ne hpkt, valueOf_of_ne hpkt,
    valueOf_of_ne hpkt, packedEnv, valueOf_of_ne hsbuf, valueOf_of_ne hsbuf]

theorem lookup_resultEnv {x : Ident} (hsbuf : x ≠ text "sbuf") (hpkt : x ≠ text "pkt")
    (hresult : x ≠ text "result") : (resultEnv env tokens).lookup x = env.lookup x := by
  simp [resultEnv, filledEnv, packedEnv, List.lookup_cons, beq_false_of_ne hsbuf,
    beq_false_of_ne hpkt, beq_false_of_ne hresult]

variable {address port flag waitsAt : StubVal E.Buffer}

/-- The stub asks at the address its variables hold. -/
theorem evalCall_ask (client : Details) (rand : Int32) (answer : E.Buffer) (tokens : List Token)
    (name : Ident) (hfn : env.lookup askCall.fn = none)
    (hholds : GlobalsHold env address port flag waitsAt) (hflag : flag.truth.isSome) :
    evalCall (stubHost E client rand answer) name (resultEnv env tokens) askCall =
      (askedFor tokens address port waitsAt).map fun asked =>
        (.received answer,
          (text "pkt", some (.packet (some tokens) (some tokens))) :: resultEnv env tokens,
          [asked]) := by
  have hargs : askCall.args.mapM (fun arg =>
      evalArg (stubHost E client rand answer) name (resultEnv env tokens) arg.2) =
      some [.ref (.packet (some tokens) (some tokens)), address, port, flag, waitsAt] := by
    refine mapM_eq_some (.cons rfl (.cons ?_ (.cons ?_ (.cons ?_ (.cons ?_ .nil)))))
    · exact (valueOf_resultEnv (by decide) (by decide) (by decide)).trans hholds.address
    · exact (valueOf_resultEnv (by decide) (by decide) (by decide)).trans hholds.port
    · exact (valueOf_resultEnv (by decide) (by decide) (by decide)).trans hholds.flag
    · exact (valueOf_resultEnv (by decide) (by decide) (by decide)).trans hholds.waitsAt
  have hlookup : (resultEnv env tokens).lookup askCall.fn = none :=
    (lookup_resultEnv (by decide) (by decide) (by decide)).trans hfn
  have hrun : (stubHost E client rand answer).fn askCall.fn
      [.ref (.packet (some tokens) (some tokens)), address, port, flag, waitsAt] =
      (askedFor tokens address port waitsAt).map fun asked =>
        (.received answer, [.packet (some tokens) (some tokens)], [asked]) := by
    obtain ⟨b, hb⟩ := Option.isSome_iff_exists.mp hflag
    have hask : runAsk E answer
        [.ref (.packet (some tokens) (some tokens)), address, port, flag, waitsAt] =
        (askedFor tokens address port waitsAt).map fun asked =>
          (.received answer, [.packet (some tokens) (some tokens)], [asked]) := by
      rw [runAsk, hb, askedFor]
      cases address.string? with
      | none => rfl
      | some a =>
          cases port.string? with
          | none => rfl
          | some p =>
              cases waitsAt.string? with
              | none => rfl
              | some w => simp
    exact hask
  rw [evalCall_eq hlookup hargs, hrun, Option.map_map]
  rfl

/-- The variables of the stub when the answer is there. -/
def answeredEnv (env : Env (StubVal E.Buffer)) (tokens : List Token) (answer : E.Buffer) :
    Env (StubVal E.Buffer) :=
  (text "result", some (.received answer)) ::
    (text "pkt", some (.packet (some tokens) (some tokens))) :: resultEnv env tokens

theorem lookup_answeredEnv {x : Ident} (hsbuf : x ≠ text "sbuf") (hpkt : x ≠ text "pkt")
    (hresult : x ≠ text "result") :
    (answeredEnv env tokens answer).lookup x = env.lookup x := by
  rw [answeredEnv, List.lookup_cons, beq_false_of_ne hresult, List.lookup_cons,
    beq_false_of_ne hpkt]
  exact lookup_resultEnv hsbuf hpkt hresult

/-- The stub lets its buffer go. -/
theorem evalCall_destroy (hfn : env.lookup destroyCall.fn = none) (name : Ident) :
    evalCall (stubHost E client rand answer) name (answeredEnv env tokens answer) destroyCall =
      some (.unit, (text "sbuf", some (.sbuffer none)) :: answeredEnv env tokens answer, []) := by
  have hlookup : (answeredEnv env tokens answer).lookup destroyCall.fn = none :=
    (lookup_answeredEnv (by decide) (by decide) (by decide)).trans hfn
  have hargs : destroyCall.args.mapM (fun arg =>
      evalArg (stubHost E client rand answer) name (answeredEnv env tokens answer) arg.2) =
      some [.ref (.sbuffer (some tokens))] := rfl
  rw [evalCall_eq hlookup hargs]
  rfl

/-- The stub returns what its reader finds in the answer. -/
theorem evalCall_reply (ret : CType) (hfn : env.lookup (replyCall ret).fn = none)
    (name : Ident) :
    evalCall (stubHost E client rand answer) name
      ((text "sbuf", some (.sbuffer none)) :: answeredEnv env tokens answer) (replyCall ret) =
      some (.read (stubReturn E ret answer),
        (text "sbuf", some (.sbuffer none)) :: answeredEnv env tokens answer, []) := by
  have hne : ∀ x ∈ [text "sbuf", text "pkt", text "result"], (replyCall ret).fn ≠ x := by
    cases ret with
    | int => decide
    | charPtr => decide
  have hlookup : ((text "sbuf", some (StubVal.sbuffer none)) ::
      answeredEnv env tokens answer).lookup (replyCall ret).fn = none := by
    rw [List.lookup_cons, beq_false_of_ne (hne _ (by simp))]
    exact (lookup_answeredEnv (hne _ (by simp)) (hne _ (by simp)) (hne _ (by simp))).trans hfn
  have hargs : (replyCall ret).args.mapM (fun arg =>
      evalArg (stubHost E client rand answer) name
        ((text "sbuf", some (.sbuffer none)) :: answeredEnv env tokens answer) arg.2) =
      some [.received answer, .arg (.str Hdr.reply.text)] := rfl
  rw [evalCall_eq hlookup hargs]
  cases ret with
  | int => rfl
  | charPtr => rfl

/-- **A run of the body of the stub**, where its parameters and the variables it depends on
hold these values. -/
theorem exec_stub (hfn : ∀ c ∈ [packCall proto, askCall, destroyCall, replyCall proto.ret],
      env.lookup c.fn = none)
    (hparams : (proto.params.mapM fun param =>
      valueOf ((text "sbuf", some (.sbuffer none)) :: env) param.2.chars) = some (args.map .arg))
    (hholds : GlobalsHold env address port flag waitsAt) (hflag : flag.truth.isSome)
    (htokens : packClientRequestData client rand (.ofBytes proto.name.chars)
      (stubFormat (proto.params.map declared)) args = some tokens) :
    CFunction.exec (stubHost E client rand answer) proto.name.chars env
      (stubFunction proto).lines.flatten =
      (askedFor tokens address port waitsAt).map fun asked =>
        (some (.read (stubReturn E proto.ret answer)), [asked]) := by
  have hret : CFunction.exec (stubHost E client rand answer) proto.name.chars
      (answeredEnv env tokens answer) [.call destroyCall, .ret (replyCall proto.ret)] =
      some (some (.read (stubReturn E proto.ret answer)), []) := by
    rw [CFunction.exec, evalCall_destroy (hfn _ (by simp))]
    simp [CFunction.exec, evalCall_reply proto.ret (hfn _ (by simp))]
  have hask : CFunction.exec (stubHost E client rand answer) proto.name.chars (filledEnv env tokens)
      [.declPtr (text "Packet") (text "result") askCall, .call destroyCall,
        .ret (replyCall proto.ret)] =
      (askedFor tokens address port waitsAt).map fun asked =>
        (some (.read (stubReturn E proto.ret answer)), [asked]) := by
    have hcall := evalCall_ask client rand answer tokens proto.name.chars (hfn _ (by simp)) hholds
      hflag
    rw [resultEnv] at hcall
    rw [CFunction.exec, hcall]
    cases hasked : askedFor tokens address port waitsAt with
    | none => rfl
    | some asked =>
        rw [answeredEnv, resultEnv] at hret
        simp [hret]
  have hlines : (stubFunction proto).lines.flatten =
      [.decl (text "msgpack_sbuffer") (text "sbuf"), .call (packCall proto),
        .decl (text "Packet") (text "pkt"),
        .copy (text "pkt") (text "buffer") (text "sbuf") (text "data"),
        .copy (text "pkt") (text "len") (text "sbuf") (text "size"),
        .declPtr (text "Packet") (text "result") askCall, .call destroyCall,
        .ret (replyCall proto.ret)] := rfl
  have hfresh : (stubHost E client rand answer).fresh (text "msgpack_sbuffer") =
      some (.sbuffer none) := rfl
  rw [hlines, CFunction.exec, CFunction.exec, hfresh,
    evalCall_pack (hfn _ (by simp)) hparams htokens]
  simp only [Option.bind_eq_bind, Option.bind_some, exec_fill, hask]
  cases hasked : askedFor tokens address port waitsAt with
  | none => rfl
  | some asked => rfl

end Exec

/-! ### A call from a client -/

/-- **The stub makes the call**: it packs the request the client is modelled with, asks the
broker the client knows, waits at the client's port, and returns what `stubReturn` finds in
the answer. -/
def Asks (proto : Prototype) : Prop :=
  ∀ (E : Libs) (client broker : Details) (verbose : Bool) (rand : Int32) (answer : E.Buffer)
    (args : List Arg), args.map Arg.type = proto.params.map Prod.fst →
    ∃ tokens,
      packClientRequestData client rand (.ofBytes proto.name.chars)
        (stubFormat (proto.params.map declared)) args = some tokens ∧
      runStub E proto client broker verbose rand answer args =
        some (some (.read (stubReturn E proto.ret answer)),
          [⟨tokens, broker.address, broker.port, client.port⟩])

/-- The variables of the client program the stub depends on. -/
def askedOf : List Text :=
  [text "broker_address", text "broker_port", text "wait_response_port"]

/-- What a stub starts with. -/
def stubEnv (E : Libs) (proto : Prototype) (client broker : Details) (verbose : Bool)
    (args : List Arg) : Env (StubVal E.Buffer) :=
  proto.names.zip ((args.map .arg).map some) ++ clientEnv E client broker verbose

theorem stubEnv_names (htypes : args.map Arg.type = proto.params.map Prod.fst) :
    (proto.names.zip ((args.map (StubVal.arg (B := E.Buffer))).map some)).map Prod.fst =
      proto.names := by
  have hlen : args.length = proto.params.length := by simpa using congrArg List.length htypes
  refine List.map_fst_zip ?_
  simp [Prototype.names, hlen]

/-- A name that is no parameter is the client program's. -/
theorem lookup_stubEnv (htypes : args.map Arg.type = proto.params.map Prod.fst) {x : Ident}
    (hx : x ∉ proto.names) :
    (stubEnv E proto client broker verbose args).lookup x =
      (clientEnv E client broker verbose).lookup x := by
  have hnone : (proto.names.zip ((args.map (StubVal.arg (B := E.Buffer))).map some)).lookup x =
      none := by
    rw [List.lookup_eq_none_iff]
    intro p hp
    rw [bne_iff_ne]
    intro heq
    obtain rfl := heq
    exact hx (stubEnv_names (E := E) htypes ▸ List.mem_map_of_mem hp)
  rw [stubEnv, List.lookup_append, hnone, Option.none_or]

/-- A parameter hides the variable of its name. -/
theorem valueOf_stubEnv (E : Libs) (client broker : Details) (verbose : Bool)
    (htypes : args.map Arg.type = proto.params.map Prod.fst) {x : Ident} (hx : x ∈ proto.names) :
    ∃ a ∈ args, valueOf (stubEnv E proto client broker verbose args) x = some (.arg a) := by
  have hargs : ∀ d ∈ proto.names.zip ((args.map (StubVal.arg (B := E.Buffer))).map some),
      ∃ a ∈ args, d.2 = some (.arg a) := by
    intro d hd
    obtain ⟨b, hb, heq⟩ := List.mem_map.mp (List.of_mem_zip hd).2
    obtain ⟨a, ha, rfl⟩ := List.mem_map.mp hb
    exact ⟨a, ha, heq.symm⟩
  obtain ⟨v, hv, a, ha, rfl⟩ := lookup_append_of_mem
    (P := fun v => ∃ a ∈ args, v = some (.arg a)) hargs
    ((stubEnv_names (E := E) htypes).symm ▸ hx) (clientEnv E client broker verbose)
  refine ⟨a, ha, ?_⟩
  rw [valueOf, stubEnv, hv]
  rfl

/-- What a variable the stub depends on holds: the argument that hides it, or what the
client program put there. -/
theorem holds_stubEnv (E : Libs) (client broker : Details) (verbose : Bool)
    (htypes : args.map Arg.type = proto.params.map Prod.fst) (x : Ident) {v : StubVal E.Buffer}
    (hv : (clientEnv E client broker verbose).lookup x = some (some v)) :
    ∃ u, valueOf (stubEnv E proto client broker verbose args) x = some u ∧
      (x ∈ proto.names → ∃ a ∈ args, u = .arg a) ∧ (x ∉ proto.names → u = v) := by
  by_cases hx : x ∈ proto.names
  · obtain ⟨a, ha, hvalue⟩ := valueOf_stubEnv E client broker verbose htypes hx
    exact ⟨.arg a, hvalue, fun _ => ⟨a, ha, rfl⟩, fun hnot => absurd hx hnot⟩
  · refine ⟨v, ?_, fun hmem => absurd hmem hx, fun _ => rfl⟩
    rw [valueOf, lookup_stubEnv htypes hx, hv]
    rfl

/-- **A run of the stub**: what it asks for is what its three variables hold. -/
theorem runStub_eq (client broker : Details) (verbose : Bool) (rand : Int32) (answer : E.Buffer)
    (h : StubResolves proto)
    (htypes : args.map Arg.type = proto.params.map Prod.fst) :
    ∃ tokens address port waitsAt,
      packClientRequestData client rand (.ofBytes proto.name.chars)
        (stubFormat (proto.params.map declared)) args = some tokens ∧
      valueOf (stubEnv E proto client broker verbose args) (text "broker_address") =
        some address ∧
      valueOf (stubEnv E proto client broker verbose args) (text "broker_port") = some port ∧
      valueOf (stubEnv E proto client broker verbose args) (text "wait_response_port") =
        some waitsAt ∧
      runStub E proto client broker verbose rand answer args =
        (askedFor tokens address port waitsAt).map fun asked =>
          (some (.read (stubReturn E proto.ret answer)), [asked]) := by
  obtain ⟨address, haddress, -⟩ :=
    holds_stubEnv E client broker verbose htypes (text "broker_address") rfl
  obtain ⟨port, hport, -⟩ :=
    holds_stubEnv E client broker verbose htypes (text "broker_port") rfl
  obtain ⟨waitsAt, hwaitsAt, -⟩ :=
    holds_stubEnv E client broker verbose htypes (text "wait_response_port") rfl
  obtain ⟨flag, hflag, hhidden, hfree⟩ :=
    holds_stubEnv E client broker verbose htypes (text "verbose") rfl
  have htruth : flag.truth.isSome := by
    by_cases hx : text "verbose" ∈ proto.names
    · obtain ⟨a, -, rfl⟩ := hhidden hx
      cases a with
      | int v => rfl
      | str s => rfl
    · rw [hfree hx]
      rfl
  have hfits : FormatFits (stubFormat (proto.params.map declared)).chars args :=
    stubFormat_fits (by rw [htypes, List.map_map]; rfl)
  obtain ⟨tokens, htokens⟩ : ∃ tokens, packClientRequestData client rand
      (.ofBytes proto.name.chars) (stubFormat (proto.params.map declared)) args = some tokens :=
    ⟨_, by rw [packClientRequestData, hfits.packFmt]; rfl⟩
  refine ⟨tokens, address, port, waitsAt, htokens, haddress, hport, hwaitsAt, ?_⟩
  have hcalled : ∀ c ∈ [packCall proto, askCall, destroyCall, replyCall proto.ret],
      (stubEnv E proto client broker verbose args).lookup c.fn = none := by
    intro c hc
    rw [lookup_stubEnv htypes (h.called c hc)]
    simp only [List.mem_cons, List.not_mem_nil, or_false] at hc
    rcases hc with rfl | rfl | rfl | rfl
    · rfl
    · rfl
    · rfl
    · cases proto.ret with
      | int => rfl
      | charPtr => rfl
  have hlen : args.length = proto.params.length := by simpa using congrArg List.length htypes
  have hparams : (proto.params.mapM fun param =>
      valueOf ((text "sbuf", some (.sbuffer none)) :: stubEnv E proto client broker verbose args)
        param.2.chars) = some (args.map .arg) := by
    have hsbuf : ∀ x ∈ proto.names,
        x ∉ [(text "sbuf", some (StubVal.sbuffer (B := E.Buffer) none))].map Prod.fst := by
      intro x hx
      rw [List.map_singleton, List.mem_singleton]
      intro heq
      obtain rfl := heq
      exact h.sbuf hx
    have hlen' : proto.names.length = (args.map (StubVal.arg (B := E.Buffer))).length := by
      simp [Prototype.names, hlen]
    have hmap := mapM_eq_some
      (forall₂_params hlen' h.nodup hsbuf (clientEnv E client broker verbose))
    rw [Prototype.names, List.mapM_map] at hmap
    exact hmap
  rw [runStub, Function.run, if_pos (by simpa [stubFunction] using hlen), stubFunction_names]
  exact exec_stub hcalled hparams ⟨haddress, hport, hflag, hwaitsAt⟩ htruth htokens

/-- What a stub asks for tells what its variables hold. -/
theorem strings_of_askedFor {tokens : List Token} {address port waitsAt : StubVal E.Buffer}
    {asked : Asked} (h : askedFor tokens address port waitsAt = some asked) :
    address.string? = some asked.address ∧ port.string? = some asked.port ∧
      waitsAt.string? = some asked.waitsAt := by
  simp only [askedFor, Option.bind_eq_bind, Option.bind_eq_some_iff, Option.pure_def,
    Option.some.injEq] at h
  obtain ⟨a, ha, p, hp, w, hw, rfl⟩ := h
  exact ⟨ha, hp, hw⟩

/-- A variable that a sample argument hides does not hold the string `a`. -/
theorem string_of_hidden {params : List (CType × Identifier)} {a : Arg}
    (ha : a ∈ params.map fun param => sampleArg param.1) :
    (StubVal.arg (B := E.Buffer) a).string? ≠ some (.lit "a") := by
  obtain ⟨param, -, rfl⟩ := List.mem_map.mp ha
  cases param.1 with
  | int => exact nofun
  | charPtr => exact fun h => absurd (Option.some.inj h) (by decide)

/-- **What a stub that compiles asks for.** The script prints it, and it makes the call it
is modelled with exactly when no parameter has the name of a variable it depends on. -/
theorem asks_iff (proto : Prototype) (eol : Bool) (hcompiles : stubCompiles proto = true) :
    (clientStub (proto.line ++ lineEnd eol)).map ClientStub.output = some (stubText proto) ∧
      (Asks proto ↔ ∀ x ∈ askedOf, x ∉ proto.names) := by
  have hresolves := stubResolves_of_compiles hcompiles
  refine ⟨by rw [clientStub_stub, stubText_output]; rfl, ?_, ?_⟩
  · -- Everything the client knows is the string "a", and no argument is.
    intro h x hx hmem
    have htypes : (proto.params.map fun param => sampleArg param.1).map Arg.type =
        proto.params.map Prod.fst := by
      rw [List.map_map]
      exact List.map_congr_left fun param _ => type_sampleArg param.1
    obtain ⟨_, -, hrun⟩ := h .reference ⟨.lit "a", .lit "a"⟩ ⟨.lit "a", .lit "a"⟩ false 0
      (Libs.reference.pack []) _ htypes
    obtain ⟨tokens, address, port, waitsAt, -, haddress, hport, hwaitsAt, heq⟩ :=
      runStub_eq ⟨.lit "a", .lit "a"⟩ ⟨.lit "a", .lit "a"⟩ false 0 (Libs.reference.pack [])
        hresolves htypes
    rw [heq, Option.map_eq_some_iff] at hrun
    obtain ⟨asked, hasked, hpair⟩ := hrun
    obtain rfl : asked = _ := List.singleton_inj.mp (Prod.ext_iff.mp hpair).2
    obtain ⟨hsa, hsp, hsw⟩ := strings_of_askedFor hasked
    obtain ⟨a, ha, hvalue⟩ :=
      valueOf_stubEnv .reference ⟨.lit "a", .lit "a"⟩ ⟨.lit "a", .lit "a"⟩ false htypes hmem
    have hhidden := string_of_hidden (E := .reference) ha
    simp only [askedOf, List.mem_cons, List.not_mem_nil, or_false] at hx
    rcases hx with rfl | rfl | rfl
    · obtain rfl : address = .arg a := Option.some.inj (haddress.symm.trans hvalue)
      exact hhidden hsa
    · obtain rfl : port = .arg a := Option.some.inj (hport.symm.trans hvalue)
      exact hhidden hsp
    · obtain rfl : waitsAt = .arg a := Option.some.inj (hwaitsAt.symm.trans hvalue)
      exact hhidden hsw
  · intro h E client broker verbose rand answer args htypes
    obtain ⟨tokens, address, port, waitsAt, htokens, haddress, hport, hwaitsAt, hrun⟩ :=
      runStub_eq client broker verbose rand answer hresolves htypes
    rw [valueOf, lookup_stubEnv htypes (h _ (by simp [askedOf]))] at haddress hport hwaitsAt
    obtain rfl : StubVal.arg (.str broker.address) = address := Option.some.inj haddress
    obtain rfl : StubVal.arg (.str broker.port) = port := Option.some.inj hport
    obtain rfl : StubVal.arg (.str client.port) = waitsAt := Option.some.inj hwaitsAt
    exact ⟨tokens, htokens, hrun⟩

/-- The stub for `add` makes its call. -/
theorem asks_add : stubCompiles addProto = true ∧ Asks addProto :=
  ⟨by decide, (asks_iff addProto true (by decide)).2.mpr (by decide)⟩

end RpcBroker
