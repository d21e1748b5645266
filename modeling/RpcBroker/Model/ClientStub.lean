import RpcBroker.Lib.CFunction
import RpcBroker.Model.Proxies
/-!
# RpcBroker.Model.ClientStub

**The C code the client's generator writes for one function**: what it looks like
(`stubFunction`; `stubText` is what the script prints), whether it compiles
(`stubCompiles`), and what it does when it is called (`runStub`).

The stub keeps the parameters of the interface under the names they have there, next to
its own variables and the variables of the client program it uses, which
`client-proxy.c` declares as `extern`.
-/

namespace RpcBroker

open CLib Msgpack Perl CBlock CFunction

/-! ### The stub -/

/-- `pack_client_request_data( &sbuf, (char*)__func__, "format",a1,...,an)`. -/
def packCall (proto : Prototype) : CFunction.Call where
  fn := text "pack_client_request_data"
  args := [(text "( ", .addr (text "sbuf")), (text ", ", .funcName),
    (text ", ", .str (stubFormat (proto.params.map declared)).chars)] ++
      proto.params.map fun param => (text ",", .var param.2.chars)
  close := text ")"

/-- `send_and_receive( &pkt, broker_address, ... )`. -/
def askCall : CFunction.Call where
  fn := text "send_and_receive"
  args := [(text "( ", .addr (text "pkt")), (text ", ", .var (text "broker_address")),
    (text ", ", .var (text "broker_port")), (text ", ", .var (text "verbose")),
    (text ", ", .var (text "wait_response_port"))]
  close := text " )"

/-- `msgpack_sbuffer_destroy(&sbuf)`. -/
def destroyCall : CFunction.Call where
  fn := text "msgpack_sbuffer_destroy"
  args := [(text "(", .addr (text "sbuf"))]
  close := text ")"

/-- The function that reads the result. -/
def replyReader : CType → Text
  | .int => text "get_hdr_int"
  | .charPtr => text "get_hdr_str"

/-- `get_hdr_int(result, REPLY_HDR)`. -/
def replyCall (ret : CType) : CFunction.Call where
  fn := replyReader ret
  args := [(text "(", .var (text "result")), (text ", ", .const (text "REPLY_HDR"))]
  close := text ")"

/-- The stub, line by line. -/
def stubFunction (proto : Prototype) : Function where
  ret := proto.ret.cTy
  name := proto.name.chars
  params := proto.params.map fun param => (param.1.cTy, param.2.chars)
  lines := [[.decl (text "msgpack_sbuffer") (text "sbuf")], [.call (packCall proto)],
    [.decl (text "Packet") (text "pkt"),
      .copy (text "pkt") (text "buffer") (text "sbuf") (text "data"),
      .copy (text "pkt") (text "len") (text "sbuf") (text "size")],
    [.declPtr (text "Packet") (text "result") askCall], [.call destroyCall],
    [.ret (replyCall proto.ret)]]

/-! ### Its text -/

def argText : CFunction.Arg → Text
  | .var x => x
  | .addr x => text "&" ++ x
  | .str s => text "\"" ++ s ++ text "\""
  | .funcName => text "(char*)__func__"
  | .const x => x

def callText (c : CFunction.Call) : Text :=
  c.fn ++ c.args.flatMap (fun arg => arg.1 ++ argText arg.2) ++ c.close

def lineStmtText : CFunction.Stmt → Text
  | .decl type x => type ++ text " " ++ x ++ text ";"
  | .call c => callText c ++ text ";"
  | .copy x m y n => x ++ text "." ++ m ++ text " = " ++ y ++ text "." ++ n ++ text ";"
  | .declPtr type x c => type ++ text " *" ++ x ++ text " = " ++ callText c ++ text ";"
  | .ret c => text "return  " ++ callText c ++ text ";"

/-- A line of a stub. -/
def stubLine (stmts : List CFunction.Stmt) : Text :=
  text "    " ++ join (text " ") (stmts.map lineStmtText) ++ text "\n"

/-- The stub as it is written, with its parameters as the interface writes them. -/
def stubText (proto : Prototype) : Text :=
  proto.ret.text.chars ++ text " " ++ proto.name.chars ++ text "( " ++ proto.paramsText ++
    text " )\n\x7b\n\n" ++ join (text "\n") ((stubFunction proto).lines.map stubLine) ++
    text "\x7d\n\n"

/-! ### Compiling it -/

/-- What the headers declare of the names a stub uses. -/
def stubHeaderScope : Scope :=
  [(text "pack_client_request_data",
      .func [.ptrTo (text "msgpack_sbuffer"), .charPtr, .charPtr] true .charPtr),
    (text "send_and_receive",
      .func [.ptrTo (text "Packet"), .charPtr, .charPtr, .bool, .charPtr] false
        (.ptrTo (text "Packet"))),
    (text "msgpack_sbuffer_destroy", .func [.ptrTo (text "msgpack_sbuffer")] false .void),
    (text "get_hdr_int", .func [.ptrTo (text "Packet"), .charPtr] false .int),
    (text "get_hdr_str", .func [.ptrTo (text "Packet"), .charPtr] false .charPtr),
    (text "msgpack_sbuffer", .typedef), (text "Packet", .typedef)]

/-- The variables `client-proxy.c` declares. -/
def stubGlobals : Scope :=
  [(text "broker_address", .var .charPtr), (text "broker_port", .var .charPtr),
    (text "verbose", .var .bool), (text "wait_response_port", .var .charPtr)]

/-- The members a stub copies. -/
def stubMembers : Members := fun type m =>
  if type = text "Packet" ∧ m = text "buffer" then some .charPtr
  else if type = text "Packet" ∧ m = text "len" then some .int
  else if type = text "msgpack_sbuffer" ∧ m = text "data" then some .charPtr
  else if type = text "msgpack_sbuffer" ∧ m = text "size" then some .int
  else none

/-- The stub for the prototype compiles: its names are no keywords, its own name clashes
with none the file has, and the function compiles there. -/
def stubCompiles (proto : Prototype) : Bool :=
  !keywords.contains proto.name.chars &&
    proto.params.all (fun param => !keywords.contains param.2.chars) &&
    !((stubGlobals ++ stubHeaderScope).map Prod.fst).contains proto.name.chars &&
    (stubFunction proto).check stubMembers
      ((proto.name.chars, proto.entity) :: (stubGlobals ++ stubHeaderScope))

/-! ### Running it -/

/-- What the variables of a stub hold; `B` are packets. -/
inductive StubVal (B : Type)
  | unit
  | bool (b : Bool)
  | arg (a : Arg)
  /-- A `msgpack_sbuffer`, by what was packed into it. -/
  | sbuffer (packed : Option (List Token))
  | data (packed : List Token)
  | size (packed : List Token)
  /-- A `Packet`, by the buffers its members are from. -/
  | packet (buffer len : Option (List Token))
  | ref (v : StubVal B)
  /-- The packet that came back. -/
  | received (packet : B)
  /-- The result of one of the readers. -/
  | read (r : Except Exit StubResult)

/-- A pointer to a string. -/
def StubVal.string? {B : Type} : StubVal B → Option CString
  | .arg (.str s) => some s
  | _ => none

/-- A number, or a pointer to a string. -/
def StubVal.arg? {B : Type} : StubVal B → Option Arg
  | .arg a => some a
  | _ => none

/-- A value as a `bool`. -/
def StubVal.truth {B : Type} : StubVal B → Option Bool
  | .bool b => some b
  | .arg (.int v) => some (v ≠ 0)
  | .arg (.str _) => some true
  | _ => none

/-- What `send_and_receive` is asked to do: send a packet somewhere, and wait for the
answer at a port. -/
structure Asked where
  tokens : List Token
  address : CString
  port : CString
  waitsAt : CString

section Run

variable (E : Libs)

/-- `pack_client_request_data`, in a client at `client`. -/
def runPackRequest (client : Details) (rand : Int32) :
    List (StubVal E.Buffer) → Option (StubVal E.Buffer × List (StubVal E.Buffer) × List Asked)
  | .ref (.sbuffer _) :: op :: fmt :: vs => do
      let tokens ← packClientRequestData client rand (← op.string?) (← fmt.string?)
        (← vs.mapM StubVal.arg?)
      return (.unit, [.sbuffer (some tokens)], [])
  | _ => none

/-- `send_and_receive`, where `answer` comes back. The length must be that of the
buffer. -/
def runAsk (answer : E.Buffer) :
    List (StubVal E.Buffer) → Option (StubVal E.Buffer × List (StubVal E.Buffer) × List Asked)
  | [.ref (.packet (some tokens) (some len)), address, port, verbose, waitsAt] => do
      let _ ← verbose.truth
      let asked := ⟨tokens, ← address.string?, ← port.string?, ← waitsAt.string?⟩
      if len = tokens then
        return (.received answer, [.packet (some tokens) (some len)], [asked])
      else none
  | _ => none

/-- `msgpack_sbuffer_destroy`. -/
def runDestroySbuffer :
    List (StubVal E.Buffer) → Option (StubVal E.Buffer × List (StubVal E.Buffer) × List Asked)
  | [.ref (.sbuffer _)] => some (.unit, [.sbuffer none], [])
  | _ => none

/-- `get_hdr_int` and `get_hdr_str`. -/
def runReader (ret : CType) :
    List (StubVal E.Buffer) → Option (StubVal E.Buffer × List (StubVal E.Buffer) × List Asked)
  | [.received packet, look] => do
      let look ← look.string?
      return (.read (match ret with
        | .int => (getHdrInt E packet look).map .int
        | .charPtr => (getHdrStr E packet look).map .ptr), [], [])
  | _ => none

/-- What a stub runs on. -/
def stubHost (client : Details) (rand : Int32) (answer : E.Buffer) :
    CFunction.Runtime (StubVal E.Buffer) Asked where
  str s := .arg (.str (.ofBytes s))
  addr := .ref
  const x := .arg (.str (if x = text "REPLY_HDR" then Hdr.reply.text else .empty))
  fresh type :=
    if type = text "msgpack_sbuffer" then some (.sbuffer none)
    else if type = text "Packet" then some (.packet none none)
    else none
  member m
    | .sbuffer (some packed) =>
        if m = text "data" then some (.data packed)
        else if m = text "size" then some (.size packed)
        else none
    | _ => none
  assign m
    | .packet _ len, .data packed =>
        if m = text "buffer" then some (.packet (some packed) len) else none
    | .packet buffer _, .size packed =>
        if m = text "len" then some (.packet buffer (some packed)) else none
    | _, _ => none
  fn g vs :=
    if g = text "pack_client_request_data" then runPackRequest E client rand vs
    else if g = text "send_and_receive" then runAsk E answer vs
    else if g = text "msgpack_sbuffer_destroy" then runDestroySbuffer E vs
    else if g = text "get_hdr_int" then runReader E .int vs
    else if g = text "get_hdr_str" then runReader E .charPtr vs
    else none

/-- The variables of a client program. -/
def clientEnv (client broker : Details) (verbose : Bool) : Env (StubVal E.Buffer) :=
  [(text "broker_address", some (.arg (.str broker.address))),
    (text "broker_port", some (.arg (.str broker.port))), (text "verbose", some (.bool verbose)),
    (text "wait_response_port", some (.arg (.str client.port)))]

/-- A call of the stub: what it returns, and what it asks for. -/
def runStub (proto : Prototype) (client broker : Details) (verbose : Bool) (rand : Int32)
    (answer : E.Buffer) (args : List Arg) :
    Option (Option (StubVal E.Buffer) × List Asked) :=
  (stubFunction proto).run (stubHost E client rand answer) (clientEnv E client broker verbose)
    (args.map .arg)

end Run

end RpcBroker
