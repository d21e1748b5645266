import RpcBroker.Lib.CBlock
import RpcBroker.Model.Generators
/-!
# RpcBroker.Model.ServerBlock

**The C code the server's generator writes for one function**, as a block inside
`call_marshelResponse_send`: what it looks like as a tree (`serverBlock`; the text
of the tree is what the script prints), whether it compiles (`compiles`), and what
it does when it is run (`runServerBlock`).

The parameters of the function become variables of the block, under the names the
interface gives them, next to the names the block itself uses.
-/

namespace RpcBroker

open CLib Msgpack Perl CBlock

/-! ### The text of a block -/

/-- A type as it is written. -/
def cTypeText : CTy → Text
  | .void => text "void"
  | .int => text "int"
  | .bool => text "bool"
  | .charPtr => text "char*"
  | .charPtrPtr => text "char**"
  | .named x => x
  | .ptrTo x => x ++ text "*"

mutual

def exprText : Expr → Text
  | .var x => x
  | .addr x => text "&" ++ x
  | .str s => text "\"" ++ s ++ text "\""
  | .intAt x i => text "*(int*) " ++ x ++ text "[" ++ number i ++ text "]"
  | .strAt x i => text "(char*) " ++ x ++ text "[" ++ number i ++ text "]"
  | .call g sep args => g ++ text "(" ++ exprsText sep args ++ text ")"

def exprsText (sep : Text) : List Expr → Text
  | [] => []
  | [e] => exprText e
  | e :: es => exprText e ++ sep ++ exprsText sep es

end

/-- A statement, at the depth of the block's body. -/
def stmtText : Stmt → Text
  | .blank => text "\n"
  | .decl type x none => text "\t\t" ++ cTypeText type ++ text " " ++ x ++ text ";\n"
  | .decl type x (some e) =>
      text "\t\t" ++ cTypeText type ++ text " " ++ x ++ text " = " ++ exprText e ++ text ";\n"
  | .expr e => text "\t\t" ++ exprText e ++ text ";\n"
  | .ifExpr cond body =>
      text "\t\tif (" ++ exprText cond ++ text ")\n\t\t\t" ++ exprText body ++ text ";\n"

def blockText (block : Block) : Text :=
  text "\tif (" ++ exprText block.cond ++ text ") \x7b\n" ++ block.body.flatMap stmtText ++
    text "\t\x7d\n"

/-! ### The block of a function -/

/-- A type of the interface. -/
def CType.cTy : CType → CTy
  | .int => .int
  | .charPtr => .charPtr

/-- `*(int*) params[i]` or `(char*) params[i]`. -/
def readExpr : CType → Nat → Expr
  | .int, i => .intAt (text "params") i
  | .charPtr, i => .strAt (text "params") i

/-- The declaration of a parameter. -/
def readDecl (param : CType × Identifier) (i : Nat) : Decl :=
  ⟨param.1.cTy, param.2.chars, readExpr param.1 i⟩

/-- The declarations of the parameters from the `i`-th on. -/
def readDecls : List (CType × Identifier) → Nat → List Decl
  | [], _ => []
  | param :: params, i => readDecl param i :: readDecls params (i + 1)

/-- `f(a1,...,an)`. -/
def Prototype.callExpr (proto : Prototype) : Expr :=
  .call proto.name.chars (text ",") (proto.params.map fun param => .var param.2.chars)

/-- The declaration of `pkt`. -/
def packStmt (proto : Prototype) : Stmt :=
  .decl (.named (text "Packet")) (text "pkt")
    (some (.call (text "pack_client_response_data") (text ", ")
      [.addr (text "response"), .var (text "operation"), .var (text "message_id"),
        .str (responseConv proto.ret.text.chars), proto.callExpr]))

/-- The statements that send it. -/
def sendStmts : List Stmt :=
  [.ifExpr (.var (text "verbose"))
      (.call (text "unpack_data") (text ", ") [.addr (text "pkt"), .var (text "verbose")]),
    .blank,
    .expr (.call (text "send_req") (text ", ")
      [.addr (text "pkt"), .var (text "broker_address"), .var (text "broker_port"),
        .var (text "verbose")]),
    .expr (.call (text "msgpack_sbuffer_destroy") (text ", ") [.addr (text "response")])]

/-- What comes behind the parameters. -/
def respondStmts (proto : Prototype) : List Stmt := .blank :: packStmt proto :: sendStmts

/-- The block. -/
def serverBlock (proto : Prototype) : Block where
  cond := .call (text "STR_Equals") (text ", ") [.var (text "operation"), .str proto.name.chars]
  body := .decl (.named (text "msgpack_sbuffer")) (text "response") none ::
    ((readDecls proto.params 0).map Decl.stmt ++ respondStmts proto)

/-! ### Compiling it -/

/-- The parameters of `call_marshelResponse_send`. -/
def functionScope : Scope :=
  [(text "message_id", .var .int), (text "operation", .var .charPtr),
    (text "broker_address", .var .charPtr), (text "broker_port", .var .charPtr),
    (text "verbose", .var .bool), (text "params", .var .charPtrPtr)]

/-- What the headers declare of the names a block uses. -/
def headerScope : Scope :=
  [(text "STR_Equals", .func [.charPtr, .charPtr] false .bool),
    (text "pack_client_response_data",
      .func [.ptrTo (text "msgpack_sbuffer"), .charPtr, .int, .charPtr] true
        (.named (text "Packet"))),
    (text "unpack_data", .func [.ptrTo (text "Packet"), .bool] false .void),
    (text "send_req", .func [.ptrTo (text "Packet"), .charPtr, .charPtr, .bool] false .int),
    (text "msgpack_sbuffer_destroy", .func [.ptrTo (text "msgpack_sbuffer")] false .void),
    (text "msgpack_sbuffer", .typedef), (text "Packet", .typedef)]

/-- The interface's function. -/
def Prototype.entity (proto : Prototype) : Entity :=
  .func (proto.params.map fun param => param.1.cTy) false proto.ret.cTy

/-- The keywords of C, with the names of `<stdbool.h>`. -/
def keywords : List Text :=
  [text "_Alignas", text "_Alignof", text "_Atomic", text "_Bool", text "_Complex",
    text "_Generic", text "_Imaginary", text "_Noreturn", text "_Static_assert",
    text "_Thread_local", text "bool", text "true", text "false", text "auto", text "break",
    text "case", text "char", text "const", text "continue", text "default", text "do", text "double", text "else", text "enum", text "extern",
    text "float", text "for", text "goto", text "if", text "inline", text "int", text "long",
    text "register", text "restrict", text "return", text "short", text "signed", text "sizeof",
    text "static", text "struct", text "switch", text "typedef", text "union", text "unsigned",
    text "void", text "volatile", text "while"]

/-- The generated code for the prototype compiles: its names are no keywords, its
function does not clash with the headers or with the generated function, and the
block compiles where it stands. Of other macros nothing is known here: a name is
the identifier the compiler sees. -/
def compiles (proto : Prototype) : Bool :=
  !keywords.contains proto.name.chars &&
    proto.params.all (fun param => !keywords.contains param.2.chars) &&
    !((text "call_marshelResponse_send" :: headerScope.map Prod.fst).contains proto.name.chars) &&
    (serverBlock proto).check
      (functionScope ++ (proto.name.chars, proto.entity) :: headerScope)

/-! ### Running it -/

/-- What the variables of a block hold. -/
inductive CVal
  | unit
  | int (v : Int32)
  | bool (b : Bool)
  | ptr (p : Ptr)
  /-- The array `params`. -/
  | ptrs (ps : List ParamPtr)
  /-- A `msgpack_sbuffer`. -/
  | sbuffer
  /-- A `Packet`, by what was packed into its buffer. -/
  | packet (tokens : List Token)
  /-- A pointer to a variable that holds this. -/
  | ref (v : CVal)

/-- An argument of the interface's function. -/
def CVal.ofArg : Arg → CVal
  | .int v => .int v
  | .str s => .ptr (.str s)

def CVal.arg? : CVal → Option Arg
  | .int v => some (.int v)
  | .ptr (.str s) => some (.str s)
  | _ => none

/-- A value as a condition, and as a `bool`. A pointer nobody assigned is neither. -/
def CVal.truth : CVal → Option Bool
  | .int v => some (v ≠ 0)
  | .bool b => some b
  | .ptr .null => some false
  | .ptr (.str _) => some true
  | _ => none

/-- Reading `params[i]` at a type. What a character reads as a pointer has no
defined value. -/
def CVal.paramAt (t : CType) : CVal → Nat → Option CVal
  | .ptrs ps, i => (ps[i]?.bind (·.read t)).map .ofArg
  | _, _ => none

variable (E : Libs)

/-- `STR_Equals`. -/
def runStrEquals : List CVal → Option (CVal × List (List Token × Location))
  | [.ptr p, .ptr q] => some (.bool (E.strEquals p q), [])
  | _ => none

/-- `pack_client_response_data`, with one value behind the format. -/
def runPackResponse : List CVal → Option (CVal × List (List Token × Location))
  | [.ref .sbuffer, .ptr op, .int message_id, .ptr fmt, v] => do
      let tokens ← packClientResponseData (← op.string?) message_id (← fmt.string?) [← v.arg?]
      return (.packet tokens, [])
  | _ => none

/-- `unpack_data`, which prints. -/
def runUnpackData : List CVal → Option (CVal × List (List Token × Location))
  | [.ref (.packet _), verbose] => do
      let _ ← verbose.truth
      return (.unit, [])
  | _ => none

/-- `send_req`: the packet goes out. -/
def runSendReq : List CVal → Option (CVal × List (List Token × Location))
  | [.ref (.packet tokens), .ptr address, .ptr port, verbose] => do
      let _ ← verbose.truth
      return (.unit, [(tokens, ⟨address, port⟩)])
  | _ => none

/-- `msgpack_sbuffer_destroy`. -/
def runDestroy : List CVal → Option (CVal × List (List Token × Location))
  | [.ref .sbuffer] => some (.unit, [])
  | _ => none

/-- What the block runs on: the interface's function returns `result`. -/
def blockHost (proto : Prototype) (result : List Arg → Arg) :
    Runtime CVal (List Token × Location) where
  str s := .ptr (.str (.ofBytes s))
  addr := .ref
  intAt := CVal.paramAt .int
  strAt := CVal.paramAt .charPtr
  truth := CVal.truth
  fresh
    | .named x => if x = text "msgpack_sbuffer" then some .sbuffer else none
    | _ => none
  fn g vs :=
    if g = proto.name.chars then (vs.mapM CVal.arg?).map fun args => (.ofArg (result args), [])
    else if g = text "STR_Equals" then runStrEquals E vs
    else if g = text "pack_client_response_data" then runPackResponse vs
    else if g = text "unpack_data" then runUnpackData vs
    else if g = text "send_req" then runSendReq vs
    else if g = text "msgpack_sbuffer_destroy" then runDestroy vs
    else none

/-- The parameters of `call_marshelResponse_send` in a call of it. -/
def callEnv (message_id : Int32) (operation : CString) (broker : Details) (verbose : Bool)
    (params : List ParamPtr) : Env CVal :=
  [(text "message_id", some (.int message_id)), (text "operation", some (.ptr (.str operation))),
    (text "broker_address", some (.ptr (.str broker.address))),
    (text "broker_port", some (.ptr (.str broker.port))),
    (text "verbose", some (.bool verbose)), (text "params", some (.ptrs params))]

/-- The block in a call of `call_marshelResponse_send`: what it sends, and where. -/
def runServerBlock (proto : Prototype) (result : List Arg → Arg) (message_id : Int32)
    (operation : CString) (broker : Details) (verbose : Bool) (params : List ParamPtr) :
    Option (List (List Token × Location)) :=
  (serverBlock proto).run (blockHost E proto result)
    (callEnv message_id operation broker verbose params)

end RpcBroker
