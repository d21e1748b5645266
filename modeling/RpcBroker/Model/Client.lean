import RpcBroker.Model.Common
/-!
# RpcBroker.Model.Client

The **client**: the format string its generated stub contains
(`client/generate_proxy.pl`), and the request that stub packs
(`client/pack_client_request_data.c`).

A stub passes its arguments through C's variadic interface, described by the
format only. `packFmt` is the loop that walks the format and takes one argument
per conversion; the server's response packer has the same loop.
-/

namespace RpcBroker

open CLib Msgpack

/-! ### Types and arguments -/

/-- The types an interface may use. -/
inductive CType
  | int
  | charPtr
  deriving DecidableEq

/-- A type as an interface spells it. -/
def CType.text : CType → CString
  | .int => .lit "int"
  | .charPtr => .lit "char*"

/-- A value of one of these types. -/
inductive Arg
  | int (v : Int32)
  | str (s : CString)
  deriving DecidableEq

def Arg.type : Arg → CType
  | .int _ => .int
  | .str _ => .charPtr

/-! ### The format of a stub -/

/-- The conversion the client generator appends for one token of a parameter
list. -/
def formatOfToken (token : CString) : List UInt8 :=
  (if token = .lit "char*" then (CString.lit "%s").chars else []) ++
    (if token = .lit "int" then (CString.lit "%d").chars else [])

/-- The loop of the client generator over the tokens `@params`: the tokens at
even positions are types. -/
def formatLoop : Nat → List CString → List UInt8
  | _, [] => []
  | i, token :: tokens =>
      (if i % 2 = 0 then formatOfToken token else []) ++ formatLoop (i + 1) tokens

/-- A parameter of a prototype. -/
structure Param where
  type : CType
  name : CString

/-- What `split(' ', $fnParams)` gives for a parameter list: types and names in
turn, each name but the last with its comma. -/
def paramTokens : List Param → List CString
  | [] => []
  | [p] => [p.type.text, p.name]
  | p :: ps =>
      [p.type.text, .ofBytes (p.name.chars ++ (CString.lit ",").chars)] ++ paramTokens ps

/-- `$format` for a parameter list. -/
def stubFormat (params : List Param) : CString :=
  .ofBytes (formatLoop 0 (paramTokens params))

/-! ### Packing by format -/

/-- The character `%`. -/
def percent : UInt8 := 37

/-- The character `d`. -/
def convInt : UInt8 := 100

/-- The character `s`. -/
def convStr : UInt8 := 115

/-- The first loop of `pack_client_request_data`: how many `%` a format has. -/
def numArgs : List UInt8 → Nat
  | [] => 0
  | p :: rest => if p ≠ percent then numArgs rest else numArgs rest + 1

/-- The loop over a format that packs the arguments. It is undefined (`none`)
when an argument is missing or has another type than its conversion, and when
the format ends in `%`: `*++p` is then the terminator, and the loop steps over
it. -/
def packFmt : List UInt8 → List Arg → Option (List Token)
  | [], _ => some []
  | [p], _ => if p ≠ percent then some [] else none
  | p :: conv :: rest, args =>
      if p ≠ percent then packFmt (conv :: rest) args
      else if conv = convInt then
        match args with
        | .int ival :: args => (packFmt rest args).map ([.packInt ival] ++ ·)
        | _ => none
      else if conv = convStr then
        match args with
        | .str sval :: args =>
            (packFmt rest args).map ([.packStr sval.strlen, .packStrBody sval.chars] ++ ·)
        | _ => none
      else packFmt rest args

/-- `pack_client_request_data`: the request of a client at `client` for `op`,
with `rand()` the number drawn as message id. -/
def packClientRequestData (client : Details) (rand : Int32) (op fmt : CString)
    (args : List Arg) : Option (List Token) := do
  let vals ← packFmt fmt.chars args
  return packMapInt Hdr.requestType.text RequestType.serviceRequest.code ++
    packMapInt Hdr.messageId.text rand ++
    packMapStr Hdr.senderAddress.text client.address ++
    packMapStr Hdr.replyPort.text client.port ++
    packMapStr Hdr.operation.text op ++
    [.packMap 1, .packStr 6, .packStrBody (Hdr.serviceParams.text.chars.take 6)] ++
    [.packArray (numArgs fmt.chars)] ++ vals

/-! ### The value a stub returns -/

/-- What a stub returns: an `int`, or the pointer it got for a `char*`. -/
inductive StubResult
  | int (v : Int32)
  | ptr (p : Ptr)
  deriving DecidableEq

/-- The return statement the client generator writes: `get_hdr_int` or
`get_hdr_str` of the header `reply`, by the declared result type. -/
def stubReturn (E : Libs) (ret : CType) (result : E.Buffer) : Except Exit StubResult :=
  match ret with
  | .int => do
      let v ← getHdrInt E result Hdr.reply.text
      return .int v
  | .charPtr => do
      let p ← getHdrStr E result Hdr.reply.text
      return .ptr p

end RpcBroker
