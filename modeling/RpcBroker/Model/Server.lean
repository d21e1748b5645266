import RpcBroker.Model.Client
/-!
# RpcBroker.Model.Server

The **server**: its registration message, the loop that takes a request apart
and makes the call (`server/unpack_marshal_call.c`), the stub the server
generator writes, and the response.
-/

namespace RpcBroker

open CLib Msgpack

variable (E : Libs)

/-! ### Registering -/

/-- `services[i]` for a NULL-terminated table. -/
def tableEntry (services : List CString) (i : Nat) : Ptr :=
  match services[i]? with
  | some s => .str s
  | none => .null

/-- One round of the packing loop: entries that are null or empty are skipped. -/
def packService (entry : Ptr) : List Token :=
  match entry with
  | .str s =>
      if E.strIsNullOrEmpty entry then []
      else [.packStr s.strlen, .packStrBody s.chars]
  | _ => []

/-- `while (i >= 0) { ...; i--; }`, started at the terminator. -/
def packServicesLoop (services : List CString) : Nat → List Token
  | 0 => packService E (tableEntry services 0)
  | i + 1 => packService E (tableEntry services (i + 1)) ++ packServicesLoop services i

/-- `service_register_with_broker`: the message of a server at `server` with
the table `services`. The table is counted in an `int`; one it cannot count is
undefined (`none`). -/
def serviceRegisterWithBroker (server : Details) (services : List CString) :
    Option (List Token) :=
  if services.length < 0x80000000 then
    some (packMapInt Hdr.requestType.text RequestType.serviceRegistration.code ++
      packMapStr Hdr.senderAddress.text server.address ++
      packMapStr Hdr.replyPort.text server.port ++
      packMapStr Hdr.serviceName.text (.lit "theServiceName") ++
      packMapInt Hdr.servicesCount.text (Int32.ofNat services.length) ++
      [.packMap 1, .packStr 8, .packStrBody (Hdr.services.text.chars.take 8)] ++
      [.packArray services.length] ++
      packServicesLoop E services services.length)
  else none

/-! ### Responding -/

/-- `pack_client_response_data`: the response for `op` with the result
`results` described by `fmt`. -/
def packClientResponseData (op : CString) (message_id : Int32) (fmt : CString)
    (results : List Arg) : Option (List Token) := do
  let vals ← packFmt fmt.chars results
  return packMapInt Hdr.requestType.text RequestType.serviceRequestResponse.code ++
    packMapInt Hdr.messageId.text message_id ++
    packMapStr Hdr.operation.text op ++
    [.packMap 1, .packStr 5, .packStrBody (Hdr.reply.text.chars.take 5)] ++ vals

/-! ### Unpacking a request and making the call -/

/-- An entry of the array `params`: null from `calloc`, a copied string, or the
64-bit number stored for an integer. -/
inductive ParamPtr
  | null
  | str (s : CString)
  | int (v : Int64)
  deriving DecidableEq

/-- The entry made for one element of the array of arguments. -/
def ParamPtr.ofObject : Object → ParamPtr
  | .str bytes => .str (.ofBytes bytes)
  | .positiveInteger u => .int u.toInt64
  | _ => .null

/-- One call of `call_marshelResponse_send`. `message_id` is `none` if the
variable was not assigned before. -/
structure Call where
  message_id : Option Int32
  operation : Ptr
  broker : Details
  params : List ParamPtr
  deriving DecidableEq

/-- The loop of `unpack_marshal_call_send`: `message_id` and `ptrOperation` keep
their values from one header to the next, and every array makes a call. -/
def unpackMarshalLoop (brokerDetails : Details) :
    List Object → Option Int32 → Ptr → Except Exit (List Call)
  | [], _, _ => .ok []
  | obj :: objs, message_id, ptrOperation => do
      let (header_name, val) ← extractHeader E obj
      match val with
      | .str bytes =>
          if E.strEquals (.str Hdr.operation.text) (.str header_name) then
            unpackMarshalLoop brokerDetails objs message_id (.str (.ofBytes bytes))
          else unpackMarshalLoop brokerDetails objs message_id ptrOperation
      | .positiveInteger u =>
          if E.strEquals (.str Hdr.messageId.text) (.str header_name) then
            unpackMarshalLoop brokerDetails objs (some (intOfWord u)) ptrOperation
          else unpackMarshalLoop brokerDetails objs message_id ptrOperation
      | .array elems => do
          let calls ← unpackMarshalLoop brokerDetails objs message_id ptrOperation
          return ⟨message_id, ptrOperation, brokerDetails, elems.map .ofObject⟩ :: calls
      | _ => unpackMarshalLoop brokerDetails objs message_id ptrOperation

/-- `unpack_marshal_call_send`: the calls it makes, in order. -/
def unpackMarshalCallSend (packet : E.Buffer) (brokerDetails : Details) :
    Except Exit (List Call) :=
  unpackMarshalLoop E brokerDetails (E.unpack packet).objects none .unassigned

/-! ### The generated stub -/

/-- The server's reading of an entry at its declared type: `*(int*) params[i]`
takes the low half of the stored number, `(char*) params[i]` the pointer. Any
other combination has no defined value. -/
def ParamPtr.read : CType → ParamPtr → Option Arg
  | .int, .int v => some (.int v.toInt32)
  | .charPtr, .str s => some (.str s)
  | _, _ => none

/-- A prototype of the interface, as the stub uses it. -/
structure Proto where
  ret : CType
  name : CString
  params : List CType

/-- The conversion of the response format: `%d` or `%s` by the result type. -/
def responseFormat : CType → CString
  | .int => .lit "%d"
  | .charPtr => .lit "%s"

/-- A server program: the interface it was built from, in which every function
has its own name, and what its functions return. -/
structure ServerProgram where
  protos : List Proto
  distinct : (protos.map Proto.name).Nodup
  result : CString → List Arg → Arg

/-- The reads `params[0]`, `params[1]`, ... of a stub. An entry behind the end
of the array has no defined value. -/
def readParams : List CType → List ParamPtr → Option (List Arg)
  | [], _ => some []
  | _ :: _, [] => none
  | t :: ts, p :: ps => do
      let a ← p.read t
      let as ← readParams ts ps
      return a :: as

/-- The block the generator writes for one prototype: compare the operation,
read the arguments, call the function, pack the response and send it. -/
def stubBlock (program : ServerProgram) (call : Call) (proto : Proto) :
    Option (List (Sent E.Buffer)) :=
  if E.strEquals call.operation (.str proto.name) then do
    let args ← readParams proto.params call.params
    let op ← call.operation.string?
    let message_id ← call.message_id
    let response ← packClientResponseData op message_id (responseFormat proto.ret)
      [program.result proto.name args]
    return [⟨E.pack response, call.broker.location⟩]
  else some []

/-- `call_marshelResponse_send`: one block after the other. `none` if a block
reads what has no defined value. -/
def callMarshelResponseSend (program : ServerProgram) (call : Call) :
    Option (List (Sent E.Buffer)) := do
  let sents ← program.protos.mapM (stubBlock E program call)
  return sents.flatten

/-! ### Receiving -/

/-- `ReadAndProcessDataOnSocket`, from the point where the packet has been
received: what the static variable `isRegistered` holds afterwards, and what is
sent. `none` if a stub reads what has no defined value. -/
def readAndProcessDataOnSocket (program : ServerProgram) (broker : Details)
    (isRegistered : Bool) (packet : E.Buffer) :
    Except Exit (Option (Bool × List (Sent E.Buffer))) := do
  let request_type ← getReqType E packet
  if request_type = RequestType.serviceRegistrationAck.code then
    return some (true, [])
  else if request_type = RequestType.serviceRequest.code && isRegistered then
    let calls ← unpackMarshalCallSend E packet broker
    return do
      let sents ← calls.mapM (callMarshelResponseSend E program)
      some (isRegistered, sents.flatten)
  else
    return some (isRegistered, [])

/-- The branches `ReadAndProcessDataOnSocket` ends in. -/
inductive Branch
  /-- "Registered with broker." -/
  | registered
  /-- The packet is passed to `unpack_marshal_call_send`. -/
  | marshalCall
  /-- "Not registered yet - waiting for registration ACK from broker" -/
  | notRegistered
  /-- "unknown message received from broker" -/
  | unknown
  deriving DecidableEq

/-- The branch taken, and what `isRegistered` holds afterwards. -/
def processBranch (isRegistered : Bool) (packet : E.Buffer) : Except Exit (Bool × Branch) := do
  let request_type ← getReqType E packet
  if request_type = RequestType.serviceRegistrationAck.code then
    return (true, .registered)
  else if request_type = RequestType.serviceRequest.code && isRegistered then
    return (isRegistered, .marshalCall)
  else
    return (isRegistered, if !isRegistered then .notRegistered else .unknown)

end RpcBroker
