import RpcBroker.Model.Connections
import RpcBroker.Model.Database
/-!
# RpcBroker.Model.Checked

The programs once more, with **all that ends them**. `Model.Broker`, `Model.Server` and
`Model.Client` say what a handler makes of a packet as long as it calls no `exit`. They go
on where the source reads what has no defined value, and do not look at what becomes of a
packet they send. Here a process also ends

* at a header whose name is no string or does not fit the buffer it is copied to,
* at a pointer to no string where a string is printed, compared or connected to,
* at a decoded registration whose array was not stored as it should be, and at a text that
  has no defined output as a format,
* at a `send` that fails.

The loops that depend on such a pointer are written out; every other reader is the one of
`Model.Common`, after the headers it takes apart have been checked (`reading`).

The programs are not verbose. Set aside are the writes every packet causes one byte behind
`key_name` or a copied string (`Model.Buffers`) and those every registration causes behind
`qry` (`Model.Statements`). `netTcpClient` gives a socket, and memory does not run out.
-/

namespace RpcBroker.Checked

open CLib Msgpack

variable (E : Libs)

/-- The string a pointer is taken to point at. -/
def deref : Ptr → Except ProcessEnd CString
  | .str s => .ok s
  | _ => .error .undefined

/-- `STR_Equals`, of strings. -/
def strEquals (p q : Ptr) : Except ProcessEnd Bool := do
  let s ← deref p
  let t ← deref q
  return decide (s = t)

/-- `printf(text)`. -/
def printf (text : List UInt8) : Except ProcessEnd Unit :=
  if (CLib.printed text).isSome then .ok () else .error .undefined

/-! ### Reading headers -/

/-- `extract_header` copies the name to `MAX_HEADER_NAME_SIZE` characters that are NUL, and
there is a terminator afterwards. -/
def NameFits (name : List UInt8) : Prop :=
  name.length ≤ maxHeaderNameSize ∧ (CString.ofBytes name).strlen < maxHeaderNameSize

instance (name : List UInt8) : Decidable (NameFits name) :=
  inferInstanceAs (Decidable (_ ∧ _))

/-- `extract_header`. -/
def extractHeader (obj : Object) : Except ProcessEnd (CString × Object) :=
  match obj with
  | .map [(.str name, val)] =>
      if NameFits name then .ok (.ofBytes name, val) else .error .undefined
  | .map [_] => .error .undefined
  | .map pairs => .error (.exit (.mapCount pairs.length))
  | _ => .error (.exit .notAMap)

/-- A loop over the packet takes its headers apart, until it is left. -/
def takeApart (leaves : CString → Object → Bool) : List Object → Except ProcessEnd Unit
  | [] => .ok ()
  | obj :: objs => do
      let (header_name, val) ← extractHeader obj
      if leaves header_name val then return () else takeApart leaves objs

/-- A reader that returns `result`, if it can take its headers apart. -/
def reading {α : Type} (leaves : CString → Object → Bool) (packet : E.Buffer)
    (result : Except Exit α) : Except ProcessEnd α := do
  takeApart leaves (E.unpack packet).objects
  result.mapError .exit

/-- A loop that goes through all headers. -/
def goesThrough (_header_name : CString) (_val : Object) : Bool := false

/-- A loop that is left at the first string under a name. -/
def leavesAt (look header_name : CString) (val : Object) : Bool :=
  match val with
  | .str _ => E.strEquals (.str look) (.str header_name)
  | _ => false

/-- `get_req_type` takes the first header apart. -/
def getReqType (packet : E.Buffer) : Except ProcessEnd Int32 :=
  reading E (fun _ _ => true) packet (RpcBroker.getReqType E packet)

/-- `get_hdr_int`. -/
def getHdrInt (packet : E.Buffer) (look : CString) : Except ProcessEnd Int32 :=
  reading E goesThrough packet (RpcBroker.getHdrInt E packet look)

/-- `get_hdr_str`. -/
def getHdrStr (packet : E.Buffer) (look : CString) : Except ProcessEnd Ptr :=
  reading E (leavesAt E look) packet (RpcBroker.getHdrStr E packet look)

/-- `get_op_name`. -/
def getOpName (packet : E.Buffer) : Except ProcessEnd Ptr :=
  reading E (leavesAt E (.lit "op")) packet (RpcBroker.getOpName E packet)

/-! ### Sending -/

/-- What the two calls of `send` in `send_data` return. -/
structure SendCounts where
  size : Int32
  data : Int32

/-- What they return one after the other, while a packet is handled. -/
abbrev Sends := Nat → SendCounts

/-- `send_req`: the number of bytes sent. -/
def sendReq (dest : Location) (counts : SendCounts) : Except ProcessEnd Int32 := do
  let _address ← deref dest.address
  let _port ← deref dest.port
  if counts.size < 0 then .error (.netError (.lit "failed to send size\n"))
  else if counts.data < 0 then .error (.netError (.lit "failed to send packed data\n"))
  else return counts.size + counts.data

/-! ### The broker -/

/-- `unpack_service_registration_buffer`. -/
def unpackServiceRegistrationBuffer (packet : E.Buffer) : Except ProcessEnd RegScan := do
  let scan ← reading E goesThrough packet (RpcBroker.unpackServiceRegistrationBuffer E packet)
  if scan.stray then .error .undefined else return scan

/-- The texts `reg_svc_req` makes of a registration, and prints. -/
def printStatements (reg : ServiceReg) : Except ProcessEnd Unit := do
  let service_name ← deref reg.service_name
  let address ← deref reg.address
  let port ← deref reg.port
  printf (sprintf registrationSql
    [.str service_name, .str address, .str port, .int reg.num_services])
  (List.range reg.num_services.toNatClampNeg).forM fun i => do
    let service ← deref (reg.service i)
    printf (sprintf serviceSql [.str service] ++ literals ["\n"])

/-- The loop of `send_svc_req_ack` over its tries. -/
def sendTries (dest : Location) : List SendCounts → Except ProcessEnd Unit
  | [] => .ok ()
  | counts :: tries => do
      let total_sent_bytes ← sendReq dest counts
      if total_sent_bytes = 0 then sendTries dest tries else return ()

/-- `send_svc_req_ack`. -/
def sendSvcReqAck (sends : Sends) (packet : E.Buffer) : Except ProcessEnd (Sent E.Buffer) := do
  let message_id ← getHdrInt E packet Hdr.messageId.text
  let reply_port ← getHdrStr E packet Hdr.replyPort.text
  let sender_address ← getHdrStr E packet Hdr.senderAddress.text
  sendTries ⟨sender_address, reply_port⟩ [sends 0, sends 1, sends 2]
  return ⟨E.pack (packSvcReqAck message_id), ⟨sender_address, reply_port⟩⟩

/-- `reg_svc_req`. -/
def regSvcReq (sends : Sends) (packet : E.Buffer) (config : Config) :
    Except ProcessEnd (Config × Sent E.Buffer) := do
  let scan ← unpackServiceRegistrationBuffer E packet
  printStatements scan.reg
  let ack ← sendSvcReqAck E sends packet
  return ({ config with svc_repo := config.svc_repo ++ [scan.reg] }, ack)

/-- `get_sender_address`. -/
def getSenderAddress (packet : E.Buffer) : Except ProcessEnd Location := do
  let reply_port ← getHdrStr E packet Hdr.replyPort.text
  let sender_address ← getHdrStr E packet Hdr.senderAddress.text
  return ⟨sender_address, reply_port⟩

/-- The inner loop of `find_server_for_req`. -/
def listsService (op_name : Ptr) (sreg_entry : ServiceReg) : List Nat → Except ProcessEnd Bool
  | [] => .ok false
  | i :: is => do
      let equal ← strEquals op_name (sreg_entry.service i)
      if equal then return true else listsService op_name sreg_entry is

/-- The outer loop. -/
def findServerLoop (op_name : Ptr) : List ServiceReg → Except ProcessEnd Location
  | [] => .ok ⟨.null, .null⟩
  | sreg_entry :: rest => do
      let found ← listsService op_name sreg_entry
        (List.range sreg_entry.num_services.toNatClampNeg)
      if found then return ⟨sreg_entry.address, sreg_entry.port⟩
      else findServerLoop op_name rest

/-- `find_server_for_req`. -/
def findServerForReq (packet : E.Buffer) (config : Config) : Except ProcessEnd Location := do
  let op_name ← getOpName E packet
  findServerLoop op_name config.svc_repo

/-- The loop of `find_client_for_response`. The operations are compared only if the message
ids are equal. -/
def findClientLoop (packet : E.Buffer) (dest : Location) :
    List ClientReg → Except ProcessEnd (Location × List ClientReg)
  | [] => .ok (dest, [])
  | crreg_entry :: rest => do
      let message_id ← getHdrInt E packet Hdr.messageId.text
      let requested_operation ← getHdrStr E packet Hdr.operation.text
      let equal ← if message_id = crreg_entry.message_id
        then strEquals requested_operation crreg_entry.operation
        else .ok false
      if equal then return (⟨crreg_entry.address, crreg_entry.port⟩, rest)
      else do
        let (dest, rest) ← findClientLoop packet dest rest
        return (dest, crreg_entry :: rest)

/-- `find_client_for_response`. -/
def findClientForResponse (packet : E.Buffer) (dest : Location) (config : Config) :
    Except ProcessEnd (Location × Config) := do
  let (dest, rest) ← findClientLoop E packet dest config.clnt_req_repo
  return (dest, { config with clnt_req_repo := rest })

/-- `read_data`, from the point where the packet has been received. -/
def readData (sends : Sends) (config : Config) (packet : E.Buffer) :
    Except ProcessEnd (Config × List (Sent E.Buffer)) := do
  let req_type ← getReqType E packet
  if req_type = RequestType.serviceRequest.code then
    let _op ← getHdrStr E packet Hdr.operation.text
    let sender ← getSenderAddress E packet
    let msg_id ← getHdrInt E packet Hdr.messageId.text
    let req_op ← getHdrStr E packet Hdr.operation.text
    let config := regClntReq req_op sender msg_id config
    let dest ← findServerForReq E packet config
    if dest.address = .null ∨ dest.port = .null then
      -- "No registered server available to process request for op ... from host ..."
      let _op ← deref req_op
      let _host ← deref sender.address
      return (config, [])
    else
      let _total ← sendReq dest (sends 0)
      return (config, [⟨packet, dest⟩])
  else if req_type = RequestType.serviceRegistration.code then
    let (config, ack) ← regSvcReq E sends packet config
    return (config, [ack])
  else if req_type = RequestType.serviceRequestResponse.code then
    let (client, config) ← findClientForResponse E packet ⟨.unassigned, .unassigned⟩ config
    let _total ← sendReq client (sends 0)
    return (config, [⟨packet, client⟩])
  else
    return (config, [])

/-- The broker's loop over the packets it receives, each with what `send` returns while it
is handled. -/
def brokerRun (config : Config) (received : List (Sends × E.Buffer)) :
    Except ProcessEnd (Config × List (List (Sent E.Buffer))) :=
  Machine.run (fun config r => readData E r.1 config r.2) config received

/-! ### The processes on their connections -/

/-- A connection, and what `send` returns while it is handled. -/
structure Exchange extends Connection where
  sends : Sends

section Broker

variable (C : ByteCodec) (S : Stulibc)

/-- `process_data_avail`, called in the main thread. -/
def processDataAvail (config : Config) (x : Exchange) :
    Except ProcessEnd (Config × List (Sent (List UInt8))) := do
  let packet ← x.toConnection.receive .readData
  readData (Libs.ofBytes C S) x.sends config packet

/-- One round of `wait_for_connections`. -/
def brokerBody (waitIndef : Bool) (listening_socket : Socket)
    (state : (FdSet × Timeval) × Config) (x : Exchange) :
    Except ProcessEnd (((FdSet × Timeval) × Config) × List (Sent (List UInt8))) := do
  let (waited, isSet) ←
    (waitForConnectionsBody waitIndef listening_socket state.1 x.arrival).mapError .waiting
  if isSet then
    let (config, sents) ← processDataAvail C S state.2 x
    return ((waited, config), sents)
  else
    return ((waited, state.2), [])

/-- The broker, until these connections have been handled. -/
def brokerProcess (waitIndef : Bool) (listening_socket : Socket) (xs : List Exchange) :
    Except ProcessEnd (((FdSet × Timeval) × Config) × List (List (Sent (List UInt8)))) :=
  Machine.run (brokerBody C S waitIndef listening_socket) ((fdZero, idleTimeout), .init) xs

end Broker

section Server

variable (C : ByteCodec) (S : Stulibc) (program : ServerProgram) (broker : Details)

/-- The blocks of `call_marshelResponse_send`. Each compares the operation first. -/
def callBlocks (call : Call) : List Proto → Except ProcessEnd (List (Sent E.Buffer))
  | [] => .ok []
  | proto :: protos => do
      let _equal ← strEquals call.operation (.str proto.name)
      match stubBlock E program call proto with
      | none => .error .undefined
      | some block => do
          let rest ← callBlocks call protos
          return block ++ rest

/-- The calls, one after the other. -/
def answerCalls : List Call → Except ProcessEnd (List (Sent E.Buffer))
  | [] => .ok []
  | call :: calls => do
      let sents ← callBlocks E program call program.protos
      let rest ← answerCalls calls
      return sents ++ rest

/-- What the blocks hand to `send_req`, one after the other. -/
def sendAll {Buffer : Type} : List (Sent Buffer) → Sends → Except ProcessEnd Unit
  | [], _ => .ok ()
  | sent :: sents, sends => do
      let _total ← sendReq sent.dest (sends 0)
      sendAll sents fun k => sends (k + 1)

/-- `unpack_marshal_call_send`. -/
def marshalCallSend (sends : Sends) (packet : List UInt8) :
    Except ProcessEnd (List (Sent (List UInt8))) := do
  let calls ← reading (Libs.ofBytes C S) goesThrough packet
    (unpackMarshalCallSend (Libs.ofBytes C S) packet broker)
  let sents ← answerCalls (Libs.ofBytes C S) program calls
  sendAll sents sends
  return sents

/-- `thread_server`. -/
def threadServer :
    Workers.Job Bool Exchange (Int32 × Sends × List UInt8) (Option (Sends × List UInt8))
      (List (Sent (List UInt8))) ProcessEnd where
  prepare x := do
    let packet ← x.toConnection.receive .readAndProcessDataOnSocket
    let request_type ← getReqType (Libs.ofBytes C S) packet
    return (request_type, x.sends, packet)
  access isRegistered decoded :=
    if decoded.1 = RequestType.serviceRegistrationAck.code then (true, none)
    else if decoded.1 = RequestType.serviceRequest.code && isRegistered then
      (isRegistered, some decoded.2)
    else (isRegistered, none)
  finish
    | some (sends, packet) => marshalCallSend C S program broker sends packet
    | none => .ok []

/-- A state of the server: its threads, and the connections nobody has accepted. -/
abbrev ServerPool :=
  Workers.Pool Bool Exchange (Int32 × Sends × List UInt8) (Option (Sends × List UInt8))
    (List (Sent (List UInt8)))

end Server

section Client

variable (C : ByteCodec) (S : Stulibc)

/-- The return statement of a stub. -/
def stubReturn (ret : CType) (result : E.Buffer) : Except ProcessEnd StubResult :=
  match ret with
  | .int => do
      let v ← getHdrInt E result Hdr.reply.text
      return .int v
  | .charPtr => do
      let p ← getHdrStr E result Hdr.reply.text
      return .ptr p

/-- What the stub of a function of result type `ret` returns after its wait. -/
def stubReply (ret : CType) (wait_response_indef : Bool) (s : Socket) (c : Connection) :
    Except ProcessEnd StubResult := do
  let result ← waitForResponse wait_response_indef s c
  stubReturn (Libs.ofBytes C S) ret result

end Client

end RpcBroker.Checked
