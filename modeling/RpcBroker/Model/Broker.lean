import Mathlib.Logic.Function.Basic
import RpcBroker.Lib.Machine
import RpcBroker.Model.Common
/-!
# RpcBroker.Model.Broker

The **broker**: its two repositories and `read_data`, the handler of a packet
(`broker/broker.c` and the files beside it).

`readData` takes the repositories and a packet to the new repositories and the
packets it hands to `send_req`, in order. A packet on which a reader calls
`exit(1)` ends the broker. The registration is also written to a database, which
no other function reads (`RpcBroker.Model.Database`).

Reading memory nobody assigned does not stop the model: such a pointer is the
value `Ptr.unassigned`, it is not `NULL`, and comparing it with a string gives
whatever `E.strEquals` gives. A store outside the array `services` is recorded
in `RegScan.stray`, and so is an element read as a string that is none. What of all
this the process does not survive is in `RpcBroker.Model.Checked`.
-/

namespace RpcBroker

open CLib Msgpack

variable (E : Libs)

/-- The broker's repositories (`Config`). -/
structure Config where
  svc_repo : List ServiceReg
  clnt_req_repo : List ClientReg

/-- The repositories the broker starts with. -/
def Config.init : Config := ⟨[], []⟩

/-! ### Decoding a registration -/

/-- What the decoder has built so far; `stray` records that some store to
`services[i]` fell outside the allocation, or that an element was read as a string
that is none. -/
structure RegScan where
  reg : ServiceReg
  stray : Bool

/-- The record as `malloc` leaves it, with `num_services` set to 0. -/
def RegScan.init : RegScan :=
  ⟨⟨.unassigned, .unassigned, none, .unassigned, 0⟩, false⟩

/-- `malloc(sizeof(char*) * n + n)` for the count `n`, in 64-bit arithmetic. It may fail
(`ServicesArray.block?`). -/
def mallocServices (n : UInt64) : ServicesArray := ⟨8 * n + n, fun _ => .unassigned⟩

/-- `unpacked->services[i] = str`. -/
def storeService (scan : RegScan) (i : Nat) (s : CString) : RegScan :=
  match scan.reg.services with
  | none => { scan with stray := true }
  | some a =>
      { reg := { scan.reg with
          services := some { a with cell := Function.update a.cell i (.str s) } }
        stray := scan.stray || decide (a.given ≤ i) }

/-- The loop over the elements of an array, which are read as strings whatever
their type is. -/
def storeServicesLoop : Nat → List Object → RegScan → RegScan
  | _, [], scan => scan
  | i, curr :: elems, scan =>
      let scan := storeService scan i (.ofBytes (E.viaStr curr))
      storeServicesLoop (i + 1) elems { scan with stray := scan.stray || !curr.isStr }

/-- What the decoder does with one header. The array branch does not look at
the header's name. -/
def regHeader (scan : RegScan) (header_name : CString) (val : Object) : RegScan :=
  match val with
  | .str bytes =>
      if E.strEquals (.str Hdr.senderAddress.text) (.str header_name) then
        { scan with reg := { scan.reg with address := .str (.ofBytes bytes) } }
      else if E.strEquals (.str Hdr.replyPort.text) (.str header_name) then
        { scan with reg := { scan.reg with port := .str (.ofBytes bytes) } }
      else if E.strEquals (.str Hdr.serviceName.text) (.str header_name) then
        { scan with reg := { scan.reg with service_name := .str (.ofBytes bytes) } }
      else scan
  | .positiveInteger u =>
      if E.strEquals (.str Hdr.servicesCount.text) (.str header_name) then
        { scan with reg := { scan.reg with
            num_services := intOfWord u
            services := some (mallocServices u) } }
      else scan
  | .array elems => storeServicesLoop E 0 elems scan
  | _ => scan

/-- The decoder's loop over the packet. -/
def unpackRegistrationLoop : List Object → RegScan → Except Exit RegScan
  | [], scan => .ok scan
  | obj :: objs, scan => do
      let (header_name, val) ← extractHeader E obj
      unpackRegistrationLoop objs (regHeader E scan header_name val)

/-- `unpack_service_registration_buffer`. A packet that ends in invalid bytes is
reported and decoded as far as it goes. -/
def unpackServiceRegistrationBuffer (packet : E.Buffer) : Except Exit RegScan :=
  unpackRegistrationLoop E (E.unpack packet).objects .init

/-! ### Registering a service -/

/-- The acknowledgement `send_svc_req_ack` packs. -/
def packSvcReqAck (message_id : Int32) : List Token :=
  packMapInt Hdr.requestType.text RequestType.serviceRegistrationAck.code ++
    packMapInt Hdr.messageId.text message_id

/-- `send_svc_req_ack`: the acknowledgement, to the address and port the
registration carries. (It is sent again, up to two times, while the network
takes no byte of it; that is one message here.) -/
def sendSvcReqAck (packet : E.Buffer) : Except Exit (Sent E.Buffer) := do
  let message_id ← getHdrInt E packet Hdr.messageId.text
  let reply_port ← getHdrStr E packet Hdr.replyPort.text
  let sender_address ← getHdrStr E packet Hdr.senderAddress.text
  return ⟨E.pack (packSvcReqAck message_id), ⟨sender_address, reply_port⟩⟩

/-- `reg_svc_req`: decode the registration, add it to the repository, send the
acknowledgement. -/
def regSvcReq (packet : E.Buffer) (config : Config) :
    Except Exit (Config × Sent E.Buffer) := do
  let scan ← unpackServiceRegistrationBuffer E packet
  let ack ← sendSvcReqAck E packet
  return ({ config with svc_repo := config.svc_repo ++ [scan.reg] }, ack)

/-- `reg_svc_req` up to `LIST_Add`: the repositories as they are from then on, also
when `send_svc_req_ack` ends the process. -/
def regSvcReqAdded (packet : E.Buffer) (config : Config) : Except Exit Config := do
  let scan ← unpackServiceRegistrationBuffer E packet
  return { config with svc_repo := config.svc_repo ++ [scan.reg] }

/-! ### Handling a request -/

/-- `get_sender_address`. -/
def getSenderAddress (packet : E.Buffer) : Except Exit Location := do
  let reply_port ← getHdrStr E packet Hdr.replyPort.text
  let sender_address ← getHdrStr E packet Hdr.senderAddress.text
  return ⟨sender_address, reply_port⟩

/-- `reg_clnt_req`: record a request as pending. -/
def regClntReq (op : Ptr) (src : Location) (message_id : Int32) (config : Config) : Config :=
  { config with
    clnt_req_repo := config.clnt_req_repo ++ [⟨src.address, src.port, op, message_id⟩] }

/-- The inner loop of `find_server_for_req`: does a registration list the
operation among its first `num_services` services? -/
def listsService (op_name : Ptr) (sreg_entry : ServiceReg) : Bool :=
  (List.range sreg_entry.num_services.toNatClampNeg).any fun i =>
    E.strEquals op_name (sreg_entry.service i)

/-- `find_server_for_req`: where the first registration that lists the packet's
operation is, two null pointers if none does. -/
def findServerForReq (packet : E.Buffer) (config : Config) : Except Exit Location := do
  let op_name ← getOpName E packet
  match config.svc_repo.find? (listsService E op_name) with
  | some sreg_entry => return ⟨sreg_entry.address, sreg_entry.port⟩
  | none => return ⟨.null, .null⟩

/-- Comparisons up to the first that succeeds. -/
def comparedPairs : List (Ptr × Ptr) → List (Ptr × Ptr)
  | [] => []
  | pair :: pairs =>
      if E.strEquals pair.1 pair.2 then [pair] else pair :: comparedPairs pairs

/-- What `find_server_for_req` hands to `STR_Equals`: the operation and the services
counted in each registration, until it has found one. -/
def serverComparisons (op_name : Ptr) (svc_repo : List ServiceReg) : List (Ptr × Ptr) :=
  comparedPairs E (svc_repo.flatMap fun sreg_entry =>
    (List.range sreg_entry.num_services.toNatClampNeg).map fun i =>
      (op_name, sreg_entry.service i))

/-! ### Handling a response -/

/-- The loop of `find_client_for_response`. The packet's headers are read again
for every pending request; the first request they match is taken out of the
list. -/
def findClientLoop (packet : E.Buffer) (dest : Location) :
    List ClientReg → Except Exit (Location × List ClientReg)
  | [] => .ok (dest, [])
  | crreg_entry :: rest => do
      let message_id ← getHdrInt E packet Hdr.messageId.text
      let requested_operation ← getHdrStr E packet Hdr.operation.text
      if message_id = crreg_entry.message_id &&
          E.strEquals requested_operation crreg_entry.operation then
        return (⟨crreg_entry.address, crreg_entry.port⟩, rest)
      else do
        let (dest, rest) ← findClientLoop packet dest rest
        return (dest, crreg_entry :: rest)

/-- `find_client_for_response`: the client a response is for, and the pending
requests without the one it answers. -/
def findClientForResponse (packet : E.Buffer) (dest : Location) (config : Config) :
    Except Exit (Location × Config) := do
  let (dest, rest) ← findClientLoop E packet dest config.clnt_req_repo
  return (dest, { config with clnt_req_repo := rest })

/-! ### The handler -/

/-- `read_data`, from the point where the packet has been received. -/
def readData (config : Config) (packet : E.Buffer) :
    Except Exit (Config × List (Sent E.Buffer)) := do
  let req_type ← getReqType E packet
  if req_type = RequestType.serviceRequest.code then
    let _op ← getHdrStr E packet Hdr.operation.text
    let sender ← getSenderAddress E packet
    let msg_id ← getHdrInt E packet Hdr.messageId.text
    let req_op ← getHdrStr E packet Hdr.operation.text
    let config := regClntReq req_op sender msg_id config
    let dest ← findServerForReq E packet config
    if dest.address = .null ∨ dest.port = .null then
      return (config, [])
    else
      return (config, [⟨packet, dest⟩])
  else if req_type = RequestType.serviceRegistration.code then
    let (config, ack) ← regSvcReq E packet config
    return (config, [ack])
  else if req_type = RequestType.serviceRequestResponse.code then
    -- `client` is fresh from `malloc`; only a match assigns its fields.
    let (client, config) ← findClientForResponse E packet ⟨.unassigned, .unassigned⟩ config
    return (config, [⟨packet, client⟩])
  else
    return (config, [])

/-- The broker's loop over the packets it receives: the repositories after the
last one, and what was sent while each was handled. -/
def brokerRun (config : Config) (packets : List E.Buffer) :
    Except Exit (Config × List (List (Sent E.Buffer))) :=
  Machine.run (readData E) config packets

end RpcBroker
