import RpcBroker.Lib.Memory
import RpcBroker.Lib.Msgpack
/-!
# RpcBroker.Model.Protocol

The **protocol** (`common/protocol.h`), the records of `common/common.h`, and
the two libraries the programs are linked against.

A message is a sequence of MessagePack maps of one entry each, the *headers*.
The request type comes first and decides who handles the message; the other
headers are found by name.
-/

namespace RpcBroker

open CLib Msgpack

/-! ### Header names and request types -/

/-- The header names of the protocol. -/
inductive Hdr
  | messageId
  | operation
  | replyPort
  | senderAddress
  | serviceName
  | servicesCount
  | reply
  | requestType
  | serviceParams
  | services
  deriving DecidableEq

/-- The text of a header name (`MESSAGE_ID_HDR`, `OPERATION_HDR`, ...). -/
def Hdr.text : Hdr → CString
  | .messageId => .lit "message-id"
  | .operation => .lit "op"
  | .replyPort => .lit "reply-port"
  | .senderAddress => .lit "sender-address"
  | .serviceName => .lit "service-name"
  | .servicesCount => .lit "services-count"
  | .reply => .lit "reply"
  | .requestType => .lit "request-type"
  | .serviceParams => .lit "params"
  | .services => .lit "services"

/-- No two header names have the same text. -/
@[simp] theorem Hdr.text_inj {a b : Hdr} : a.text = b.text ↔ a = b := by
  constructor
  · intro h
    cases a <;> cases b <;> first | rfl | exact absurd h (by decide)
  · exact congrArg Hdr.text

/-- `MAX_HEADER_NAME_SIZE`, the size of every buffer a header name is copied to. -/
def maxHeaderNameSize : Nat := 20

/-- Every header name fits its buffer with a terminator behind it. -/
theorem Hdr.text_short (h : Hdr) : h.text.chars.length < maxHeaderNameSize := by
  cases h <;> decide

/-- `enum RequestType`. -/
inductive RequestType
  | serviceRequest
  | serviceRequestResponse
  | serviceRegistration
  | serviceRegistrationAck
  | failed
  deriving DecidableEq

/-- The number of an enumerator; a message may carry any other number too. -/
def RequestType.code : RequestType → Int32
  | .serviceRequest => 0
  | .serviceRequestResponse => 1
  | .serviceRegistration => 2
  | .serviceRegistrationAck => 3
  | .failed => 4

@[simp] theorem RequestType.code_inj {a b : RequestType} : a.code = b.code ↔ a = b := by
  constructor
  · intro h
    cases a <;> cases b <;> first | rfl | exact absurd h (by decide)
  · exact congrArg RequestType.code

theorem RequestType.code_nonneg (t : RequestType) : 0 ≤ t.code := by
  cases t <;> decide

/-! ### Records -/

/-- `Location`: where a packet is sent. -/
structure Location where
  address : Ptr
  port : Ptr
  deriving DecidableEq

/-- `Details`: a program's configured address and port. -/
structure Details where
  address : CString
  port : CString
  deriving DecidableEq

/-- The location a configured address and port amount to. -/
def Details.location (d : Details) : Location := ⟨.str d.address, .str d.port⟩

/-- `ClientReg`: a request the broker has recorded and not seen answered. -/
structure ClientReg where
  address : Ptr
  port : Ptr
  operation : Ptr
  message_id : Int32
  deriving DecidableEq

/-- The array `services` of a registration points to: the size `malloc` was
asked for, and what each cell holds. -/
structure ServicesArray where
  bytes : UInt64
  cell : Nat → Ptr

/-- How many `char*` cells fit in the size asked for. -/
def ServicesArray.room (a : ServicesArray) : Nat := a.bytes.toNat / 8

/-- What `malloc` gave. -/
def ServicesArray.block? (a : ServicesArray) : Option CMemory.Block := CMemory.malloc a.bytes

/-- How many cells there are, none where `malloc` failed. -/
def ServicesArray.given (a : ServicesArray) : Nat := (CMemory.pointee a.block?).room / 8

/-- `ServiceReg`: a server's registration. `services` is `none` as long as the
pointer was not assigned. -/
structure ServiceReg where
  address : Ptr
  port : Ptr
  services : Option ServicesArray
  service_name : Ptr
  num_services : Int32

/-- What `sreg_entry->services[i]` reads. -/
def ServiceReg.service (reg : ServiceReg) (i : Nat) : Ptr :=
  match reg.services with
  | some a => a.cell i
  | none => .unassigned

/-- A packet handed to `send_req`, with the address and port it was handed with. -/
structure Sent (Buffer : Type) where
  packet : Buffer
  dest : Location

/-! ### The libraries -/

/-- `stulibc`, as far as the programs rely on it. Its lists are Lean lists in
this model: `LIST_Add` appends, `LIST_Get` indexes in order and
`LIST_DeleteNode` takes out exactly the node it is given. -/
structure Stulibc where
  strEquals : Ptr → Ptr → Bool
  strIsNullOrEmpty : Ptr → Bool
  /-- `STR_Equals` of two strings is string equality. -/
  strEquals_str : ∀ s t, strEquals (.str s) (.str t) = decide (s = t)
  strIsNullOrEmpty_null : strIsNullOrEmpty .null = true
  strIsNullOrEmpty_str : ∀ s, strIsNullOrEmpty (.str s) = decide (s = .empty)

attribute [simp] Stulibc.strEquals_str Stulibc.strIsNullOrEmpty_null
  Stulibc.strIsNullOrEmpty_str

/-- The libraries a program runs with. What `STR_Equals` answers for a pointer
to no string, and what `via.str` of an object reads that is no string, stays
open: every result holds for all answers. -/
structure Libs extends Codec, Stulibc

/-- Libraries to run the programs with: the codec keeps the objects, and a
pointer to no string is equal to nothing. -/
def Libs.reference : Libs where
  toCodec := .ofObjects
  strEquals
    | .str s, .str t => decide (s = t)
    | _, _ => false
  strIsNullOrEmpty
    | .str s => decide (s = .empty)
    | _ => true
  strEquals_str _ _ := rfl
  strIsNullOrEmpty_null := rfl
  strIsNullOrEmpty_str _ := rfl

end RpcBroker
