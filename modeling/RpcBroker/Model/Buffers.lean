import RpcBroker.Lib.Memory
import RpcBroker.Model.Server
/-!
# RpcBroker.Model.Buffers

The **character buffers of the decoders**, write by write: `key_name` of
`extract_header`, the `header_name` each decoder hands it, and what
`get_hdr_str`, `get_op_name`, `unpack_service_registration_buffer` and
`unpack_marshal_call_send` allocate for the strings and numbers they keep.

`RpcBroker.Model.Common` and the models beside it say what the decoders return;
here a decoder gives the list of the buffers it fills, in order, as they are
after its last write to each. Sizes, indices and lengths are computed in the
types the source computes them in; an `int` that overflows wraps.
-/

namespace RpcBroker.Buffers

open CLib CMemory Msgpack

variable (E : Libs)

/-- The buffers, by the variable that points to them. -/
inductive Site
  /-- `key_name` in `extract_header`. -/
  | keyName
  /-- `header_name` of the caller of `extract_header`. -/
  | headerName
  /-- `str` in `get_hdr_str`. -/
  | hdrStr
  /-- `str` in `get_op_name`. -/
  | opName
  /-- `str` for a string header of a registration. -/
  | regStr
  /-- `str` for an element of the array of a registration. -/
  | regService
  /-- `ptrStr` for the operation of a request. -/
  | operation
  /-- `ptrStr` for a string parameter. -/
  | paramStr
  /-- `pival` for an integer parameter. -/
  | paramInt
  deriving DecidableEq

/-- A buffer after the writes made to it, with the decoded string it is to hold; a
number is not a string. -/
structure Filled where
  site : Site
  block : Block
  decoded : Option (List UInt8)
  deriving DecidableEq

/-- No write fell outside, and the buffer holds its string up to the first NUL. -/
def Filled.Sound (f : Filled) : Prop :=
  f.block.stray = false ∧ ∀ bytes ∈ f.decoded, f.block.string? = some (.ofBytes bytes)

instance (f : Filled) : Decidable f.Sound :=
  inferInstanceAs (Decidable (_ ∧ ∀ bytes ∈ f.decoded, _))

/-- `via.str.size`. -/
def strSize (bytes : List UInt8) : UInt32 := .ofNat bytes.length

/-! ### The functions -/

/-- `copyString`. -/
def copyString (str_len : Int32) (src : List UInt8) (dst : Block) : Block :=
  let dst := dst.memset 0 (wordOfInt str_len).toNat
  let dst := dst.store str_len.toInt 0
  dst.strncpy (src.map some) (wordOfInt str_len).toNat

/-- `key_name` of `extract_header`, an array of the key's length and one more. -/
def keyName (key : List UInt8) : Block :=
  let size := intOfSize (strSize key + 1)
  let key_name := Block.fresh size.toNatClampNeg
  let key_name := key_name.strncpy (key.map some) (strSize key).toNat
  key_name.store size.toInt 0

/-- The caller's buffer after `extract_header` copied `key_name` to it. -/
def copyName (header_buffer : Block) (key : List UInt8) : Block :=
  header_buffer.strncpy (keyName key).cells (strSize key).toNat

/-- `extract_header`: `key_name`, the caller's buffer, and the value under the key.
On anything but a map of one entry it calls `exit(1)` before it writes. -/
def extractHeader (header_buffer : Block) : Object → Option (Filled × Filled × Object)
  | .map [(key, val)] =>
      let bytes := E.viaStr key
      some (⟨.keyName, keyName bytes, some bytes⟩,
        ⟨.headerName, copyName header_buffer bytes, some bytes⟩, val)
  | _ => none

/-- `header_name` as each decoder hands it over: `MAX_HEADER_NAME_SIZE` characters,
set to NUL. -/
def freshHeaderName : Block := (Block.fresh maxHeaderNameSize).memset 0 maxHeaderNameSize

/-- The loop of a decoder. `round` is what it does with a header: the buffers it
fills, and whether it leaves the loop. -/
def decodeLoop (round : Ptr → Object → List Filled × Bool) : List Object → List Filled
  | [] => []
  | obj :: objs =>
      match extractHeader E freshHeaderName obj with
      | none => []
      | some (key_name, header_name, val) =>
          let (filled, leave) := round header_name.block.ptr val
          key_name :: header_name :: filled ++ if leave then [] else decodeLoop round objs

/-- `get_req_type` takes one header apart and fills nothing of its own. -/
def getReqType (packet : E.Buffer) : List Filled :=
  decodeLoop E (fun _ _ => ([], true)) (E.unpack packet).objects

/-- `get_hdr_int` goes through all headers. -/
def getHdrInt (packet : E.Buffer) : List Filled :=
  decodeLoop E (fun _ _ => ([], false)) (E.unpack packet).objects

/-- The copy `get_hdr_str` makes. -/
def hdrStr (bytes : List UInt8) : Block :=
  let str_len := intOfSize (strSize bytes)
  let str := pointee (malloc (wordOfInt str_len))
  let str := str.memset 0 (wordOfInt str_len).toNat
  let str := str.store str_len.toInt 0
  str.strncpy (bytes.map some) (wordOfInt str_len).toNat

/-- A round of a decoder that copies the first string under a name and leaves. -/
def firstMatchRound (site : Site) (copy : List UInt8 → Block) (look : CString)
    (header_name : Ptr) (val : Object) : List Filled × Bool :=
  match val with
  | .str bytes =>
      if E.strEquals (.str look) header_name then ([⟨site, copy bytes, some bytes⟩], true)
      else ([], false)
  | _ => ([], false)

/-- `get_hdr_str`. -/
def getHdrStr (packet : E.Buffer) (look : CString) : List Filled :=
  decodeLoop E (firstMatchRound E .hdrStr hdrStr look) (E.unpack packet).objects

/-- The copy `get_op_name` makes. The size is asked for in 32 bits. -/
def opName (bytes : List UInt8) : Block :=
  let str_len := intOfSize (strSize bytes)
  let str := pointee (malloc (strSize bytes + 1).toUInt64)
  let str := str.memset 0 (wordOfInt (str_len + 1)).toNat
  let str := str.store (str_len + 1).toInt 0
  str.strncpy (bytes.map some) (wordOfInt str_len).toNat

/-- `get_op_name`. -/
def getOpName (packet : E.Buffer) : List Filled :=
  decodeLoop E (firstMatchRound E .opName opName (.lit "op")) (E.unpack packet).objects

/-- The copy made of a string header of a registration. -/
def regStr (bytes : List UInt8) : Block :=
  let str_len := intOfSize (strSize bytes)
  copyString str_len bytes (pointee (malloc (wordOfInt str_len)))

/-- The copy made of an element of the array, `none` if `malloc` failed. -/
def regService (bytes : List UInt8) : Option Block :=
  let str_len := intOfSize (strSize bytes)
  (malloc (wordOfInt str_len + 1)).map (copyString str_len bytes)

/-- The loop over the array of a registration, and whether it returned from the
decoder: it does where `malloc` failed. -/
def regServicesLoop : List Object → List Filled × Bool
  | [] => ([], false)
  | curr :: elems =>
      match regService (E.viaStr curr) with
      | none => ([], true)
      | some str =>
          let (filled, leave) := regServicesLoop elems
          (⟨.regService, str, some (E.viaStr curr)⟩ :: filled, leave)

/-- Every string header is copied, whatever its name is. -/
def unpackServiceRegistrationRound (_header_name : Ptr) (val : Object) : List Filled × Bool :=
  match val with
  | .str bytes => ([⟨.regStr, regStr bytes, some bytes⟩], false)
  | .array elems => regServicesLoop E elems
  | _ => ([], false)

/-- `unpack_service_registration_buffer`. -/
def unpackServiceRegistrationBuffer (packet : E.Buffer) : List Filled :=
  decodeLoop E (unpackServiceRegistrationRound E) (E.unpack packet).objects

/-- The copy made of the operation. The size is asked for in 64 bits. -/
def operation (bytes : List UInt8) : Block :=
  copyString (intOfSize (strSize bytes)) bytes
    (pointee (malloc ((strSize bytes).toUInt64 + 1)))

/-- The copy made of a string parameter. The size is computed in an `int`. -/
def paramStr (bytes : List UInt8) : Block :=
  let alloc_size := intOfSize (strSize bytes + 1)
  copyString (intOfSize (strSize bytes)) bytes (pointee (malloc (wordOfInt alloc_size)))

/-- The eight bytes of an `int64_t`, low byte first. -/
def int64Cells (u : UInt64) : List Cell :=
  (List.range 8).map fun k => some (.ofNat (u.toNat >>> (8 * k)))

/-- `int64_t *pival = malloc(sizeof(int)); *pival = param.via.i64;` -/
def paramInt (u : UInt64) : Block := (pointee (malloc 4)).put (int64Cells u)

/-- What the parameter loop stores for one element of the array. -/
def param : Object → List Filled
  | .str bytes => [⟨.paramStr, paramStr bytes, some bytes⟩]
  | .positiveInteger u => [⟨.paramInt, paramInt u, none⟩]
  | _ => []

/-- The operation is copied, and so is each parameter. -/
def unpackMarshalCallRound (header_name : Ptr) (val : Object) : List Filled × Bool :=
  match val with
  | .str bytes =>
      if E.strEquals (.str Hdr.operation.text) header_name then
        ([⟨.operation, operation bytes, some bytes⟩], false)
      else ([], false)
  | .array elems => (elems.flatMap param, false)
  | _ => ([], false)

/-- `unpack_marshal_call_send`. -/
def unpackMarshalCallSend (packet : E.Buffer) : List Filled :=
  decodeLoop E (unpackMarshalCallRound E) (E.unpack packet).objects

/-! ### All decoders -/

/-- The functions that take the headers of a packet apart. -/
inductive Decoder
  | getReqType
  | getHdrInt
  | getHdrStr (look : CString)
  | getOpName
  | unpackServiceRegistrationBuffer
  | unpackMarshalCallSend

/-- The buffers a decoder fills. -/
def Decoder.filled (packet : E.Buffer) : Decoder → List Filled
  | .getReqType => Buffers.getReqType E packet
  | .getHdrInt => Buffers.getHdrInt E packet
  | .getHdrStr look => Buffers.getHdrStr E packet look
  | .getOpName => Buffers.getOpName E packet
  | .unpackServiceRegistrationBuffer => Buffers.unpackServiceRegistrationBuffer E packet
  | .unpackMarshalCallSend => Buffers.unpackMarshalCallSend E packet

end RpcBroker.Buffers
