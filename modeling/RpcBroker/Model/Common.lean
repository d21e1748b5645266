import RpcBroker.Model.Protocol
/-!
# RpcBroker.Model.Common

The functions of **`common/common.c`** both programs use: the two header
packers, and the readers that find a header in a packet.

Every reader goes through the packet object by object (`E.unpack packet`) and
takes each object apart with `extractHeader`. Where the source calls `exit(1)`
the model returns an `Exit`, since the process is gone.

Some writes of the readers fall behind their buffers (`key_name[size]` in
`extract_header`, `str[str_len]` in `get_hdr_str`); they hit no value this model
keeps, and are the subject of `RpcBroker.Model.Buffers`. A name of
`MAX_HEADER_NAME_SIZE` bytes or more, which overruns the caller's buffer, is read as the
name it is, and a key that is no string as the string its union holds; the readers of
`RpcBroker.Model.Checked` end there.
-/

namespace RpcBroker

open CLib Msgpack

variable (E : Libs)

/-! ### Packing a header -/

/-- `pack_map_int`. -/
def packMapInt (key : CString) (ival : Int32) : List Token :=
  [.packMap 1, .packStr key.strlen, .packStrBody key.chars, .packInt ival]

/-- `pack_map_str`. -/
def packMapStr (key value : CString) : List Token :=
  [.packMap 1, .packStr key.strlen, .packStrBody key.chars,
    .packStr value.strlen, .packStrBody value.chars]

/-! ### Reading headers -/

/-- The calls of `exit(1)` a reader can end in. -/
inductive Exit
  /-- "Expected count of items in map to be 1." -/
  | mapCount (count : Nat)
  /-- "Expected request type to be a map." -/
  | notAMap
  /-- "Expecting 'request-type' - got header name as ..." -/
  | notRequestType (name : CString)
  /-- "The data in the buf is invalid format." -/
  | invalidFormat
  deriving DecidableEq

/-- `extract_header`: the name and the value of a one-entry map. The name is
copied up to its first NUL. The key is read as a string whatever its type is. -/
def extractHeader (obj : Object) : Except Exit (CString × Object) :=
  match obj with
  | .map [(key, val)] => .ok (.ofBytes (E.viaStr key), val)
  | .map pairs => .error (.mapCount pairs.length)
  | _ => .error .notAMap

/-- `get_req_type`: the number under `request-type`, which must be the first
header. -/
def getReqType (packet : E.Buffer) : Except Exit Int32 :=
  match (E.unpack packet).objects with
  | [] => .ok RequestType.failed.code
  | obj :: _ => do
      let (header_name, val) ← extractHeader E obj
      match val with
      | .positiveInteger u =>
          if Hdr.requestType.text = header_name then .ok (intOfWord u)
          else .error (.notRequestType header_name)
      | _ => .error (.notRequestType header_name)

/-- The loop of `get_hdr_int`. It runs to the end of the packet, so the last
match stays. -/
def getHdrIntLoop (look : CString) (status : UnpackEnd) :
    List Object → Int32 → Except Exit Int32
  | [], return_value =>
      if status = .parseError then .error .invalidFormat else .ok return_value
  | obj :: objs, return_value => do
      let (header_name, val) ← extractHeader E obj
      match val with
      | .positiveInteger u =>
          getHdrIntLoop look status objs
            (if look = header_name then intOfWord u else return_value)
      | _ => getHdrIntLoop look status objs return_value

/-- `get_hdr_int`: the integer under a header name, 0 if there is none. -/
def getHdrInt (packet : E.Buffer) (look : CString) : Except Exit Int32 :=
  getHdrIntLoop E look (E.unpack packet).status (E.unpack packet).objects 0

/-- What `get_hdr_str` has in hand after its loop: the variable `str`, and the
return code unless the loop was left by `break`. -/
structure StrScan where
  str : Ptr
  return_status : Option UnpackEnd
  deriving DecidableEq

/-- Does `get_hdr_str` print that the packet is invalid? -/
def StrScan.reportsInvalid (scan : StrScan) : Prop :=
  scan.return_status = some .parseError

/-- The loop of `get_hdr_str`. It stops at the first match; without one `str`
is never assigned. -/
def getHdrStrLoop (look : CString) (status : UnpackEnd) :
    List Object → Except Exit StrScan
  | [] => .ok ⟨.unassigned, some status⟩
  | obj :: objs => do
      let (header_name, val) ← extractHeader E obj
      match val with
      | .str bytes =>
          if E.strEquals (.str look) (.str header_name) then
            .ok ⟨.str (.ofBytes bytes), none⟩
          else getHdrStrLoop look status objs
      | _ => getHdrStrLoop look status objs

/-- `get_hdr_str` with its report. -/
def getHdrStrScan (packet : E.Buffer) (look : CString) : Except Exit StrScan :=
  getHdrStrLoop E look (E.unpack packet).status (E.unpack packet).objects

/-- `get_hdr_str`: the string under a header name. -/
def getHdrStr (packet : E.Buffer) (look : CString) : Except Exit Ptr := do
  let scan ← getHdrStrScan E packet look
  return scan.str

/-- The loop of `get_op_name`. It returns from inside the loop at the first
match. -/
def getOpNameLoop (status : UnpackEnd) : List Object → Except Exit Ptr
  | [] => if status = .parseError then .error .invalidFormat else .ok .null
  | obj :: objs => do
      let (header_name, val) ← extractHeader E obj
      match val with
      | .str bytes =>
          if E.strEquals (.str (.lit "op")) (.str header_name) then
            .ok (.str (.ofBytes bytes))
          else getOpNameLoop status objs
      | _ => getOpNameLoop status objs

/-- `get_op_name`: the operation a packet names, NULL if it names none. -/
def getOpName (packet : E.Buffer) : Except Exit Ptr :=
  getOpNameLoop E (E.unpack packet).status (E.unpack packet).objects

end RpcBroker
