import RpcBroker.Lib.BigEndian
import RpcBroker.Lib.CValue
import RpcBroker.Lib.MsgpackBytes
import RpcBroker.Model.Protocol
/-!
# RpcBroker.Model.Framing

**Packets on a connection**: `send_data` (`common/common.c`) and the three places
that receive a packet, `get_response`, `read_data` and
`ReadAndProcessDataOnSocket`.

A packet travels as its length in four bytes, in network order, and its bytes
behind it. The sender calls `send` once for each of the two. A receiver calls
`netReadn` once for each; the model of a connection is the bytes that arrive on
it until it ends. Both calls count bytes in an `int`.

Memory nobody stored to is kept apart from bytes received: a cell of a buffer is
`none` until something is read into it. `netError(1, ...)` ends the process with
its text.
-/

namespace RpcBroker

open CLib Bytes Msgpack

/-- The libraries, with byte strings for buffers. -/
def Libs.ofBytes (C : ByteCodec) (S : Stulibc) : Libs where
  toCodec := C.toCodec
  toStulibc := S

/-! ### Sending -/

/-- `send_data` for a packet of these bytes, when `send` takes `size` bytes of
the length and `data` of the packet: what is put on the connection, and the
number of bytes returned. -/
def sendData (packet : List UInt8) (size data : Nat) : List UInt8 × Except CString Int32 :=
  let lenBytes := (toBE 4 packet.length).take size
  if Int32.ofNat size < 0 then (lenBytes, .error (.lit "failed to send size\n"))
  else if Int32.ofNat data < 0 then
    (lenBytes ++ packet.take data, .error (.lit "failed to send packed data\n"))
  else (lenBytes ++ packet.take data, .ok (Int32.ofNat size + Int32.ofNat data))

/-! ### Receiving -/

/-- A received packet: its length, and the cells of its buffer. -/
structure Received where
  len : Nat
  buffer : List (Option UInt8)
  deriving DecidableEq

/-- `netReadn`: the bytes read, at most `n`, and what is left on the connection. -/
def netReadn (n : Nat) (stream : List UInt8) : List UInt8 × List UInt8 :=
  (stream.take n, stream.drop n)

/-- The count `netReadn` returns. -/
def readCount (bytes : List UInt8) : Int32 := Int32.ofNat bytes.length

/-- Memory after bytes are read into its beginning. -/
def readInto {α : Type} (bytes held : List α) : List α := bytes ++ held.drop bytes.length

/-- `ntohl(packet.len)`, with these bytes read over what the variable held. -/
def packetLength (held : UInt32) (sizeBytes : List UInt8) : Nat :=
  ofBE (readInto sizeBytes (toBE 4 held.toNat))

/-- The buffer `malloc(packet.len)`, with these bytes read into it. -/
def packetBuffer (len : Nat) (bytes : List UInt8) : List (Option UInt8) :=
  readInto (bytes.map some) (List.replicate len none)

/-- Receiving with the texts of the two errors: each read is checked for a count
below 1, and for nothing else. -/
def receivePacket (sizeError dataError : CString) (held : UInt32) (stream : List UInt8) :
    Except CString Received :=
  let (sizeBytes, rest) := netReadn 4 stream
  let len := packetLength held sizeBytes
  if readCount sizeBytes < 1 then .error sizeError
  else
    let (bytes, _) := netReadn len rest
    if readCount bytes < 1 then .error dataError
    else .ok ⟨len, packetBuffer len bytes⟩

/-- `get_response`. -/
def getResponse : UInt32 → List UInt8 → Except CString Received :=
  receivePacket (.lit "failed to receiver packet size\n") (.lit "failed to receive message\n")

/-- `read_data`, up to where it has the packet. -/
def readDataReceive : UInt32 → List UInt8 → Except CString Received :=
  receivePacket (.lit "Failed to receiver packet size\n") (.lit "failed to receive message\n")

/-- `ReadAndProcessDataOnSocket`, up to where it has the packet. It makes both
reads before it checks the first. -/
def readAndProcessReceive (held : UInt32) (stream : List UInt8) : Except CString Received :=
  let (sizeBytes, rest) := netReadn 4 stream
  let len := packetLength held sizeBytes
  let (bytes, _) := netReadn len rest
  if readCount sizeBytes < 1 then .error (.lit "failed to receiver packet size\n")
  else if readCount bytes < 1 then .error (.lit "failed to receive message\n")
  else .ok ⟨len, packetBuffer len bytes⟩

/-- The three receivers. -/
inductive Receiver
  | getResponse
  | readData
  | readAndProcessDataOnSocket

def Receiver.receive : Receiver → UInt32 → List UInt8 → Except CString Received
  | .getResponse => RpcBroker.getResponse
  | .readData => readDataReceive
  | .readAndProcessDataOnSocket => readAndProcessReceive

end RpcBroker
