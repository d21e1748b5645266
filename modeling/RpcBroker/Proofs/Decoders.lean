import RpcBroker.Model.Broker
import RpcBroker.Model.Server
import RpcBroker.Proofs.Headers
/-!
# RpcBroker.Proofs.Decoders

The two decoders that keep state over the headers of a packet, as folds over a
sequence of headers: the server's `unpack_marshal_call_send` and the broker's
`unpack_service_registration_buffer`.
-/

namespace RpcBroker

open CLib Msgpack

variable {E : Libs}

/-- A string variable after a header that may assign it. -/
def nextStr (look : CString) (p : Ptr) (h : Header) : Ptr :=
  match h.str? look with
  | some s => .str s
  | none => p

/-- Assigned by every header under its name, the variable holds the last string. -/
theorem nextStr_strResult (look : CString) (hs : List Header) (h : Header) :
    nextStr look (strResult (lastStr look hs)) h = strResult (lastStr look (hs ++ [h])) := by
  rw [lastStr_concat, nextStr]
  cases h.str? look <;> rfl

/-- A header that carries no string assigns none. -/
theorem nextStr_of_val {h : Header} (hval : ∀ bytes, h.val ≠ .str bytes) (look : CString) (p : Ptr) :
    nextStr look p h = p := by
  have hnone : h.str? look = none := by
    unfold Header.str?
    split
    next bytes hstr => exact absurd hstr (hval bytes)
    next => rfl
  rw [nextStr, hnone]

/-! ### The server's decoder -/

/-- The call an array makes with the id and the operation read so far. -/
def callAt (broker : Details) (id : Option Int32) (op : Ptr) (elems : List Object) : Call :=
  ⟨id, op, broker, elems.map ParamPtr.ofObject⟩

/-- The message id after a header. -/
def nextId (id : Option Int32) (h : Header) : Option Int32 :=
  (h.int? Hdr.messageId.text).or id

/-- The operation after a header. -/
def nextOp (op : Ptr) (h : Header) : Ptr := nextStr Hdr.operation.text op h

/-- The calls a sequence of headers makes. -/
def marshalCalls (broker : Details) : List Header → Option Int32 → Ptr → List Call
  | [], _, _ => []
  | h :: hs, id, op =>
      match h.val with
      | .array elems => callAt broker id op elems :: marshalCalls broker hs id op
      | _ => marshalCalls broker hs (nextId id h) (nextOp op h)

theorem unpackMarshalLoop_entries {objs : List Object} {hs : List Header} (h : Entries E objs hs)
    (broker : Details) (id : Option Int32) (op : Ptr) :
    unpackMarshalLoop E broker objs id op = .ok (marshalCalls broker hs id op) := by
  induction h generalizing id op with
  | nil => rfl
  | @cons obj h objs hs hobj _ ih =>
      rw [unpackMarshalLoop, extractHeader_headerOf hobj, marshalCalls]
      cases hval : h.val with
      | str bytes =>
          have hid : nextId id h = id := by simp [nextId, Header.int?, hval]
          simp only [bind, Except.bind, Stulibc.strEquals_str, decide_eq_true_eq, hid]
          by_cases hkey : Hdr.operation.text = h.key
          · have hop : nextOp op h = .str (.ofBytes bytes) := by
              simp [nextOp, nextStr, Header.str?, hval, hkey]
            rw [if_pos hkey, ih, hop]
          · have hop : nextOp op h = op := by simp [nextOp, nextStr, Header.str?, hval, hkey]
            rw [if_neg hkey, ih, hop]
      | positiveInteger u =>
          have hop : nextOp op h = op := by simp [nextOp, nextStr, Header.str?, hval]
          simp only [bind, Except.bind, Stulibc.strEquals_str, decide_eq_true_eq, hop]
          by_cases hkey : Hdr.messageId.text = h.key
          · have hid : nextId id h = some (intOfWord u) := by
              simp [nextId, Header.int?, hval, hkey]
            rw [if_pos hkey, ih, hid]
          · have hid : nextId id h = id := by simp [nextId, Header.int?, hval, hkey]
            rw [if_neg hkey, ih, hid]
      | array elems =>
          simp only [bind, Except.bind, ih, pure, Except.pure, callAt]
      | _ =>
          have hid : nextId id h = id := by simp [nextId, Header.int?, hval]
          have hop : nextOp op h = op := by simp [nextOp, nextStr, Header.str?, hval]
          simp only [bind, Except.bind, ih, hid, hop]

theorem unpackMarshalCallSend_carries {packet : E.Buffer} {hs : List Header}
    (h : E.Carries packet hs) (broker : Details) :
    unpackMarshalCallSend E packet broker = .ok (marshalCalls broker hs none .unassigned) := by
  rw [unpackMarshalCallSend, unpackMarshalLoop_entries h.entries]

/-! ### The broker's decoder -/

/-- The decoder's state after a sequence of headers. -/
def regHeaders (E : Libs) (hs : List Header) (scan : RegScan) : RegScan :=
  hs.foldl (fun scan h => regHeader E scan h.key h.val) scan

theorem regHeaders_concat (hs : List Header) (h : Header) (scan : RegScan) :
    regHeaders E (hs ++ [h]) scan = regHeader E (regHeaders E hs scan) h.key h.val := by
  rw [regHeaders, List.foldl_append]
  rfl

theorem unpackRegistrationLoop_entries {objs : List Object} {hs : List Header}
    (h : Entries E objs hs) (scan : RegScan) :
    unpackRegistrationLoop E objs scan = .ok (regHeaders E hs scan) := by
  induction h generalizing scan with
  | nil => rfl
  | @cons obj h objs hs hobj _ ih =>
      rw [unpackRegistrationLoop, extractHeader_headerOf hobj]
      exact ih _

theorem unpackServiceRegistrationBuffer_carries {packet : E.Buffer} {hs : List Header}
    (h : E.Carries packet hs) :
    unpackServiceRegistrationBuffer E packet = .ok (regHeaders E hs .init) := by
  rw [unpackServiceRegistrationBuffer, unpackRegistrationLoop_entries h.entries]

end RpcBroker
