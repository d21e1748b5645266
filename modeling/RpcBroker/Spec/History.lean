import Mathlib.Data.List.Induction
import RpcBroker.Lib.Matching
import RpcBroker.Model.Broker
/-!
# RpcBroker.Spec.History

The **abstract broker**: what its pending list is for.

A packet matters to the pending requests in one of two ways, as a request that
is asked or as a response that answers one; `Event` keeps just that. The history
of a run is a `Ledger` of requests, and a response takes the oldest pending
request with its `Key` out of it. Nothing here mentions the list the broker
keeps, or how it is searched.

`Reads` connects the two levels: it says which event a packet is, as the
readers of the broker read it.
-/

namespace RpcBroker

open CLib Msgpack Matching

/-! ### Events -/

/-- What a response is matched by. -/
structure Key where
  message_id : Int32
  operation : CString
  deriving DecidableEq

/-- A request: where it came from and what its answer will carry. -/
structure Request where
  source : Location
  key : Key
  deriving DecidableEq

/-- The entry of the pending list for a request. -/
def Request.entry (r : Request) : ClientReg :=
  ⟨r.source.address, r.source.port, .str r.key.operation, r.key.message_id⟩

def Request.hasKey (k : Key) (r : Request) : Bool := decide (r.key = k)

/-- A packet, as far as pending requests are concerned. -/
inductive Event
  | asked (r : Request)
  | answered (k : Key)
  | other

/-- The request an event adds. -/
def Event.request? : Event → Option Request
  | .asked r => some r
  | _ => none

/-! ### The history -/

/-- One event in the history. -/
def record (L : Ledger Request) : Event → Ledger Request
  | .asked r => L.arrive r
  | .answered k => L.take (Request.hasKey k)
  | .other => L

/-- The history of a sequence of events. -/
def ledger (events : List Event) : Ledger Request := events.foldl record .empty

theorem ledger_concat (events : List Event) (event : Event) :
    ledger (events ++ [event]) = record (ledger events) event := by
  rw [ledger, List.foldl_append]
  rfl

/-- What arrived is what was asked, in order. -/
theorem ledger_arrived (events : List Event) :
    (ledger events).arrived = events.filterMap Event.request? := by
  induction events using List.reverseRecOn with
  | nil => rfl
  | append_singleton events event ih =>
      rw [ledger_concat, List.filterMap_append]
      cases event with
      | asked r => simp [record, Ledger.arrive, Event.request?, ih]
      | answered k => simp [record, Event.request?, ih]
      | other => simp [record, Event.request?, ih]

/-! ### Packets as events -/

/-- The packet carries the request that is recorded as `entry`. -/
structure RequestRead (E : Libs) (packet : E.Buffer) (entry : ClientReg) : Prop where
  operation : getHdrStr E packet Hdr.operation.text = .ok entry.operation
  address : getHdrStr E packet Hdr.senderAddress.text = .ok entry.address
  port : getHdrStr E packet Hdr.replyPort.text = .ok entry.port
  message_id : getHdrInt E packet Hdr.messageId.text = .ok entry.message_id

/-- The event a packet is, as `get_req_type`, `get_hdr_str` and `get_hdr_int`
read it. A request or a response without a string for an operation is none. -/
inductive Reads (E : Libs) (packet : E.Buffer) : Event → Prop
  | asked {r : Request} (htype : getReqType E packet = .ok RequestType.serviceRequest.code)
      (hread : RequestRead E packet r.entry) : Reads E packet (.asked r)
  | answered {k : Key}
      (htype : getReqType E packet = .ok RequestType.serviceRequestResponse.code)
      (hid : getHdrInt E packet Hdr.messageId.text = .ok k.message_id)
      (hop : getHdrStr E packet Hdr.operation.text = .ok (.str k.operation)) :
      Reads E packet (.answered k)
  | other {t : Int32} (htype : getReqType E packet = .ok t)
      (hreq : t ≠ RequestType.serviceRequest.code)
      (hresp : t ≠ RequestType.serviceRequestResponse.code) : Reads E packet .other

/-- The request a packet is read as, computed. -/
def requestOf (E : Libs) (packet : E.Buffer) : Option Request :=
  match getReqType E packet, getHdrStr E packet Hdr.operation.text,
    getHdrStr E packet Hdr.senderAddress.text, getHdrStr E packet Hdr.replyPort.text,
    getHdrInt E packet Hdr.messageId.text with
  | .ok t, .ok (.str op), .ok address, .ok port, .ok id =>
      if t = RequestType.serviceRequest.code then some ⟨⟨address, port⟩, ⟨id, op⟩⟩ else none
  | _, _, _, _, _ => none

theorem requestOf_eq_some {E : Libs} {packet : E.Buffer} {r : Request} :
    requestOf E packet = some r ↔ Reads E packet (.asked r) := by
  constructor
  · intro h
    unfold requestOf at h
    split at h
    next t op address port id htype hop haddress hport hid =>
        split at h
        next ht =>
            obtain rfl := Option.some.inj h
            exact .asked (ht ▸ htype) ⟨hop, haddress, hport, hid⟩
        next => exact absurd h (by simp)
    next => exact absurd h (by simp)
  · intro h
    cases h with
    | asked htype hread =>
        simp [requestOf, htype, hread.operation, hread.address, hread.port, hread.message_id,
          Request.entry]

end RpcBroker
