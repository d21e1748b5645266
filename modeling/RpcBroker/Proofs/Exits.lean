import RpcBroker.Proofs.Decoders
import RpcBroker.Proofs.Handler
/-!
# RpcBroker.Proofs.Exits

**When the readers call `exit`.** They end the process on anything they do not expect,
each in its own way: `get_req_type` on a first object that is no `request-type`, the
others on an object that is no one-entry map and on invalid bytes behind the last object.
So the handler calls no `exit` exactly on packets with a request type that it does not
read further, or that are sequences of one-entry maps (`readData_returns_iff`).
-/

namespace RpcBroker

open CLib Msgpack

variable {E : Libs}

/-! ### What the readers get through -/

/-- Every object of the packet is a map of one entry, and no invalid bytes
follow. -/
def Parsable (E : Libs) (packet : E.Buffer) : Prop :=
  (E.unpack packet).status ≠ .parseError ∧
    ∀ obj ∈ (E.unpack packet).objects, ∃ key val, obj = .map [(key, val)]

/-- One-entry maps are what the readers take for headers. -/
theorem entries_iff {objs : List Object} :
    Entries E objs (objs.filterMap (headerOf E)) ↔
      ∀ obj ∈ objs, ∃ key val, obj = .map [(key, val)] := by
  induction objs with
  | nil => simp [Entries]
  | cons obj objs ih =>
      rw [List.forall_mem_cons, ← ih]
      constructor
      · intro h
        cases hobj : headerOf E obj with
        | none =>
            rw [List.filterMap_cons_none hobj] at h
            -- The first object would have to be the header of another one.
            obtain ⟨hd, tl, hhead, -, -⟩ := List.forall₂_cons_left_iff.mp h
            exact absurd (hobj.symm.trans hhead) (by simp)
        | some hd =>
            rw [List.filterMap_cons_some hobj] at h
            refine ⟨?_, (List.forall₂_cons.mp h).2⟩
            unfold headerOf at hobj
            split at hobj
            next key val => exact ⟨key, val, rfl⟩
            next => exact absurd hobj (by simp)
      · rintro ⟨⟨key, val, rfl⟩, h⟩
        exact .cons rfl h

theorem Parsable.entries {packet : E.Buffer} (h : Parsable E packet) :
    Entries E (E.unpack packet).objects (headersIn E packet) :=
  entries_iff.mpr h.2

theorem parsable_of_getHdrInt {packet : E.Buffer} {look : CString} {i : Int32}
    (h : getHdrInt E packet look = .ok i) : Parsable E packet := by
  obtain ⟨hstatus, hentries, -⟩ := getHdrInt_eq_ok.mp h
  exact ⟨hstatus, entries_iff.mp hentries⟩

theorem Parsable.getHdrInt {packet : E.Buffer} (h : Parsable E packet) (look : CString) :
    getHdrInt E packet look = .ok ((lastInt look (headersIn E packet)).getD 0) :=
  getHdrInt_eq_ok.mpr ⟨h.1, h.entries, rfl⟩

theorem Parsable.getHdrStr {packet : E.Buffer} (h : Parsable E packet) (look : CString) :
    getHdrStr E packet look = .ok (strResult (firstStr look (headersIn E packet))) :=
  getHdrStr_entries h.entries look

theorem Parsable.getOpName {packet : E.Buffer} (h : Parsable E packet) :
    ∃ op_name, getOpName E packet = .ok op_name := by
  rw [RpcBroker.getOpName, getOpNameLoop_entries h.entries, if_neg h.1]
  cases firstStr Hdr.operation.text (headersIn E packet) with
  | some s => exact ⟨_, rfl⟩
  | none => exact ⟨_, rfl⟩

theorem Parsable.registration {packet : E.Buffer} (h : Parsable E packet) :
    ∃ scan, unpackServiceRegistrationBuffer E packet = .ok scan :=
  ⟨_, unpackRegistrationLoop_entries h.entries .init⟩

theorem Parsable.ack {packet : E.Buffer} (h : Parsable E packet) :
    ∃ ack, sendSvcReqAck E packet = .ok ack := by
  simp only [sendSvcReqAck, bind_eq_ok, pure_eq_ok]
  exact ⟨_, _, h.getHdrInt _, _, h.getHdrStr _, _, h.getHdrStr _, rfl⟩

/-- `extract_header` returns on a map of one entry only. -/
theorem extractHeader_eq_ok {obj val : Object} {header_name : CString} :
    extractHeader E obj = .ok (header_name, val) ↔
      ∃ key, obj = .map [(key, val)] ∧ header_name = .ofBytes (E.viaStr key) := by
  constructor
  · intro h
    unfold extractHeader at h
    split at h
    next key val' =>
        obtain ⟨rfl, rfl⟩ := Prod.mk.inj (Except.ok.inj h)
        exact ⟨key, rfl, rfl⟩
    next => exact absurd h (by simp)
    next => exact absurd h (by simp)
  · rintro ⟨key, rfl, rfl⟩
    rfl

/-- `get_req_type` returns on a packet without an object, and on one whose first
object is a map of one entry with a non-negative integer under `request-type`. -/
theorem getReqType_eq_ok {packet : E.Buffer} {t : Int32} :
    getReqType E packet = .ok t ↔
      ((E.unpack packet).objects = [] ∧ t = RequestType.failed.code) ∨
      ∃ key u rest, (E.unpack packet).objects = .map [(key, .positiveInteger u)] :: rest ∧
        Hdr.requestType.text = .ofBytes (E.viaStr key) ∧ t = intOfWord u := by
  unfold getReqType
  cases hobjs : (E.unpack packet).objects with
  | nil =>
      constructor
      · intro h
        exact Or.inl ⟨rfl, (Except.ok.inj h).symm⟩
      · rintro (⟨-, rfl⟩ | ⟨key, u, rest, hcons, -⟩)
        · rfl
        · exact absurd hcons (by simp)
  | cons obj rest =>
      constructor
      · intro h
        obtain ⟨⟨header_name, val⟩, hextract, h⟩ := bind_eq_ok.mp h
        obtain ⟨key, rfl, rfl⟩ := extractHeader_eq_ok.mp hextract
        cases val with
        | positiveInteger u =>
            by_cases hname : Hdr.requestType.text = .ofBytes (E.viaStr key)
            · simp only [if_pos hname] at h
              exact Or.inr ⟨key, u, rest, rfl, hname, (Except.ok.inj h).symm⟩
            · simp only [if_neg hname] at h
              exact absurd h (by simp)
        | _ => exact absurd h (by simp)
      · rintro (⟨hnil, -⟩ | ⟨key, u, rest', hcons, hname, rfl⟩)
        · exact absurd hnil (by simp)
        · obtain ⟨rfl, rfl⟩ := List.cons.inj hcons
          simp only [extractHeader_eq_ok.mpr ⟨key, rfl, rfl⟩, bind, Except.bind]
          rw [if_pos hname]

/-! ### The handler -/

/-- Is a packet of this type handled without reading its other headers? -/
def Unread (config : Config) (t : Int32) : Prop :=
  (t ≠ RequestType.serviceRequest.code ∧ t ≠ RequestType.serviceRegistration.code ∧
    t ≠ RequestType.serviceRequestResponse.code) ∨
  (t = RequestType.serviceRequestResponse.code ∧ config.clnt_req_repo = [])

/-- **The handler calls no `exit`** exactly on these packets. -/
theorem readData_returns_iff {config : Config} {packet : E.Buffer} :
    (∃ r, readData E config packet = .ok r) ↔
      ∃ t, getReqType E packet = .ok t ∧ (Unread config t ∨ Parsable E packet) := by
  constructor
  · intro h
    obtain ⟨⟨config', sent⟩, hstep⟩ := h
    cases readData_iff.mp hstep with
    | request htype hread hop =>
        exact ⟨_, htype, Or.inr (parsable_of_getHdrInt hread.message_id)⟩
    | registration htype hscan hack =>
        simp only [sendSvcReqAck, bind_eq_ok] at hack
        obtain ⟨id, hid, -⟩ := hack
        exact ⟨_, htype, Or.inr (parsable_of_getHdrInt hid)⟩
    | response htype hread =>
        by_cases hne : config.clnt_req_repo = []
        · exact ⟨_, htype, Or.inl (Or.inr ⟨rfl, hne⟩)⟩
        · exact ⟨_, htype, Or.inr (parsable_of_getHdrInt (hread hne).1)⟩
    | ignored htype hreq hreg hresp =>
        exact ⟨_, htype, Or.inl (Or.inl ⟨hreq, hreg, hresp⟩)⟩
  · intro h
    obtain ⟨t, htype, hrest⟩ := h
    by_cases hother : t ≠ RequestType.serviceRequest.code ∧
        t ≠ RequestType.serviceRegistration.code ∧ t ≠ RequestType.serviceRequestResponse.code
    · exact ⟨_, readData_iff.mpr (.ignored htype hother.1 hother.2.1 hother.2.2)⟩
    · rcases hrest with (hunread | ⟨rfl, hnil⟩) | hparsable
      · exact absurd hunread hother
      · have hhandled : Handled E config packet
            { config with clnt_req_repo := config.clnt_req_repo.eraseP (answers E 0 .null) }
            [⟨packet, clientFor E 0 .null config.clnt_req_repo⟩] :=
          .response htype (absurd hnil)
        exact ⟨_, readData_iff.mpr hhandled⟩
      -- A request, a registration or a response, all of whose readers return.
      · by_cases hreq : t = RequestType.serviceRequest.code
        · obtain ⟨op_name, hop⟩ := hparsable.getOpName
          have hread : RequestRead E packet ⟨_, _, _, _⟩ :=
            ⟨hparsable.getHdrStr _, hparsable.getHdrStr _, hparsable.getHdrStr _,
              hparsable.getHdrInt _⟩
          exact ⟨_, readData_iff.mpr (.request (hreq ▸ htype) hread hop)⟩
        · by_cases hreg : t = RequestType.serviceRegistration.code
          · obtain ⟨scan, hscan⟩ := hparsable.registration
            obtain ⟨ack, hack⟩ := hparsable.ack
            exact ⟨_, readData_iff.mpr (.registration (hreg ▸ htype) hscan hack)⟩
          · have hresp : t = RequestType.serviceRequestResponse.code := by
              by_contra hne
              exact hother ⟨hreq, hreg, hne⟩
            exact ⟨_, readData_iff.mpr (.response (hresp ▸ htype) fun _ =>
              ⟨hparsable.getHdrInt _, hparsable.getHdrStr _⟩)⟩

end RpcBroker
