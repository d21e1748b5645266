import Mathlib.Data.List.Perm.Basic
import RpcBroker.Model.System
import RpcBroker.Proofs.Pending
import RpcBroker.Proofs.Readings
import RpcBroker.Proofs.Registering
/-!
# RpcBroker.Proofs.Outstanding

**Every call is outstanding in one way**: the invariant of the whole system,
and what the broker's steps do to it.

A packet under way is in one of six stages (`Content`), which say where it is
going, what it carries, and which call it belongs to. Each handler turns one
packet of a call into at most one, so a call has at most one packet under way,
and that call is the latest of its client. The broker's pending list is a list
`pend` of requests in which all that share a key come from one endpoint; a call
whose request has reached the broker and whose response has not has its request
there.
-/

namespace RpcBroker

open CLib Msgpack Matching

variable {E : Libs} {w : World} {A : ClientCall → Arg → Prop}

/-! ### Calls and their answers -/

def ClientCall.key (call : ClientCall) : Key := ⟨call.message_id, call.op⟩

/-- The request a call amounts to at the broker. -/
def ClientCall.request (call : ClientCall) : Request := ⟨call.client.location, call.key⟩

/-- Some server's function of that name returns `v` for the arguments it reads
from the request. -/
def IsAnswer (w : World) (call : ClientCall) (v : Arg) : Prop :=
  ∃ d node proto args, w.server d = some node ∧ proto ∈ node.program.protos ∧
    proto.name = call.op ∧
    readParams proto.params ((call.args.map Arg.object).map ParamPtr.ofObject) = some args ∧
    v = node.program.result call.op args

/-- Of whatever a function of the server returns for the call, `A` holds. -/
def AnswersAre (A : ClientCall → Arg → Prop) (node : ServerNode) (call : ClientCall) : Prop :=
  ∀ proto ∈ node.program.protos, proto.name = call.op →
    ∀ args ∈ readParams proto.params ((call.args.map Arg.object).map ParamPtr.ofObject),
      A call (node.program.result call.op args)

/-- If the packet at position `i` is a request a server answers, `A` holds of the answer. -/
def AnswersAt (A : ClientCall → Arg → Prop) (w : World) (s : Net E) (i : Nat) : Prop :=
  ∀ m ∈ s.flight[i]?, ∀ d ∈ m.sent.dest.details?, ∀ node ∈ w.server d, s.registered d = true →
    ∀ n ∈ m.call, ∀ call ∈ s.calls[n]?, AnswersAre A node call

theorem answersAt_isAnswer (s : Net E) (i : Nat) : AnswersAt (IsAnswer w) w s i :=
  fun _ _ d _ node hd _ _ _ _ _ proto hproto hname args hargs =>
    ⟨d, node, proto, args, hd, hproto, hname, hargs, rfl⟩

theorem AnswersAt.and {B : ClientCall → Arg → Prop} {s : Net E} {i : Nat}
    (h : AnswersAt A w s i) (h' : AnswersAt B w s i) :
    AnswersAt (fun call v => A call v ∧ B call v) w s i :=
  fun m hm d hd node hnode hregistered n hn call hcall proto hproto hname args hargs =>
    ⟨h m hm d hd node hnode hregistered n hn call hcall proto hproto hname args hargs,
      h' m hm d hd node hnode hregistered n hn call hcall proto hproto hname args hargs⟩

/-! ### Endpoints -/

theorem Details.location_inj {c d : Details} : c.location = d.location ↔ c = d := by
  cases c
  cases d
  simp [Details.location]

@[simp] theorem details?_location (d : Details) : d.location.details? = some d := rfl

theorem World.server_ne_broker {d : Details} {node : ServerNode} (h : w.server d = some node) :
    d ≠ w.broker := by
  intro hd
  rw [hd, w.apart] at h
  exact absurd h (by simp)

/-! ### The invariant -/

/-- The call `n`, if its client has made none after it. -/
def Latest (calls : List ClientCall) (n : Nat) (call : ClientCall) : Prop :=
  calls[n]? = some call ∧
    ∀ k other, calls[k]? = some other → other.client = call.client → k ≤ n

/-- Where a packet under way comes from and is going. `A` is what is known of the answers. -/
inductive Content (w : World) (A : ClientCall → Arg → Prop) (calls : List ClientCall)
    (pend : List Request) : Flight E.Buffer → Prop
  /-- A server's registration. -/
  | registration {d : Details} {node : ServerNode} {packet : E.Buffer}
      (hd : w.server d = some node) (hlen : node.services.length < 0x80000000)
      (hcarries : E.Carries packet (registrationHeaders d node.services)) :
      Content w A calls pend ⟨⟨packet, w.broker.location⟩, none⟩
  /-- Its acknowledgement. -/
  | ack {d : Details} {node : ServerNode} {packet : E.Buffer} {id : Int32}
      (hd : w.server d = some node) (hcarries : E.Carries packet (ackHeaders id)) :
      Content w A calls pend ⟨⟨packet, d.location⟩, none⟩
  /-- A request on its way to the broker. -/
  | request {n : Nat} {call : ClientCall} {packet : E.Buffer} (hlatest : Latest calls n call)
      (hcarries : E.Carries packet
        (requestHeaders call.client call.message_id call.op call.args)) :
      Content w A calls pend ⟨⟨packet, w.broker.location⟩, some n⟩
  /-- A request on its way to a server. -/
  | forwarded {n : Nat} {call : ClientCall} {packet : E.Buffer} {d : Details} {node : ServerNode}
      (hlatest : Latest calls n call) (hd : w.server d = some node)
      (hcarries : E.Carries packet
        (requestHeaders call.client call.message_id call.op call.args))
      (hpend : call.request ∈ pend) : Content w A calls pend ⟨⟨packet, d.location⟩, some n⟩
  /-- A response on its way to the broker. -/
  | response {n : Nat} {call : ClientCall} {packet : E.Buffer} {v : Arg}
      (hlatest : Latest calls n call) (hanswer : A call v)
      (hcarries : E.Carries packet (responseHeaders call.op call.message_id v))
      (hpend : call.request ∈ pend) :
      Content w A calls pend ⟨⟨packet, w.broker.location⟩, some n⟩
  /-- A response on its way to the client. -/
  | reply {n : Nat} {call : ClientCall} {packet : E.Buffer} {v : Arg}
      (hlatest : Latest calls n call) (hanswer : A call v)
      (hcarries : E.Carries packet (responseHeaders call.op call.message_id v)) :
      Content w A calls pend ⟨⟨packet, call.client.location⟩, some n⟩

/-- The invariant of the system, with what is known of the answers. -/
structure Inv (w : World) (A : ClientCall → Arg → Prop) (s : Net E) (pend : List Request) :
    Prop where
  clients : ∀ call ∈ s.calls, w.IsClient call.client ∧ 0 ≤ call.message_id
  registry : ∀ reg ∈ s.config.svc_repo, ∃ d node, w.server d = some node ∧
    (⟨reg.address, reg.port⟩ : Location) = d.location
  pending : s.config.clnt_req_repo = pend.map Request.entry
  source : ∀ r ∈ pend, ∀ r' ∈ pend, r.key = r'.key → r.source = r'.source
  waiting : ∀ c n, s.waiting c = some n → ∃ call, Latest s.calls n call ∧ call.client = c
  flight : ∀ m ∈ s.flight, Content w A s.calls pend m
  once : (s.flight.filterMap Flight.call).Nodup
  returned : ∀ r ∈ s.returned, r.taken = some r.call ∧
    ∃ call v, s.calls[r.call]? = some call ∧ A call v ∧
      (v.type = call.ret → r.value = v.received)

theorem inv_init : Inv w A (Net.init : Net E) [] where
  clients := by simp [Net.init]
  registry := by simp [Net.init, Config.init]
  pending := rfl
  source := by simp
  waiting := by simp [Net.init]
  flight := by simp [Net.init]
  once := List.nodup_nil
  returned := by simp [Net.init]

/-! ### Calls and packets -/

/-- A client has one latest call. -/
theorem Latest.unique {calls : List ClientCall} {n k : Nat} {call other : ClientCall}
    (h : Latest calls n call) (h' : Latest calls k other) (hclient : other.client = call.client) :
    k = n :=
  Nat.le_antisymm (h.2 k other h'.1 hclient) (h'.2 n call h.1 hclient.symm)

/-- Another client's call changes nothing. -/
theorem Latest.append {calls : List ClientCall} {n : Nat} {call other : ClientCall}
    (h : Latest calls n call) (hclient : other.client ≠ call.client) :
    Latest (calls ++ [other]) n call := by
  obtain ⟨hlt, -⟩ := List.getElem?_eq_some_iff.mp h.1
  refine ⟨by rw [List.getElem?_append_left hlt, h.1], ?_⟩
  intro k third hthird hsame
  rcases Nat.lt_or_ge k calls.length with hk | hk
  · rw [List.getElem?_append_left hk] at hthird
    exact h.2 k third hthird hsame
  · rw [List.getElem?_append_right hk] at hthird
    have hmem := List.mem_of_getElem? hthird
    rw [List.mem_singleton.mp hmem] at hsame
    exact absurd hsame hclient

theorem latest_append (calls : List ClientCall) (call : ClientCall) :
    Latest (calls ++ [call]) calls.length call := by
  refine ⟨by simp, ?_⟩
  intro k other hother _
  obtain ⟨hlt, -⟩ := List.getElem?_eq_some_iff.mp hother
  rw [List.length_append, List.length_singleton] at hlt
  omega

/-- The call of a packet is its client's latest. -/
theorem Content.latest {calls : List ClientCall} {pend : List Request} {m : Flight E.Buffer}
    (h : Content w A calls pend m) {n : Nat} (hn : m.call = some n) :
    ∃ call, Latest calls n call := by
  cases h with
  | registration => exact absurd hn (by simp)
  | ack => exact absurd hn (by simp)
  | request hl => exact ⟨_, Option.some.inj hn ▸ hl⟩
  | forwarded hl => exact ⟨_, Option.some.inj hn ▸ hl⟩
  | response hl => exact ⟨_, Option.some.inj hn ▸ hl⟩
  | reply hl => exact ⟨_, Option.some.inj hn ▸ hl⟩

/-- A packet stays in its stage while its call does. -/
theorem Content.imp {calls calls' : List ClientCall} {pend pend' : List Request}
    {m : Flight E.Buffer} (h : Content w A calls pend m)
    (hkeep : ∀ n call, m.call = some n → Latest calls n call →
      Latest calls' n call ∧ (call.request ∈ pend → call.request ∈ pend')) :
    Content w A calls' pend' m := by
  cases h with
  | registration hd hlen hc => exact .registration hd hlen hc
  | ack hd hc => exact .ack hd hc
  | request hl hc => exact .request (hkeep _ _ rfl hl).1 hc
  | forwarded hl hd hc hp =>
      exact .forwarded (hkeep _ _ rfl hl).1 hd hc ((hkeep _ _ rfl hl).2 hp)
  | response hl ha hc hp => exact .response (hkeep _ _ rfl hl).1 ha hc ((hkeep _ _ rfl hl).2 hp)
  | reply hl ha hc => exact .reply (hkeep _ _ rfl hl).1 ha hc

/-- A packet less. -/
theorem Inv.lose {s : Net E} {pend : List Request} (h : Inv w A s pend) (i : Nat) :
    Inv w A { s with flight := s.flight.eraseIdx i } pend :=
  { h with
    flight := fun m hm => h.flight m (List.mem_of_mem_eraseIdx hm)
    once := h.once.sublist ((List.eraseIdx_sublist _ _).filterMap _) }

/-- No other packet belongs to the call of a packet under way. -/
theorem Inv.alone {s : Net E} {pend : List Request} (h : Inv w A s pend) {i : Nat}
    {m : Flight E.Buffer} (hm : s.flight[i]? = some m) :
    ∀ n, m.call = some n → ∀ m' ∈ s.flight.eraseIdx i, m'.call ≠ some n := by
  intro n hn m' hm' hn'
  obtain ⟨hlt, hget⟩ := List.getElem?_eq_some_iff.mp hm
  have hperm := (List.getElem_cons_eraseIdx_perm hlt).filterMap Flight.call
  have honce := hperm.nodup_iff.mpr h.once
  rw [hget, List.filterMap_cons_some hn, List.nodup_cons] at honce
  exact honce.1 (List.mem_filterMap.mpr ⟨m', hm', hn'⟩)

/-- More packets, at most one for a call. -/
theorem Inv.send {s : Net E} {pend : List Request} (h : Inv w A s pend)
    {call : Option Nat} {sents : List (Sent E.Buffer)}
    (hcontent : ∀ sent ∈ sents, Content w A s.calls pend ⟨sent, call⟩)
    (honce : ∀ n, call = some n → sents.length ≤ 1 ∧ ∀ m ∈ s.flight, m.call ≠ some n) :
    Inv w A (s.send call sents) pend :=
  { h with
    flight := by
      intro m hm
      rcases List.mem_append.mp hm with hm | hm
      · exact h.flight m hm
      · obtain ⟨sent, hsent, rfl⟩ := List.mem_map.mp hm
        exact hcontent sent hsent
    once := by
      show ((s.flight ++ sents.map fun sent => (⟨sent, call⟩ : Flight E.Buffer)).filterMap
        Flight.call).Nodup
      rw [List.filterMap_append]
      cases call with
      | none => simpa [List.filterMap_map, Function.comp_def] using h.once
      | some n =>
          obtain ⟨hlen, hfresh⟩ := honce n rfl
          have hnot : n ∉ s.flight.filterMap Flight.call := by
            intro hmem
            obtain ⟨m, hm, hn⟩ := List.mem_filterMap.mp hmem
            exact hfresh m hm hn
          -- Nothing is sent, or one packet; `hlen` rules out more.
          rcases sents with _ | ⟨sent, _ | ⟨sent', sents⟩⟩
          · simpa using h.once
          · refine List.nodup_append.mpr ⟨h.once, List.nodup_singleton n, ?_⟩
            intro k hk l hl hkl
            rw [hkl, List.mem_singleton.mp hl] at hk
            exact hnot hk
          · exact absurd hlen (by simp) }

/-- At most one packet more, in place of the one its call had. -/
theorem Inv.sendOne {s : Net E} {pend : List Request} (h : Inv w A s pend) {n : Nat}
    {sents : List (Sent E.Buffer)} (hlen : sents.length ≤ 1)
    (hfresh : ∀ m ∈ s.flight, m.call ≠ some n)
    (hcontent : ∀ sent ∈ sents, Content w A s.calls pend ⟨sent, some n⟩) :
    Inv w A (s.send (some n) sents) pend := by
  refine h.send hcontent ?_
  intro k hk
  exact ⟨hlen, Option.some.inj hk ▸ hfresh⟩

/-! ### The broker's steps -/

theorem brokerReceives_some {s s' : Net E} {m : Flight E.Buffer}
    (h : brokerReceives s m = some s') :
    ∃ config sents, readData E s.config m.sent.packet = .ok (config, sents) ∧
      s' = Net.send { s with config := config } m.call sents := by
  unfold brokerReceives at h
  cases hread : readData E s.config m.sent.packet with
  | error e => rw [hread] at h; exact absurd h (by simp)
  | ok r =>
      rw [hread] at h
      exact ⟨r.1, r.2, rfl, (Option.some.inj h).symm⟩

/-- A request is forwarded to some server, if it is. -/
theorem forwards_to_server {s : Net E} {pend : List Request} (h : Inv w A s pend)
    {packet : E.Buffer} {op_name : Ptr} {sent : Sent E.Buffer}
    (hsent : sent ∈ forwards E packet op_name s.config.svc_repo) :
    ∃ d node, w.server d = some node ∧ sent = ⟨packet, d.location⟩ := by
  unfold forwards at hsent
  by_cases hnull : (serverFor E op_name s.config.svc_repo).address = .null ∨
      (serverFor E op_name s.config.svc_repo).port = .null
  · rw [if_pos hnull] at hsent
    exact absurd hsent (by simp)
  · rw [if_neg hnull, List.mem_singleton] at hsent
    unfold serverFor at hsent hnull
    cases hfind : s.config.svc_repo.find? (listsService E op_name) with
    | none => rw [hfind] at hnull; exact absurd (Or.inl rfl) hnull
    | some reg =>
        obtain ⟨d, node, hd, hloc⟩ := h.registry reg (List.mem_of_find?_eq_some hfind)
        rw [hfind] at hsent
        exact ⟨d, node, hd, by rw [hsent, ← hloc]⟩

/-- The broker takes up a request: its call gets a pending entry. -/
theorem inv_broker_request {s s' : Net E} {pend : List Request} (h : Inv w A s pend)
    {n : Nat} {call : ClientCall} {packet : E.Buffer} (hlatest : Latest s.calls n call)
    (hcarries : E.Carries packet
      (requestHeaders call.client call.message_id call.op call.args))
    (hfresh : ∀ m ∈ s.flight, m.call ≠ some n)
    (hunclaimed : ∀ r ∈ pend, r.key = call.key → r.source = call.client.location)
    (hstep : brokerReceives s ⟨⟨packet, w.broker.location⟩, some n⟩ = some s') :
    Inv w A s' (pend ++ [call.request]) := by
  obtain ⟨config, sents, hread, rfl⟩ := brokerReceives_some hstep
  have hid : 0 ≤ call.message_id := (h.clients call (List.mem_of_getElem? hlatest.1)).2
  obtain ⟨rfl, op_name, -, rfl⟩ := handled_asked (reads_request hid hcarries) (readData_iff.mp hread)
  have hinv : Inv w A { s with config := { s.config with
      clnt_req_repo := s.config.clnt_req_repo ++ [call.request.entry] } }
      (pend ++ [call.request]) := { h with
    pending := by simp [h.pending]
    source := by
      intro r hr r' hr' hkey
      rcases List.mem_append.mp hr with hr | hr
      · rcases List.mem_append.mp hr' with hr' | hr'
        · exact h.source r hr r' hr' hkey
        · rw [List.mem_singleton.mp hr'] at hkey ⊢
          exact hunclaimed r hr hkey
      · rw [List.mem_singleton.mp hr] at hkey ⊢
        rcases List.mem_append.mp hr' with hr' | hr'
        · exact (hunclaimed r' hr' hkey.symm).symm
        · rw [List.mem_singleton.mp hr']
    flight := fun m hm => (h.flight m hm).imp fun _ _ _ hl =>
      ⟨hl, fun hp => List.mem_append_left _ hp⟩ }
  have hlen : (forwards E packet op_name s.config.svc_repo).length ≤ 1 := by
    unfold forwards
    split <;> simp
  refine hinv.sendOne hlen hfresh ?_
  intro sent hsent
  obtain ⟨d, node, hd, rfl⟩ := forwards_to_server h hsent
  exact .forwarded hlatest hd hcarries (List.mem_append_right _ (List.mem_singleton_self _))

/-- All pending requests under one key are the same, so the search for the key
finds any of them. -/
theorem find?_request {s : Net E} {pend : List Request} (h : Inv w A s pend) {k : Key} {r : Request}
    (hr : r ∈ pend) (hk : r.key = k) : pend.find? (Request.hasKey k) = some r := by
  cases hfind : pend.find? (Request.hasKey k) with
  | none => exact absurd (List.find?_eq_none.mp hfind r hr) (by simp [Request.hasKey, hk])
  | some first =>
      have hhas := List.find?_some hfind
      have hkey : first.key = k := by simpa [Request.hasKey] using hhas
      have hsource : first.source = r.source :=
        h.source first (List.mem_of_find?_eq_some hfind) r hr (hkey.trans hk.symm)
      obtain ⟨source, key⟩ := first
      obtain ⟨source', key'⟩ := r
      obtain rfl : source = source' := hsource
      obtain rfl : key = key' := hkey.trans hk.symm
      rfl

/-- The entry a response takes is a request from its own client. -/
theorem inv_broker_response {s s' : Net E} {pend : List Request} (h : Inv w A s pend)
    {n : Nat} {call : ClientCall} {packet : E.Buffer} {v : Arg}
    (hlatest : Latest s.calls n call) (hanswer : A call v)
    (hcarries : E.Carries packet (responseHeaders call.op call.message_id v))
    (hpend : call.request ∈ pend) (hfresh : ∀ m ∈ s.flight, m.call ≠ some n)
    (hstep : brokerReceives s ⟨⟨packet, w.broker.location⟩, some n⟩ = some s') :
    Inv w A s' (pend.eraseP (Request.hasKey call.key)) := by
  obtain ⟨config, sents, hread, rfl⟩ := brokerReceives_some hstep
  have hid : 0 ≤ call.message_id := (h.clients call (List.mem_of_getElem? hlatest.1)).2
  obtain ⟨rfl, rfl⟩ := handled_answered (reads_response hid hcarries) (readData_iff.mp hread)
  have hclient : clientFor E call.message_id (.str call.op) s.config.clnt_req_repo =
      call.client.location := by
    have hentry := clientFor_map_entry (E := E) call.key pend
    have hfind : pend.find? (Request.hasKey call.key) = some call.request :=
      find?_request h hpend rfl
    rw [hfind, ← h.pending] at hentry
    exact hentry
  have hinv : Inv w A { s with config := { s.config with
      clnt_req_repo := s.config.clnt_req_repo.eraseP
        (answers E call.message_id (.str call.op)) } }
      (pend.eraseP (Request.hasKey call.key)) := { h with
    pending := by
      rw [h.pending, List.eraseP_map, ← answers_comp_entry (E := E) call.key]
      rfl
    source := fun r hr r' hr' =>
      h.source r (List.mem_of_mem_eraseP hr) r' (List.mem_of_mem_eraseP hr')
    flight := by
      intro m hm
      refine (h.flight m hm).imp fun k other hk hl => ⟨hl, fun hp => ?_⟩
      -- Another call with this key would be one of the same client.
      have hkey : other.request.key ≠ call.key := by
        intro heq
        have hsource := h.source _ hp _ hpend heq
        rw [hlatest.unique hl (Details.location_inj.mp hsource)] at hk
        exact hfresh m hm hk
      exact (List.mem_eraseP_of_neg (by simpa [Request.hasKey] using hkey)).mpr hp }
  refine hinv.sendOne (Nat.le_refl 1) hfresh ?_
  intro sent hsent
  rw [List.mem_singleton.mp hsent, hclient]
  exact .reply hlatest hanswer hcarries

/-- The broker adds a registration and acknowledges it. -/
theorem inv_broker_registration {s s' : Net E} {pend : List Request}
    (h : Inv w A s pend) {d : Details} {node : ServerNode} {packet : E.Buffer}
    (hd : w.server d = some node) (hlen : node.services.length < 0x80000000)
    (hcarries : E.Carries packet (registrationHeaders d node.services))
    (hstep : brokerReceives s ⟨⟨packet, w.broker.location⟩, none⟩ = some s') :
    Inv w A s' pend := by
  obtain ⟨config, sents, hread, rfl⟩ := brokerReceives_some hstep
  have htype : getReqType E packet = .ok RequestType.serviceRegistration.code :=
    getReqType_ofInt hcarries
  have hadv := advertises_registration (E := E) d hlen
  have hhandled : config = { s.config with
      svc_repo := s.config.svc_repo ++ [(regHeaders E (registrationHeaders d node.services) .init).reg] } ∧
      ∃ id, ∃ ack : E.Buffer, sents = [⟨ack, d.location⟩] ∧ E.Carries ack (ackHeaders id) := by
    cases readData_iff.mp hread with
    | request htype' => exact absurd (reqType_unique htype htype') (by decide)
    | response htype' => exact absurd (reqType_unique htype htype') (by decide)
    | ignored htype' _ hreg => exact absurd (Except.ok.inj (htype'.symm.trans htype)) hreg
    | registration _ hscan hack =>
        rw [unpackServiceRegistrationBuffer_carries hcarries] at hscan
        obtain rfl := Except.ok.inj hscan
        simp only [sendSvcReqAck, bind_eq_ok, pure_eq_ok] at hack
        obtain ⟨id, -, port, hport, address, haddress, rfl⟩ := hack
        rw [getHdrStr_carries hcarries] at hport haddress
        refine ⟨rfl, id, _, ?_, carries_of_parse (packSvcReqAck_parse id)⟩
        rw [← Except.ok.inj hport, ← Except.ok.inj haddress]
        simp [registrationHeaders, firstStr_cons, Details.location]
  obtain ⟨rfl, id, ack, rfl, hack⟩ := hhandled
  have hinv : Inv w A { s with config := { s.config with svc_repo := s.config.svc_repo ++
      [(regHeaders E (registrationHeaders d node.services) .init).reg] } } pend := { h with
    registry := by
      intro reg hreg
      rcases List.mem_append.mp hreg with hreg | hreg
      · exact h.registry reg hreg
      · rw [List.mem_singleton.mp hreg]
        exact ⟨d, node, hd, by rw [hadv.address, hadv.port]; rfl⟩ }
  refine hinv.send ?_ ?_
  · intro sent hsent
    rw [List.mem_singleton.mp hsent]
    exact .ack hd hack
  · intro k hk
    exact absurd hk (by simp)

end RpcBroker
