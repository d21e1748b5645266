import RpcBroker.Proofs.Pending
import RpcBroker.Proofs.Readings
/-!
# RpcBroker.Proofs.Unroutable

**Requests no server is registered for.** The broker records a request before it
looks for a server, and leaves the handler where it finds none. So such a request
always leaves its entry behind (`unroutable_recorded`), and nothing takes it
away but a response: the next one with the same id and operation goes to the
client whose request was turned down (`leftover_captures`).
-/

namespace RpcBroker

open CLib Msgpack Matching

variable {E : Libs}

/-! ### One packet -/

/-- No registration lists the packet's operation. -/
def Unroutable (E : Libs) (config : Config) (packet : E.Buffer) : Prop :=
  ∃ op_name, getOpName E packet = .ok op_name ∧
    ∀ reg ∈ config.svc_repo, listsService E op_name reg = false

/-- Nothing is sent for the packet and the repositories stay what they are. -/
def LeavesNoTrace (E : Libs) (config : Config) (packet : E.Buffer) : Prop :=
  readData E config packet = .ok (config, [])

theorem forwards_unlisted (packet : E.Buffer) {op_name : Ptr} {svc_repo : List ServiceReg}
    (h : ∀ reg ∈ svc_repo, listsService E op_name reg = false) :
    forwards E packet op_name svc_repo = [] := by
  have hnone : svc_repo.find? (listsService E op_name) = none := by
    rw [List.find?_eq_none]
    intro reg hreg
    simp [h reg hreg]
  have hserver : serverFor E op_name svc_repo = ⟨.null, .null⟩ := by rw [serverFor, hnone]
  rw [forwards, hserver, if_pos (Or.inl rfl)]

/-- **An unroutable request leaves a trace**, in every state: the handler never
returns with the repositories it was called with. When it returns, nothing was
sent, the registry is the same, and the request stands at the end of the
pending list. -/
theorem unroutable_recorded (E : Libs) {config : Config} {packet : E.Buffer}
    (htype : getReqType E packet = .ok RequestType.serviceRequest.code)
    (hunroutable : Unroutable E config packet) :
    ¬ LeavesNoTrace E config packet ∧
      ∀ config' sent, readData E config packet = .ok (config', sent) →
        sent = [] ∧ config'.svc_repo = config.svc_repo ∧ ∃ entry, RequestRead E packet entry ∧
          config'.clnt_req_repo = config.clnt_req_repo ++ [entry] := by
  have hrecorded : ∀ config' sent, readData E config packet = .ok (config', sent) →
      sent = [] ∧ config'.svc_repo = config.svc_repo ∧ ∃ entry, RequestRead E packet entry ∧
        config'.clnt_req_repo = config.clnt_req_repo ++ [entry] := by
    intro config' sent h
    cases readData_iff.mp h with
    | @request entry op_name _ hread hop =>
        obtain ⟨op_name', hop', hunlisted⟩ := hunroutable
        obtain rfl := Except.ok.inj (hop.symm.trans hop')
        exact ⟨forwards_unlisted packet hunlisted, rfl, entry, hread, rfl⟩
    | registration htype' => exact absurd (reqType_unique htype htype') (by decide)
    | response htype' => exact absurd (reqType_unique htype htype') (by decide)
    | ignored htype' hreq => exact absurd (Except.ok.inj (htype'.symm.trans htype)) hreq
  refine ⟨?_, hrecorded⟩
  intro hsame
  obtain ⟨-, -, entry, -, hpending⟩ := hrecorded _ _ hsame
  -- The list would be one entry longer than itself.
  have hlength := congrArg List.length hpending
  simp at hlength

/-- The request for `add`, when nothing is registered yet. -/
theorem unroutable_recorded_add : ¬ LeavesNoTrace Libs.reference .init addRequest :=
  (unroutable_recorded Libs.reference rfl ⟨.str (.lit "add"), rfl, by simp [Config.init]⟩).1

/-- It stays in the pending list, in a state the broker reaches. -/
theorem leavesNoTrace_add :
    ¬ ∀ (E : Libs) (packets : List E.Buffer) (config : Config)
        (outs : List (List (Sent E.Buffer))) (packet : E.Buffer),
      brokerRun E .init packets = .ok (config, outs) →
      getReqType E packet = .ok RequestType.serviceRequest.code →
      Unroutable E config packet → LeavesNoTrace E config packet := by
  intro h
  have hsame : readData Libs.reference .init addRequest = .ok (.init, []) :=
    h Libs.reference [] .init [] addRequest rfl rfl ⟨.str (.lit "add"), rfl, by simp [Config.init]⟩
  have hstep : readData Libs.reference .init addRequest =
      .ok (⟨[], [⟨.str exampleClient.address, .str exampleClient.port, .str (.lit "add"), 7⟩]⟩, []) :=
    rfl
  have hpending := congrArg Config.clnt_req_repo
    (Prod.mk.inj (Except.ok.inj (hsame.symm.trans hstep))).1
  exact absurd hpending (by simp [Config.init])

/-! ### What becomes of the entry -/

/-- The first pending request with the key `k` came from `source`. -/
def FirstInLine (k : Key) (source : Location) (config : Config) : Prop :=
  ∃ rs : List Request, config.clnt_req_repo = rs.map Request.entry ∧
    rs.find? (Request.hasKey k) = some ⟨source, k⟩

/-- Only a response with its key takes it out of the line. -/
theorem firstInLine_step {k : Key} {source : Location} {config config' : Config}
    {packet : E.Buffer} {event : Event} {sent : List (Sent E.Buffer)}
    (hread : Reads E packet event) (hother : event ≠ .answered k)
    (hfirst : FirstInLine k source config)
    (h : readData E config packet = .ok (config', sent)) : FirstInLine k source config' := by
  obtain ⟨rs, hrs, hfind⟩ := hfirst
  have hstep : Handled E config packet config' sent := readData_iff.mp h
  cases event with
  | asked r =>
      obtain ⟨rfl, -⟩ := handled_asked hread hstep
      refine ⟨rs ++ [r], by simp [hrs], ?_⟩
      rw [List.find?_append, hfind, Option.some_or]
  | answered k' =>
      obtain ⟨rfl, -⟩ := handled_answered hread hstep
      refine ⟨rs.eraseP (Request.hasKey k'), by simp only [hrs, List.eraseP_map, answers_comp_entry],
        ?_⟩
      have hne : k ≠ k' := fun heq => hother (heq ▸ rfl)
      rw [← List.head?_filter, filter_eraseP, List.head?_filter, hfind]
      intro r hr
      have hkey : r.key = k' := by simpa [Request.hasKey] using hr
      simpa [Request.hasKey, hkey] using hne.symm
  | other =>
      rw [FirstInLine, handled_other hread hstep]
      exact ⟨rs, hrs, hfind⟩

/-- It stays first in line over a run without a response with its key. -/
theorem firstInLine_run {k : Key} {source : Location} {config config' : Config}
    {packets : List E.Buffer} {events : List Event} {outs : List (List (Sent E.Buffer))}
    (hreads : List.Forall₂ (Reads E) packets events) (hother : .answered k ∉ events)
    (hfirst : FirstInLine k source config)
    (hrun : brokerRun E config packets = .ok (config', outs)) : FirstInLine k source config' := by
  induction hreads generalizing config outs with
  | nil =>
      obtain ⟨rfl, -⟩ := Prod.mk.inj (Except.ok.inj hrun)
      exact hfirst
  | @cons packet event packets events hread _ ih =>
      obtain ⟨config₁, sent, outs', hstep, hrest, rfl⟩ := Machine.run_cons.mp hrun
      rw [List.mem_cons, not_or] at hother
      exact ih hother.2 (firstInLine_step hread (Ne.symm hother.1) hfirst hstep) hrest

/-- **The entry of a request captures a response**, also when the request was
turned down. The state has no pending request with the key of `r` when `r`
arrives, and then anything may happen but a response with that key. The response
that comes is sent to the source of `r`, whoever asked under this key later. -/
theorem leftover_captures (E : Libs) {config config' : Config} {rs : List Request} {r : Request}
    {request response : E.Buffer} {between : List E.Buffer} {events : List Event}
    {outs : List (List (Sent E.Buffer))} (hrs : config.clnt_req_repo = rs.map Request.entry)
    (hfresh : ∀ r' ∈ rs, r'.key ≠ r.key) (hrequest : Reads E request (.asked r))
    (hbetween : List.Forall₂ (Reads E) between events) (hother : .answered r.key ∉ events)
    (hresponse : Reads E response (.answered r.key))
    (hrun : brokerRun E config (request :: (between ++ [response])) = .ok (config', outs)) :
    outs.getLast? = some [⟨response, r.source⟩] := by
  obtain ⟨config₁, sent, outs', hstep, hrest, rfl⟩ := Machine.run_cons.mp hrun
  obtain ⟨config₂, sents, last, hmid, hlast, rfl⟩ := Machine.run_concat.mp hrest
  have hfirst : FirstInLine r.key r.source config₁ := by
    obtain ⟨rfl, -⟩ := handled_asked hrequest (readData_iff.mp hstep)
    refine ⟨rs ++ [r], by simp [hrs], ?_⟩
    have hnone : rs.find? (Request.hasKey r.key) = none := by
      rw [List.find?_eq_none]
      intro r' hr'
      simpa [Request.hasKey] using hfresh r' hr'
    rw [List.find?_append, hnone, Option.none_or]
    simp [Request.hasKey]
  obtain ⟨rs₂, hrs₂, hfind⟩ := firstInLine_run hbetween hother hfirst hmid
  obtain ⟨-, rfl⟩ := handled_answered hresponse (readData_iff.mp hlast)
  rw [hrs₂, clientFor_map_entry, hfind, ← List.cons_append, List.getLast?_concat]

end RpcBroker
