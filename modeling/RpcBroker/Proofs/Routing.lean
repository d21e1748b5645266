import RpcBroker.Proofs.Handler
import RpcBroker.Proofs.Messages
/-!
# RpcBroker.Proofs.Routing

**Routing** over whole runs: a request goes to the first server that registered
its operation.

The registry only grows at its end (`readData_registry`), so after a run it is
the list of the registrations the run's packets make, in order, and the first
match in it is the earliest registration. What is appended later comes behind
that match and cannot change it.
-/

namespace RpcBroker

open CLib Msgpack

variable {E : Libs}

/-! ### Registrations -/

/-- The registration lists `op` among its counted services. -/
def ServiceReg.Lists (reg : ServiceReg) (op : CString) : Prop :=
  ∃ i, i < reg.num_services.toNatClampNeg ∧ reg.service i = .str op

/-- The registration carries as many names as it counts. -/
def ServiceReg.Counted (reg : ServiceReg) : Prop :=
  ∀ i < reg.num_services.toNatClampNeg, ∃ s, reg.service i = .str s

/-- The registration a packet makes, if it is one. -/
def registrationOf (E : Libs) (packet : E.Buffer) : Option ServiceReg :=
  match getReqType E packet, unpackServiceRegistrationBuffer E packet with
  | .ok t, .ok scan =>
      if t = RequestType.serviceRegistration.code then some scan.reg else none
  | _, _ => none

/-- The registrations a sequence of packets makes, in order. -/
def registrations (E : Libs) (packets : List E.Buffer) : List ServiceReg :=
  packets.filterMap (registrationOf E)

theorem listsService_iff {reg : ServiceReg} (h : reg.Counted) (op : CString) :
    listsService E (.str op) reg = true ↔ reg.Lists op := by
  simp only [listsService, List.any_eq_true, List.mem_range, ServiceReg.Lists]
  refine exists_congr fun i => and_congr_right fun hi => ?_
  obtain ⟨s, hs⟩ := h i hi
  rw [hs, Stulibc.strEquals_str, decide_eq_true_eq, Ptr.str.injEq, eq_comm]

/-! ### The decoder makes no null pointer -/

/-- Neither field a request is forwarded by is null. -/
def ServiceReg.Located (reg : ServiceReg) : Prop := reg.address ≠ .null ∧ reg.port ≠ .null

theorem located_storeServicesLoop (i : Nat) (elems : List Object) {scan : RegScan}
    (h : scan.reg.Located) : (storeServicesLoop E i elems scan).reg.Located := by
  induction elems generalizing i scan with
  | nil => exact h
  | cons curr elems ih =>
      refine ih (i + 1) ?_
      unfold storeService
      cases scan.reg.services with
      | none => exact h
      | some a => exact h

theorem located_regHeader {scan : RegScan} (h : scan.reg.Located) (name : CString)
    (val : Object) : (regHeader E scan name val).reg.Located := by
  cases val with
  | str bytes =>
      simp only [regHeader]
      split_ifs
      · exact ⟨by simp, h.2⟩
      · exact ⟨h.1, by simp⟩
      · exact h
      · exact h
  | positiveInteger u =>
      simp only [regHeader]
      split_ifs
      · exact h
      · exact h
  | array elems => exact located_storeServicesLoop 0 elems h
  | _ => exact h

theorem located_unpackRegistrationLoop {objs : List Object} {scan scan' : RegScan}
    (h : scan.reg.Located) (hloop : unpackRegistrationLoop E objs scan = .ok scan') :
    scan'.reg.Located := by
  induction objs generalizing scan with
  | nil =>
      obtain rfl : scan = scan' := Except.ok.inj hloop
      exact h
  | cons obj objs ih =>
      rw [unpackRegistrationLoop, bind_eq_ok] at hloop
      obtain ⟨⟨name, val⟩, -, hloop⟩ := hloop
      exact ih (located_regHeader h name val) hloop

theorem located_of_registrationOf {packet : E.Buffer} {reg : ServiceReg}
    (h : registrationOf E packet = some reg) : reg.Located := by
  unfold registrationOf at h
  split at h
  next t scan _ hscan =>
      by_cases ht : t = RequestType.serviceRegistration.code
      · rw [if_pos ht] at h
        obtain rfl := Option.some.inj h
        exact located_unpackRegistrationLoop ⟨by simp [RegScan.init], by simp [RegScan.init]⟩ hscan
      · rw [if_neg ht] at h
        exact absurd h (by simp)
  next => exact absurd h (by simp)

/-! ### The registry of a run -/

/-- A packet that is no registration makes none. -/
theorem registrationOf_eq_none {packet : E.Buffer} {t : Int32}
    (htype : getReqType E packet = .ok t) (ht : t ≠ RequestType.serviceRegistration.code) :
    registrationOf E packet = none := by
  unfold registrationOf
  rw [htype]
  cases unpackServiceRegistrationBuffer E packet with
  | error e => rfl
  | ok scan => exact if_neg ht

/-- A packet appends the registration it makes, and nothing else, to the
registry. -/
theorem readData_registry {config config' : Config} {packet : E.Buffer}
    {sent : List (Sent E.Buffer)} (h : readData E config packet = .ok (config', sent)) :
    config'.svc_repo = config.svc_repo ++ (registrationOf E packet).toList := by
  have hnone : ∀ t : Int32, getReqType E packet = .ok t →
      t ≠ RequestType.serviceRegistration.code →
      config.svc_repo = config.svc_repo ++ (registrationOf E packet).toList := by
    intro t htype ht
    rw [registrationOf_eq_none htype ht, Option.toList_none, List.append_nil]
  cases readData_iff.mp h with
  | request htype => exact hnone _ htype (by decide)
  | response htype => exact hnone _ htype (by decide)
  | ignored htype _ hreg => exact hnone _ htype hreg
  | registration htype hscan _ =>
      unfold registrationOf
      rw [htype, hscan]
      rfl

theorem run_registry {config config' : Config} {packets : List E.Buffer}
    {outs : List (List (Sent E.Buffer))}
    (hrun : brokerRun E config packets = .ok (config', outs)) :
    config'.svc_repo = config.svc_repo ++ registrations E packets := by
  induction packets generalizing config outs with
  | nil =>
      obtain ⟨rfl, -⟩ := Prod.mk.inj (Except.ok.inj hrun)
      simp [registrations]
  | cons packet packets ih =>
      obtain ⟨config₁, sent, outs', hstep, hrest, rfl⟩ := Machine.run_cons.mp hrun
      rw [ih hrest, readData_registry hstep, List.append_assoc, registrations, registrations,
        List.filterMap_cons]
      cases registrationOf E packet <;> rfl

/-! ### The first match -/

/-- The earliest registration that lists the operation is the one chosen. -/
theorem serverFor_first {regs earlier later : List ServiceReg} {reg : ServiceReg} {op : CString}
    (hcounted : ∀ reg ∈ regs, reg.Counted) (hsplit : regs = earlier ++ reg :: later)
    (hlists : reg.Lists op) (hfirst : ∀ r ∈ earlier, ¬ r.Lists op) :
    serverFor E (.str op) regs = ⟨reg.address, reg.port⟩ := by
  have hfind : regs.find? (listsService E (.str op)) = some reg := by
    rw [List.find?_eq_some_iff_append]
    refine ⟨(listsService_iff (hcounted reg (by simp [hsplit])) op).mpr hlists, earlier, later,
      hsplit, ?_⟩
    intro r hr
    have hno := mt (listsService_iff (E := E) (hcounted r (by simp [hsplit, hr])) op).mp (hfirst r hr)
    simpa using hno
  rw [serverFor, hfind]

/-- With no registration that lists the operation there is no server. -/
theorem serverFor_none {regs : List ServiceReg} {op : CString}
    (hcounted : ∀ reg ∈ regs, reg.Counted) (hnone : ∀ reg ∈ regs, ¬ reg.Lists op) :
    serverFor E (.str op) regs = ⟨.null, .null⟩ := by
  have hfind : regs.find? (listsService E (.str op)) = none := by
    rw [List.find?_eq_none]
    intro reg hreg
    exact mt (listsService_iff (hcounted reg hreg) op).mp (hnone reg hreg)
  rw [serverFor, hfind]

/-- Registrations behind one that lists the operation do not matter. -/
theorem serverFor_append {regs more : List ServiceReg} {op : CString}
    (hcounted : ∀ reg ∈ regs, reg.Counted) (hlists : ∃ reg ∈ regs, reg.Lists op) :
    serverFor E (.str op) (regs ++ more) = serverFor E (.str op) regs := by
  obtain ⟨reg, hreg, hlists⟩ := hlists
  have hsome : (regs.find? (listsService E (.str op))).isSome := by
    rw [List.find?_isSome]
    exact ⟨reg, hreg, (listsService_iff (hcounted reg hreg) op).mpr hlists⟩
  obtain ⟨found, hfound⟩ := Option.isSome_iff_exists.mp hsome
  rw [serverFor, serverFor, List.find?_append, hfound, Option.some_or]

/-! ### Requests of a run -/

/-- What a request sends, by the registrations made before it. -/
theorem request_forwards {before after : List E.Buffer} {packet : E.Buffer} {op : CString}
    {config : Config} {outs : List (List (Sent E.Buffer))}
    (hrun : brokerRun E .init (before ++ packet :: after) = .ok (config, outs))
    (htype : getReqType E packet = .ok RequestType.serviceRequest.code)
    (hop : getOpName E packet = .ok (.str op)) :
    outs[before.length]? = some (forwards E packet (.str op) (registrations E before)) := by
  obtain ⟨config₁, _, _, sent, _, hbefore, hstep, -, hsent⟩ := Machine.run_at hrun
  have hrepo : config₁.svc_repo = registrations E before := by
    rw [run_registry hbefore]
    rfl
  cases readData_iff.mp hstep with
  | request _ _ hop' =>
      obtain rfl := Except.ok.inj (hop.symm.trans hop')
      rw [← hrepo]
      exact hsent
  | registration htype' => exact absurd (reqType_unique htype htype') (by decide)
  | response htype' => exact absurd (reqType_unique htype htype') (by decide)
  | ignored htype' hreq => exact absurd (Except.ok.inj (htype'.symm.trans htype)) hreq

/-- **Routing is first-registered and stable.** In a run whose registrations
carry as many names as they count, a request for `op` is forwarded to the
earliest registration before it that lists `op`, and to nobody if there is none;
and once a registration lists `op`, the server found for it stays the same to the
end of the run. -/
theorem routing_first_registered (E : Libs) {packets : List E.Buffer} {config : Config}
    {outs : List (List (Sent E.Buffer))}
    (hrun : brokerRun E .init packets = .ok (config, outs))
    (hcounted : ∀ reg ∈ registrations E packets, reg.Counted) :
    (∀ before packet after op, packets = before ++ packet :: after →
      getReqType E packet = .ok RequestType.serviceRequest.code →
      getOpName E packet = .ok (.str op) →
      (∀ earlier reg later, registrations E before = earlier ++ reg :: later → reg.Lists op →
        (∀ r ∈ earlier, ¬ r.Lists op) →
        outs[before.length]? = some [⟨packet, ⟨reg.address, reg.port⟩⟩]) ∧
      ((∀ reg ∈ registrations E before, ¬ reg.Lists op) → outs[before.length]? = some [])) ∧
    (∀ before after op config₁ outs₁, packets = before ++ after →
      brokerRun E .init before = .ok (config₁, outs₁) →
      (∃ reg ∈ registrations E before, reg.Lists op) →
      ∀ packet, getOpName E packet = .ok (.str op) →
        findServerForReq E packet config = findServerForReq E packet config₁) := by
  have hinitial : ∀ before after, packets = before ++ after →
      ∀ reg ∈ registrations E before, reg.Counted := by
    intro before after hsplit reg hreg
    refine hcounted reg ?_
    rw [hsplit, registrations, List.filterMap_append]
    exact List.mem_append_left _ hreg
  constructor
  -- What a request sends is decided by the registrations before it.
  · intro before packet after op hsplit htype hop
    have hsent := request_forwards (hsplit ▸ hrun) htype hop
    have hbefore := hinitial before _ hsplit
    constructor
    · intro earlier reg later hregs hlists hfirst
      have hmem : reg ∈ registrations E before := by simp [hregs]
      obtain ⟨_, -, hreg⟩ := List.mem_filterMap.mp hmem
      obtain ⟨haddress, hport⟩ := located_of_registrationOf hreg
      rw [hsent, forwards, serverFor_first hbefore hregs hlists hfirst,
        if_neg (not_or.mpr ⟨haddress, hport⟩)]
    · intro hnone
      rw [hsent, forwards, serverFor_none hbefore hnone, if_pos (Or.inl rfl)]
  -- What comes later stands behind the first match.
  · intro before after op config₁ outs₁ hsplit hrun₁ hlists packet hop
    have hrepo : config.svc_repo = registrations E before ++ registrations E after := by
      rw [run_registry hrun, hsplit, registrations, List.filterMap_append]
      rfl
    have hrepo₁ : config₁.svc_repo = registrations E before := by
      rw [run_registry hrun₁]
      rfl
    have hfound : ∀ c : Config, findServerForReq E packet c =
        .ok (serverFor E (.str op) c.svc_repo) := by
      intro c
      exact findServerForReq_eq_ok.mpr ⟨_, hop, rfl⟩
    rw [hfound, hfound, hrepo, hrepo₁, serverFor_append (hinitial before after hsplit) hlists]

/-- A registration of `add` and a request for it. -/
theorem routing_first_registered_add :
    ∃ config outs, brokerRun Libs.reference .init [addRegistration, addRequest] =
        .ok (config, outs) ∧
      outs[1]? = some [⟨addRequest, exampleServer.location⟩] := by
  refine ⟨_, _, rfl, ?_⟩
  have hcounted : ∀ reg ∈ registrations Libs.reference [addRegistration, addRequest],
      reg.Counted := by
    intro reg hreg i hi
    obtain rfl := List.mem_singleton.mp hreg
    obtain rfl : i = 0 := Nat.lt_one_iff.mp hi
    exact ⟨.lit "add", rfl⟩
  have hrouted := (routing_first_registered Libs.reference rfl hcounted).1 [addRegistration]
    addRequest [] (.lit "add") rfl rfl rfl
  exact hrouted.1 [] _ [] rfl ⟨0, by decide, rfl⟩ (by simp)

end RpcBroker
