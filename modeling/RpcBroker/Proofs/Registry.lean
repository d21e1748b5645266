import RpcBroker.Proofs.Registering
/-!
# RpcBroker.Proofs.Registry

The **integrity of the registry**: when every registration in it can be searched
without reading a cell nobody assigned.

The number of services comes from one header and the services from another, and
the decoder compares neither with the other. `Complete` says what a packet must
carry, header by header, for its registration to come out intact; it is the
exact condition, packet by packet (`intact_iff_complete`) and over every run of
registrations (`registryIntact_iff`).
-/

namespace RpcBroker

open CLib Msgpack

variable {E : Libs}

/-! ### Intact registrations and complete packets -/

/-- The registration can be used: its fields are assigned, its array is allocated
with room for the services it counts, and these are assigned. -/
structure Intact (reg : ServiceReg) : Prop where
  address : ∃ s, reg.address = .str s
  port : ∃ s, reg.port = .str s
  service_name : ∃ s, reg.service_name = .str s
  count : 0 ≤ reg.num_services
  room : ∃ a, reg.services = some a ∧ a.block?.isSome ∧
    reg.num_services.toNatClampNeg ≤ a.given
  assigned : ∀ i < reg.num_services.toNatClampNeg, ∃ s, reg.service i = .str s

/-- Some header carries a string under the name. -/
def Carried (look : CString) (hs : List Header) : Prop := ∃ h ∈ hs, (h.str? look).isSome

/-- The packet carries what a registration needs. Of several counts the last one
is taken; the arrays that matter are those behind it, but all are stored. -/
structure Complete (hs : List Header) : Prop where
  address : Carried Hdr.senderAddress.text hs
  port : Carried Hdr.replyPort.text hs
  service_name : Carried Hdr.serviceName.text hs
  count : ∃ u after, afterCount hs = some (u, after) ∧ 0 ≤ intOfWord u ∧
    ((mallocServices u).block?.isSome ∧
      (intOfWord u).toNatClampNeg ≤ (mallocServices u).given) ∧
    ((intOfWord u).toNatClampNeg = 0 ∨
      ∃ h ∈ after, (intOfWord u).toNatClampNeg ≤ h.elems.length)
  arrays : ArraysFit hs
  strings : StringArrays hs

theorem lastStr_assigned (look : CString) (hs : List Header) :
    (∃ s, strResult (lastStr look hs) = .str s) ↔ Carried look hs := by
  induction hs using List.reverseRecOn with
  | nil => simp [Carried, lastStr, strResult]
  | append_singleton hs h ih =>
      rw [lastStr_concat]
      cases hstr : h.str? look with
      | some s => exact iff_of_true ⟨s, rfl⟩ ⟨h, by simp, by simp [hstr]⟩
      | none =>
          rw [Option.none_or, ih]
          simp [Carried, or_and_right, exists_or, hstr]

/-- Cells up to a bound are assigned when one array reaches that far: the arrays
all start at the first cell. -/
theorem storedAfter_assigned_below (hs : List Header) (n : Nat) :
    (∀ i < n, ∃ s, storedAfter E hs i = .str s) ↔ n = 0 ∨ ∃ h ∈ hs, n ≤ h.elems.length := by
  constructor
  · intro hall
    rcases Nat.eq_zero_or_pos n with hn | hn
    · exact Or.inl hn
    -- The array that reaches the last cell reaches all of them.
    · obtain ⟨h, hmem, hlt⟩ := (storedAfter_assigned hs (n - 1)).mp (hall (n - 1) (by omega))
      exact Or.inr ⟨h, hmem, by omega⟩
  · intro hreach i hi
    rcases hreach with rfl | ⟨h, hmem, hle⟩
    · omega
    · exact (storedAfter_assigned hs i).mpr ⟨h, hmem, by omega⟩

/-- **One registration**: it comes out intact, and no store leaves the array,
exactly when the packet is complete. -/
theorem intact_iff_complete (hs : List Header) :
    Intact (regHeaders E hs .init).reg ∧ (regHeaders E hs .init).stray = false ↔
      Complete hs := by
  rw [regHeaders_stray]
  constructor
  · intro h
    obtain ⟨hintact, harrays, hstrings⟩ := h
    rw [regHeaders_reg] at hintact
    obtain ⟨haddress, hport, hname, hcount, ⟨a, ha, hroom⟩, hassigned⟩ := hintact
    refine ⟨(lastStr_assigned _ hs).mp haddress, (lastStr_assigned _ hs).mp hport,
      (lastStr_assigned _ hs).mp hname, ?_, harrays, hstrings⟩
    cases hafter : afterCount hs with
    | none => simp [hafter] at ha
    | some p =>
        obtain ⟨u, after⟩ := p
        simp only [hafter, Option.map_some, Option.some.injEq, Option.getD_some] at ha hcount hroom
        simp only [hafter, Option.map_some, Option.getD_some, ServiceReg.service] at hassigned
        subst ha
        exact ⟨u, after, rfl, hcount, hroom, (storedAfter_assigned_below after _).mp hassigned⟩
  · intro h
    obtain ⟨haddress, hport, hname, ⟨u, after, hafter, hcount, hroom, hreach⟩, harrays,
      hstrings⟩ := h
    refine ⟨?_, harrays, hstrings⟩
    rw [regHeaders_reg, hafter]
    simp only [Option.map_some, Option.getD_some]
    exact ⟨(lastStr_assigned _ hs).mpr haddress, (lastStr_assigned _ hs).mpr hport,
      (lastStr_assigned _ hs).mpr hname, hcount, ⟨_, rfl, hroom⟩,
      (storedAfter_assigned_below after _).mpr hreach⟩

/-- Every registration a server program packs is complete. -/
theorem complete_registration (server : Details) {services : List CString}
    (hlen : services.length < 0x80000000) : Complete (registrationHeaders server services) := by
  have hadv := advertises_registration (E := Libs.reference) server hlen
  obtain ⟨haddress, hport, hname, hcount, ⟨a, ha, hroom⟩, hlisted⟩ := hadv
  rw [← intact_iff_complete (E := Libs.reference), regHeaders_stray]
  refine ⟨?_, arraysFit_registration server hlen, stringArrays_registration server hlen⟩
  generalize (regHeaders Libs.reference (registrationHeaders server services) .init).reg = reg at *
  have hnum : reg.num_services.toNatClampNeg = services.length := by
    rw [Int32.toNatClampNeg, hcount]
    rfl
  refine ⟨⟨_, haddress⟩, ⟨_, hport⟩, ⟨_, hname⟩, ?_, ⟨a, ha, hroom.1, by rw [hnum]; exact hroom.2⟩, ?_⟩
  · rw [Int32.le_iff_toInt_le, hcount]
    exact Int.natCast_nonneg _
  · intro i hi
    have hlt : i < services.reverse.length := by simpa [hnum] using hi
    exact ⟨_, hlisted i _ (List.getElem?_eq_getElem hlt)⟩

/-! ### Runs of registrations -/

/-- A registration never takes an exit, whatever it carries. -/
theorem readData_registration {packet : E.Buffer} {hs : List Header}
    (hcarries : E.Carries packet hs)
    (htype : getReqType E packet = .ok RequestType.serviceRegistration.code) (config : Config) :
    ∃ ack, readData E config packet =
      .ok ({ config with svc_repo := config.svc_repo ++ [(regHeaders E hs .init).reg] }, [ack]) := by
  obtain ⟨ack, hack⟩ := sendSvcReqAck_carries hcarries
  exact ⟨ack, readData_iff.mpr (.registration htype
    (unpackServiceRegistrationBuffer_carries hcarries) hack)⟩

/-- The registry after a run of registrations. -/
theorem run_registrations {packets : List E.Buffer} {hss : List (List Header)}
    (hcarries : List.Forall₂ E.Carries packets hss)
    (htype : ∀ packet ∈ packets,
      getReqType E packet = .ok RequestType.serviceRegistration.code) (config : Config) :
    ∃ outs, brokerRun E config packets =
      .ok ({ config with
        svc_repo := config.svc_repo ++ hss.map fun hs => (regHeaders E hs .init).reg }, outs) := by
  induction hcarries generalizing config with
  | nil => exact ⟨[], by simp [brokerRun]⟩
  | @cons packet hs packets hss hpacket _ ih =>
      obtain ⟨ack, hstep⟩ := readData_registration hpacket (htype packet (List.mem_cons_self ..)) config
      obtain ⟨outs, hrest⟩ := ih (fun p hp => htype p (List.mem_cons_of_mem _ hp))
        { config with svc_repo := config.svc_repo ++ [(regHeaders E hs .init).reg] }
      rw [List.append_assoc, List.singleton_append, ← List.map_cons
        (f := fun hs => (regHeaders E hs .init).reg)] at hrest
      exact ⟨[ack] :: outs, Machine.run_cons.mpr ⟨_, _, _, hstep, hrest, rfl⟩⟩

/-- After the packets every registration in the registry is intact, and no packet
made the decoder store outside an array. -/
def RegistryIntact (E : Libs) (packets : List E.Buffer) : Prop :=
  ∃ config outs, brokerRun E .init packets = .ok (config, outs) ∧
    (∀ reg ∈ config.svc_repo, Intact reg) ∧
    ∀ packet ∈ packets, ∀ scan,
      unpackServiceRegistrationBuffer E packet = .ok scan → scan.stray = false

theorem registryIntact_iff_each {packets : List E.Buffer} {hss : List (List Header)}
    (hcarries : List.Forall₂ E.Carries packets hss)
    (htype : ∀ packet ∈ packets,
      getReqType E packet = .ok RequestType.serviceRegistration.code) :
    RegistryIntact E packets ↔
      ∀ hs ∈ hss, Intact (regHeaders E hs .init).reg ∧ (regHeaders E hs .init).stray = false := by
  obtain ⟨outs, hrun⟩ := run_registrations hcarries htype .init
  have hstray : (∀ packet ∈ packets, ∀ scan,
      unpackServiceRegistrationBuffer E packet = .ok scan → scan.stray = false) ↔
      ∀ hs ∈ hss, (regHeaders E hs .init).stray = false := by
    clear hrun htype
    induction hcarries with
    | nil => simp
    | cons hpacket _ ih =>
        simp only [List.forall_mem_cons, ih, unpackServiceRegistrationBuffer_carries hpacket,
          Except.ok.injEq, forall_eq']
  constructor
  · intro h hs hmem
    obtain ⟨config, outs', hrun', hintact, hinside⟩ := h
    obtain ⟨rfl, -⟩ := Prod.mk.inj (Except.ok.inj (hrun.symm.trans hrun'))
    refine ⟨hintact _ ?_, hstray.mp hinside hs hmem⟩
    exact List.mem_append_right _ (List.mem_map.mpr ⟨hs, hmem, rfl⟩)
  · intro h
    refine ⟨_, outs, hrun, ?_, hstray.mpr fun hs hmem => (h hs hmem).2⟩
    intro reg hreg
    obtain ⟨hs, hmem, rfl⟩ := List.mem_map.mp (by simpa [Config.init] using hreg)
    exact (h hs hmem).1

/-- **Registry integrity.** A run of registrations leaves an intact registry
exactly when every one of its packets is complete. -/
theorem registryIntact_iff (E : Libs) {packets : List E.Buffer} {hss : List (List Header)}
    (hcarries : List.Forall₂ E.Carries packets hss)
    (htype : ∀ packet ∈ packets,
      getReqType E packet = .ok RequestType.serviceRegistration.code) :
    RegistryIntact E packets ↔ ∀ hs ∈ hss, Complete hs := by
  rw [registryIntact_iff_each hcarries htype]
  exact forall₂_congr fun hs _ => intact_iff_complete hs

/-- After the registration of a server the registry is intact. -/
theorem registryIntact_add : RegistryIntact Libs.reference [addRegistration] := by
  have hcarries : List.Forall₂ Libs.reference.Carries [addRegistration]
      [registrationHeaders exampleServer [.lit "add"]] := .cons rfl .nil
  have htype : ∀ packet ∈ [addRegistration],
      getReqType Libs.reference packet = .ok RequestType.serviceRegistration.code := by
    intro packet hmem
    obtain rfl := List.mem_singleton.mp hmem
    rfl
  refine (registryIntact_iff Libs.reference hcarries htype).mpr ?_
  intro hs hmem
  obtain rfl := List.mem_singleton.mp hmem
  exact complete_registration exampleServer (by decide)

/-- A registration that counts two services and carries none. -/
def countWithoutServices : List Header :=
  [.ofInt .requestType RequestType.serviceRegistration.code,
    .ofStr .senderAddress exampleServer.address, .ofStr .replyPort exampleServer.port,
    .ofStr .serviceName (.lit "theServiceName"), .ofInt .servicesCount 2]

/-- Its two services are read before anybody assigned them. -/
theorem registryIntact_countWithoutServices :
    ¬ ∀ (E : Libs) (packets : List E.Buffer) (hss : List (List Header)),
      List.Forall₂ E.Carries packets hss →
      (∀ packet ∈ packets, getReqType E packet = .ok RequestType.serviceRegistration.code) →
      RegistryIntact E packets := by
  intro h
  have hcarries : List.Forall₂ Libs.reference.Carries [packetOf countWithoutServices]
      [countWithoutServices] := .cons rfl .nil
  have htype : ∀ packet ∈ [packetOf countWithoutServices],
      getReqType Libs.reference packet = .ok RequestType.serviceRegistration.code := by
    intro packet hmem
    obtain rfl := List.mem_singleton.mp hmem
    rfl
  have hintact := (registryIntact_iff_each hcarries htype).mp
    (h Libs.reference _ _ hcarries htype) countWithoutServices (List.mem_singleton_self _)
  obtain ⟨s, hs⟩ := hintact.1.assigned 0 (by decide)
  exact absurd hs (by simp [ServiceReg.service, countWithoutServices, regHeaders_reg, afterCount,
    storedAfter, count?_ofInt])

end RpcBroker
