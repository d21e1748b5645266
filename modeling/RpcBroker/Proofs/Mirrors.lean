import RpcBroker.Proofs.Decoders
import RpcBroker.Proofs.Handler
import RpcBroker.Proofs.Messages
import RpcBroker.Proofs.Statements
/-!
# RpcBroker.Proofs.Mirrors

**The database mirrors the registry** as long as the strings of the registrations are
plain (`Plain`): no quote in them, which would end a literal of the statement, and no
percent sign that is not doubled, which would ask `printf` for an argument it does not
have.

Each call of `reg_svc_req` then adds the rows of its registration and is ready for the
next one (`storeRegistration_mirrors`); a run of the handler adds those of all
registrations it adds to the registry (`database_mirrors`).
-/

namespace RpcBroker

open CLib Msgpack Sql

variable {H : Host}

/-! ### Plain registrations -/

/-- Every percent sign in the strings of the registration is doubled. -/
def Doubled (reg : ServiceReg) : Prop := ∀ p ∈ printedPtrs reg, ∃ out, textOf p = escape out

/-- A registration whose texts can be printed, and say what they are meant to. -/
structure Plain (reg : ServiceReg) : Prop where
  strings : HasStrings reg
  unquoted : Unquoted reg
  doubled : Doubled reg

theorem printedPtrs_plain {reg : ServiceReg} {ss : List CString}
    (hprinted : printedPtrs reg = ss.map .str) (hquotes : ∀ s ∈ ss, quote ∉ s.chars)
    (hformats : ∀ s ∈ ss, (printed s.chars).isSome) : Plain reg where
  strings := hasStrings_of_eq hprinted
  unquoted := by
    rw [Unquoted, hprinted]
    exact List.forall_mem_map.mpr hquotes
  doubled := by
    rw [Doubled, hprinted]
    exact List.forall_mem_map.mpr fun s hs => printed_isSome_iff.mp (hformats s hs)

/-- Printing a plain registration is defined. -/
theorem Plain.misprinted {reg : ServiceReg} (h : Plain reg) {store : Store}
    (hstore : store.misprinted = false) : (storeRegistration H store reg).misprinted = false := by
  refine (storeRegistration_misprinted store).mpr ⟨hstore, (statements_print_iff H reg).mpr ?_⟩
  have hstrings : statementStrings H reg = (printedPtrs reg).map H.printed := by
    simp [statementStrings, printedPtrs]
  rw [hstrings]
  refine List.forall_mem_map.mpr fun p hp => ?_
  obtain ⟨s, rfl⟩ := h.strings p hp
  rw [H.printed_str]
  exact h.doubled _ hp

/-! ### Runs -/

/-- The rows of registrations, with ids from `id` on. -/
def registrationRows : Int → List ServiceReg → List Row
  | _, [] => []
  | id, reg :: regs => rowOf textOf id reg :: registrationRows (id + 1) regs

/-- The rows of their services. -/
def serviceRows : Int → List ServiceReg → List Row
  | _, [] => []
  | id, reg :: regs => serviceRowsOf textOf id reg ++ serviceRows (id + 1) regs

/-- From `db` to `db'` exactly the rows of the registrations `regs` were added. -/
structure Mirrors (id : Int) (regs : List ServiceReg) (db db' : Db) : Prop where
  registrations : db'.rows registrationTable = db.rows registrationTable ++ registrationRows id regs
  services : db'.rows servicesTable = db.rows servicesTable ++ serviceRows id regs
  others : ∀ s n, s ≠ .main ∨ (n ≠ registrationTable ∧ n ≠ servicesTable) →
    db'.table s n = db.table s n

theorem Mirrors.nil (id : Int) (db : Db) : Mirrors id [] db db :=
  ⟨(List.append_nil _).symm, (List.append_nil _).symm, fun _ _ _ => rfl⟩

/-- One registration, and then more. -/
theorem Mirrors.cons {id : Int} {reg : ServiceReg} {regs : List ServiceReg} {db db₁ db' : Db}
    (h : Mirrors id [reg] db db₁) (hrest : Mirrors (id + 1) regs db₁ db') :
    Mirrors id (reg :: regs) db db' where
  registrations := by
    rw [hrest.registrations, h.registrations, List.append_assoc]
    rfl
  services := by
    rw [hrest.services, h.services, List.append_assoc]
    simp [serviceRows]
  others s n hn := (hrest.others s n hn).trans (h.others s n hn)

theorem Stored.rows_registrations {db : Db} {registrations services : List Row}
    {var : Option Table} (h : Stored db registrations services var) :
    db.rows registrationTable = registrations := by
  rw [Db.rows, h.registrations]

theorem Stored.rows_services {db : Db} {registrations services : List Row}
    {var : Option Table} (h : Stored db registrations services var) :
    db.rows servicesTable = services := by
  rw [Db.rows, h.services]

theorem Stored.ready {db : Db} {registrations services : List Row}
    (h : Stored db registrations services none) {ids : List Int}
    (hids : intsAt 0 registrations = some ids) : Ready db ids where
  registrations t ht := by
    rw [h.registrations] at ht
    rw [← Option.some.inj ht]
  services t ht := by
    rw [h.services] at ht
    rw [← Option.some.inj ht]
  registrations_temp := h.registrations_temp
  services_temp := h.services_temp
  variables_temp := h.variables_temp
  ids := by rw [h.rows_registrations, hids]

/-- **Each call of `reg_svc_req` adds exactly the rows of its registration**, and is
ready for the next one. -/
theorem storeRegistration_mirrors {store : Store} {ids : List Int} (h : Ready store.db ids)
    {reg : ServiceReg} (hplain : Plain reg) :
    Mirrors (nextAfter ids) [reg] store.db (storeRegistration H store reg).db ∧
      (storeRegistration H store reg).reported = store.reported ∧
      Ready (storeRegistration H store reg).db (ids ++ [nextAfter ids]) := by
  have hadds := storeRegistration_adds (H := H)
    (literals_unquoted hplain.strings hplain.unquoted) h
  have hstored := hadds.stored
  refine ⟨⟨hstored.rows_registrations, ?_, ?_⟩, hadds.reported,
    hstored.ready (intsAt_append h.ids rfl)⟩
  · rw [hstored.rows_services, serviceRows, serviceRows, List.append_nil]
  · intro s n hn
    by_cases hvar : s = .temp ∧ n = variablesTable
    · obtain ⟨rfl, rfl⟩ := hvar
      rw [hstored.variables_temp, h.variables_temp]
    · refine hadds.others s n ⟨?_, ?_, ?_⟩
      · exact hn.imp id And.left
      · exact hn.imp id And.right
      · exact Decidable.not_and_iff_or_not.mp hvar

variable {E : Libs}

/-- `reg_svc_req` with its database is `reg_svc_req`, and stores the registration it
adds. -/
theorem readDataStored_eq_ok {state state' : Config × Store} {packet : E.Buffer}
    {sents : List (Sent E.Buffer)} (h : readDataStored E H state packet = .ok (state', sents)) :
    readData E state.1 packet = .ok (state'.1, sents) ∧
      ((∃ scan, getReqType E packet = .ok RequestType.serviceRegistration.code ∧
          unpackServiceRegistrationBuffer E packet = .ok scan ∧
          state'.1.svc_repo = state.1.svc_repo ++ [scan.reg] ∧
          state'.2 = storeRegistration H state.2 scan.reg) ∨
        (state'.1.svc_repo = state.1.svc_repo ∧ state'.2 = state.2)) := by
  obtain ⟨t, htype, h⟩ := bind_eq_ok.mp h
  by_cases ht : t = RequestType.serviceRegistration.code
  · subst ht
    simp only [if_true, regSvcReqStored, bind_eq_ok, pure_eq_ok] at h
    obtain ⟨_, ⟨scan, hscan, ack, hack, rfl⟩, h⟩ := h
    obtain ⟨rfl, rfl⟩ := Prod.mk.inj h
    exact ⟨readData_iff.mpr (.registration htype hscan hack),
      Or.inl ⟨scan, htype, hscan, rfl, rfl⟩⟩
  · rw [if_neg ht, bind_eq_ok] at h
    obtain ⟨⟨config', sents'⟩, hread, h⟩ := h
    obtain ⟨rfl, rfl⟩ := Prod.mk.inj (pure_eq_ok.mp h)
    refine ⟨hread, Or.inr ⟨?_, rfl⟩⟩
    cases readData_iff.mp hread with
    | request => rfl
    | registration hreg => exact absurd (Except.ok.inj (htype.symm.trans hreg)) ht
    | response => rfl
    | ignored => rfl

/-- The registrations among the packets, as they are decoded. -/
def Registered (E : Libs) (packets : List E.Buffer) (reg : ServiceReg) : Prop :=
  ∃ packet ∈ packets, ∃ scan, getReqType E packet = .ok RequestType.serviceRegistration.code ∧
    unpackServiceRegistrationBuffer E packet = .ok scan ∧ scan.reg = reg

theorem Registered.cons {packet : E.Buffer} {packets : List E.Buffer} {reg : ServiceReg}
    (h : Registered E packets reg) : Registered E (packet :: packets) reg := by
  obtain ⟨p, hmem, hscan⟩ := h
  exact ⟨p, List.mem_cons_of_mem _ hmem, hscan⟩

/-- **The database mirrors the registry.** In a run in which every registration is plain,
the rows added to the database are, one to one and in order, those of the registrations
added to the registry; no other row changes, no error is reported, and everything that is
printed has a defined output. -/
theorem database_mirrors (E : Libs) (H : Host) {config config' : Config} {store store' : Store}
    {packets : List E.Buffer} {outs : List (List (Sent E.Buffer))} {ids : List Int}
    (hready : Ready store.db ids) (hplain : ∀ reg, Registered E packets reg → Plain reg)
    (hrun : Machine.run (readDataStored E H) (config, store) packets =
      .ok ((config', store'), outs)) :
    ∃ regs, config'.svc_repo = config.svc_repo ++ regs ∧
      Mirrors (nextAfter ids) regs store.db store'.db ∧ store'.reported = store.reported ∧
      (store.misprinted = false → store'.misprinted = false) := by
  induction packets generalizing config store outs ids with
  | nil =>
      obtain ⟨rfl, rfl⟩ := Prod.mk.inj (Prod.mk.inj (Except.ok.inj hrun)).1
      exact ⟨[], (List.append_nil _).symm, .nil _ _, rfl, id⟩
  | cons packet packets ih =>
      obtain ⟨⟨config₁, store₁⟩, sents, outs', hstep, hrest, -⟩ := Machine.run_cons.mp hrun
      have hplain' := fun reg hreg => hplain reg (Registered.cons hreg)
      rcases (readDataStored_eq_ok hstep).2 with ⟨scan, htype, hscan, hrepo, hstore⟩ | ⟨hrepo, hstore⟩
      · have hreg : Plain scan.reg :=
          hplain _ ⟨packet, List.mem_cons_self .., scan, htype, hscan, rfl⟩
        obtain ⟨hmirrors, hreported, hready'⟩ := storeRegistration_mirrors (H := H) hready hreg
        obtain rfl : store₁ = _ := hstore
        obtain ⟨regs, hregs, hrestMirrors, hrestReported, hrestPrinted⟩ := ih hready' hplain' hrest
        rw [nextAfter_append] at hrestMirrors
        exact ⟨scan.reg :: regs, by rw [hregs, hrepo, List.append_assoc]; rfl,
          hmirrors.cons hrestMirrors, hrestReported.trans hreported,
          fun hprinted => hrestPrinted (hreg.misprinted hprinted)⟩
      · obtain rfl : store₁ = store := hstore
        obtain ⟨regs, hregs, hmirrors, hreported, hprinted⟩ := ih hready hplain' hrest
        exact ⟨regs, by rw [hregs, hrepo], hmirrors, hreported, hprinted⟩

/-- A host that knows the fragment and reports an error on everything else. -/
def Host.reference : Host where
  exec db text :=
    match interp db text with
    | some db' => (db', true)
    | none => (db, false)
  exec_interp h := by simp only [h]
  printed
    | .str s => s
    | _ => .empty
  printed_str _ := rfl

/-- A new database. -/
def newStore : Store := ⟨⟨fun _ _ => none⟩, 0, false⟩

theorem ready_newStore : Ready newStore.db [] :=
  ⟨fun _ h => absurd h (by simp [newStore]), fun _ h => absurd h (by simp [newStore]),
    rfl, rfl, rfl, rfl⟩

/-- The run of a single registration. -/
theorem run_registration (config : Config) (store : Store) {packet : E.Buffer} {scan : RegScan}
    {ack : Sent E.Buffer}
    (htype : getReqType E packet = .ok RequestType.serviceRegistration.code)
    (hscan : unpackServiceRegistrationBuffer E packet = .ok scan)
    (hack : sendSvcReqAck E packet = .ok ack) :
    Machine.run (readDataStored E H) (config, store) [packet] =
      .ok (({ config with svc_repo := config.svc_repo ++ [scan.reg] },
        storeRegistration H store scan.reg), [[ack]]) := by
  have hstep : readDataStored E H (config, store) packet =
      .ok (({ config with svc_repo := config.svc_repo ++ [scan.reg] },
        storeRegistration H store scan.reg), [ack]) := by
    simp only [readDataStored, regSvcReqStored, htype, hscan, hack, bind, Except.bind, if_true,
      pure, Except.pure]
  exact Machine.run_cons.mpr ⟨_, _, _, hstep, rfl, rfl⟩

/-- The registration of a packet is the only one in the run of that packet alone. -/
theorem Registered.eq {packet : E.Buffer} {scan : RegScan} {reg : ServiceReg}
    (h : Registered E [packet] reg) (hscan : unpackServiceRegistrationBuffer E packet = .ok scan) :
    reg = scan.reg := by
  obtain ⟨p, hmem, scan', -, hscan', rfl⟩ := h
  obtain rfl := List.mem_singleton.mp hmem
  obtain rfl := Except.ok.inj (hscan.symm.trans hscan')
  rfl

/-- What is written for the registration of `add`. -/
theorem database_mirrors_add :
    ∃ config store outs, Machine.run (readDataStored Libs.reference Host.reference)
        (.init, newStore) [addRegistration] = .ok ((config, store), outs) ∧
      ∃ regs, config.svc_repo = Config.init.svc_repo ++ regs ∧
        Mirrors (nextAfter []) regs newStore.db store.db ∧ store.reported = newStore.reported ∧
        (newStore.misprinted = false → store.misprinted = false) := by
  have htype : getReqType Libs.reference addRegistration =
      .ok RequestType.serviceRegistration.code := rfl
  have hscan : unpackServiceRegistrationBuffer Libs.reference addRegistration =
      .ok (regHeaders Libs.reference (registrationHeaders exampleServer [.lit "add"]) .init) :=
    unpackServiceRegistrationBuffer_carries rfl
  have hplain : Plain
      (regHeaders Libs.reference (registrationHeaders exampleServer [.lit "add"]) .init).reg :=
    have hprinted : printedPtrs
        (regHeaders Libs.reference (registrationHeaders exampleServer [.lit "add"]) .init).reg =
        [CString.lit "theServiceName", exampleServer.address, exampleServer.port,
          .lit "add"].map .str := by decide +kernel
    printedPtrs_plain hprinted (by decide +kernel) (by decide +kernel)
  have hrun := run_registration (H := Host.reference) .init newStore htype hscan rfl
  exact ⟨_, _, _, hrun, database_mirrors Libs.reference Host.reference ready_newStore
    (fun reg hreg => hreg.eq hscan ▸ hplain) hrun⟩

/-- A registration whose name has two quotes in it. -/
def quotedHeaders : List Header :=
  [.ofInt .requestType RequestType.serviceRegistration.code,
    .ofStr .senderAddress exampleServer.address, .ofStr .replyPort exampleServer.port,
    .ofStr .serviceName (.lit "it''s"), .ofInt .servicesCount 0, .ofArray .services []]

/-- What its strings stand for in a statement. -/
def quotedText (p : Ptr) : List UInt8 :=
  if p = .str (.lit "it''s") then (CString.lit "it's").chars else textOf p

/-- **The row differs from the registration.** -/
theorem database_mirrors_quoted :
    ¬ ∀ (E : Libs) (H : Host) (config config' : Config) (store store' : Store)
        (packets : List E.Buffer) (outs : List (List (Sent E.Buffer))) (ids : List Int),
      Ready store.db ids →
      (∀ reg, Registered E packets reg → HasStrings reg ∧ Doubled reg) →
      Machine.run (readDataStored E H) (config, store) packets = .ok ((config', store'), outs) →
      ∃ regs, config'.svc_repo = config.svc_repo ++ regs ∧
        Mirrors (nextAfter ids) regs store.db store'.db := by
  intro h
  have hscan : unpackServiceRegistrationBuffer Libs.reference (packetOf quotedHeaders) =
      .ok (regHeaders Libs.reference quotedHeaders .init) :=
    unpackServiceRegistrationBuffer_carries rfl
  have hrun := run_registration (H := Host.reference) .init newStore
    (show getReqType Libs.reference (packetOf quotedHeaders) = _ from rfl) hscan rfl
  have hprinted : printedPtrs (regHeaders Libs.reference quotedHeaders .init).reg =
      [.lit "it''s", exampleServer.address, exampleServer.port].map .str := by
    decide +kernel
  have hdoubled : Doubled (regHeaders Libs.reference quotedHeaders .init).reg := by
    rw [Doubled, hprinted]
    exact List.forall_mem_map.mpr fun s hs =>
      printed_isSome_iff.mp ((by decide +kernel : ∀ s ∈ [CString.lit "it''s",
        exampleServer.address, exampleServer.port], (printed s.chars).isSome) s hs)
  obtain ⟨regs, hregs, hmirrors⟩ := h _ _ _ _ _ _ _ _ [] ready_newStore
    (fun reg hreg => hreg.eq hscan ▸ ⟨hasStrings_of_eq hprinted, hdoubled⟩) hrun
  obtain rfl : [(regHeaders Libs.reference quotedHeaders .init).reg] = regs := hregs
  have hliterals : Literals Host.reference quotedText
      (regHeaders Libs.reference quotedHeaders .init).reg := by
    show ∀ p ∈ printedPtrs _, _
    rw [hprinted]
    decide +kernel
  have hrows := hmirrors.registrations
  rw [(storeRegistration_adds hliterals ready_newStore).stored.rows_registrations] at hrows
  exact absurd hrows (by decide +kernel)

end RpcBroker
