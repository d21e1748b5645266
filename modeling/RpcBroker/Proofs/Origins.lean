import RpcBroker.Proofs.Registry
/-!
# RpcBroker.Proofs.Origins

**Where the pending entries come from.** Every entry was read from a request
packet by four readers, each of which has its own way of finding nothing. An
absent `op`, `sender-address` or `reply-port` leaves the entry with a pointer
nobody assigned, and the search for a server compares with no operation at all.

The entries hold only what the packets said exactly in the runs whose requests
carry all three (`fromPackets_iff`).
-/

namespace RpcBroker

open CLib Msgpack

variable {E : Libs}

/-! ### Comparisons -/

/-- Every comparison of the search is with the operation. -/
theorem fst_of_mem_serverComparisons {op_name : Ptr} {svc_repo : List ServiceReg} {pair : Ptr × Ptr}
    (h : pair ∈ serverComparisons E op_name svc_repo) : pair.1 = op_name := by
  have hsub : ∀ pairs, pair ∈ comparedPairs E pairs → pair ∈ pairs := by
    intro pairs
    induction pairs with
    | nil => exact id
    | cons p pairs ih =>
        rw [comparedPairs]
        split
        · intro hmem
          exact List.mem_cons.mpr (Or.inl (List.mem_singleton.mp hmem))
        · intro hmem
          exact (List.mem_cons.mp hmem).elim (fun heq => heq ▸ List.mem_cons_self ..)
            fun hrest => List.mem_cons_of_mem _ (ih hrest)
  obtain ⟨reg, -, hpair⟩ := List.mem_flatMap.mp (hsub _ h)
  obtain ⟨i, -, rfl⟩ := List.mem_map.mp hpair
  rfl

/-- The search finds a server when the last of its comparisons succeeds. -/
theorem serverComparisons_found {op_name : Ptr} {svc_repo : List ServiceReg} :
    (∃ pair ∈ serverComparisons E op_name svc_repo, E.strEquals pair.1 pair.2 = true) ↔
      ∃ reg ∈ svc_repo, listsService E op_name reg = true := by
  have hiff : ∀ pairs, (∃ pair ∈ comparedPairs E pairs, E.strEquals pair.1 pair.2 = true) ↔
      ∃ pair ∈ pairs, E.strEquals pair.1 pair.2 = true := by
    intro pairs
    induction pairs with
    | nil => exact Iff.rfl
    | cons p pairs ih =>
        rw [comparedPairs]
        by_cases hp : E.strEquals p.1 p.2 = true
        · rw [if_pos hp]
          exact iff_of_true ⟨p, List.mem_singleton_self p, hp⟩ ⟨p, List.mem_cons_self .., hp⟩
        · rw [if_neg hp, List.exists_mem_cons_iff, List.exists_mem_cons_iff, ih]
  rw [serverComparisons, hiff]
  simp only [List.mem_flatMap, List.mem_map, listsService, List.any_eq_true]
  constructor
  · rintro ⟨_, ⟨reg, hreg, i, hi, rfl⟩, heq⟩
    exact ⟨reg, hreg, i, hi, heq⟩
  · rintro ⟨reg, hreg, i, hi, heq⟩
    exact ⟨_, ⟨reg, hreg, i, hi, rfl⟩, heq⟩

/-! ### The packet an entry comes from -/

/-- The packet, a request, was handled in this run of `packets`, and `entry` is what
it put at the end of the pending list. -/
structure Created (E : Libs) (packets : List E.Buffer) (packet : E.Buffer) (entry : ClientReg) :
    Prop where
  type : getReqType E packet = .ok RequestType.serviceRequest.code
  handled : ∃ before after config outs sent, packets = before ++ packet :: after ∧
    brokerRun E .init before = .ok (config, outs) ∧
    readData E config packet =
      .ok ({ config with clnt_req_repo := config.clnt_req_repo ++ [entry] }, sent)

/-- A packet handled as a request creates the entry it is read as. -/
theorem created_of_handled {before : List E.Buffer} {packet : E.Buffer} {config config' : Config}
    {outs : List (List (Sent E.Buffer))} {sent : List (Sent E.Buffer)}
    (htype : getReqType E packet = .ok RequestType.serviceRequest.code)
    (hrun : brokerRun E .init before = .ok (config, outs))
    (hstep : readData E config packet = .ok (config', sent)) :
    ∃ entry, RequestRead E packet entry ∧
      config' = { config with clnt_req_repo := config.clnt_req_repo ++ [entry] } ∧
      Created E (before ++ [packet]) packet entry := by
  cases readData_iff.mp hstep with
  | @request entry op_name _ hread hop =>
      exact ⟨entry, hread, rfl, htype, before, [], config, outs, _, rfl, hrun, hstep⟩
  | registration htype' => exact absurd (reqType_unique htype htype') (by decide)
  | response htype' => exact absurd (reqType_unique htype htype') (by decide)
  | ignored htype' hreq => exact absurd (Except.ok.inj (htype'.symm.trans htype)) hreq

/-- An entry stays created when the run goes on. -/
theorem Created.append {packets : List E.Buffer} {packet : E.Buffer} {entry : ClientReg}
    (h : Created E packets packet entry) (more : List E.Buffer) :
    Created E (packets ++ more) packet entry := by
  obtain ⟨htype, before, after, config, outs, sent, rfl, hrun, hstep⟩ := h
  exact ⟨htype, before, after ++ more, config, outs, sent, by simp, hrun, hstep⟩

/-- **Every pending entry was created** by a packet of the run. -/
theorem exists_created {packets : List E.Buffer} {config : Config}
    {outs : List (List (Sent E.Buffer))} (hrun : brokerRun E .init packets = .ok (config, outs)) :
    ∀ entry ∈ config.clnt_req_repo, ∃ packet ∈ packets, Created E packets packet entry := by
  induction packets using List.reverseRecOn generalizing config outs with
  | nil =>
      obtain ⟨rfl, -⟩ := Prod.mk.inj (Except.ok.inj hrun)
      simp [Config.init]
  | append_singleton packets last ih =>
      obtain ⟨config₀, outs₀, sent, hbefore, hstep, -⟩ := Machine.run_concat.mp hrun
      have hold : ∀ entry ∈ config₀.clnt_req_repo,
          ∃ packet ∈ packets ++ [last], Created E (packets ++ [last]) packet entry := by
        intro entry hentry
        obtain ⟨packet, hpacket, hcreated⟩ := ih hbefore entry hentry
        exact ⟨packet, List.mem_append_left _ hpacket, hcreated.append _⟩
      intro entry hentry
      cases readData_iff.mp hstep with
      | @request new op_name htype hread hop =>
          rcases List.mem_append.mp hentry with hentry | hentry
          · exact hold entry hentry
          · obtain rfl := List.mem_singleton.mp hentry
            obtain ⟨_, hread', -, hcreated⟩ := created_of_handled htype hbefore hstep
            rw [hread'.unique hread] at hcreated
            exact ⟨last, by simp, hcreated⟩
      | registration => exact hold entry hentry
      | response => exact hold entry (List.mem_of_mem_eraseP hentry)
      | ignored => exact hold entry hentry

/-! ### What the packets said -/

/-- The pointer is to a string the packet carries under the name. -/
def SaidUnder (E : Libs) (packet : E.Buffer) (k : Hdr) (p : Ptr) : Prop :=
  ∃ h ∈ headersIn E packet, ∃ s, h.str? k.text = some s ∧ p = .str s

/-- In the run of `packets`, in every state it reaches, the pending entries hold what
the packets that created them said; and the search for the server of a request
compares with nothing but an operation its packet said. -/
structure FromPackets (E : Libs) (packets : List E.Buffer) : Prop where
  entries : ∀ before after config outs, packets = before ++ after →
    brokerRun E .init before = .ok (config, outs) → ∀ entry ∈ config.clnt_req_repo,
    ∃ packet ∈ before, Created E before packet entry ∧
      SaidUnder E packet .senderAddress entry.address ∧
      SaidUnder E packet .replyPort entry.port ∧ SaidUnder E packet .operation entry.operation
  comparisons : ∀ before packet after config outs r, packets = before ++ packet :: after →
    brokerRun E .init before = .ok (config, outs) → readData E config packet = .ok r →
    getReqType E packet = .ok RequestType.serviceRequest.code →
    ∀ op_name, getOpName E packet = .ok op_name →
    ∀ pair ∈ serverComparisons E op_name config.svc_repo, SaidUnder E packet .operation pair.1

/-- A request that says all of it. -/
structure SaysAll (E : Libs) (packet : E.Buffer) : Prop where
  address : Carried Hdr.senderAddress.text (headersIn E packet)
  port : Carried Hdr.replyPort.text (headersIn E packet)
  operation : Carried Hdr.operation.text (headersIn E packet)

/-- The requests handled in the run say all of it. -/
def RequestsSayAll (E : Libs) (packets : List E.Buffer) : Prop :=
  ∀ before packet after config outs r, packets = before ++ packet :: after →
    brokerRun E .init before = .ok (config, outs) → readData E config packet = .ok r →
    getReqType E packet = .ok RequestType.serviceRequest.code → SaysAll E packet

/-- `get_hdr_str` returns a string the packet said if it said one, and no string
otherwise. -/
theorem saidUnder_iff_carried {packet : E.Buffer} {k : Hdr} {p : Ptr}
    (hentries : Entries E (E.unpack packet).objects (headersIn E packet))
    (hread : getHdrStr E packet k.text = .ok p) :
    (∃ s, p = .str s) ↔ Carried k.text (headersIn E packet) := by
  rw [getHdrStr_entries hentries] at hread
  obtain rfl := Except.ok.inj hread
  have hsome : (firstStr k.text (headersIn E packet)).isSome ↔
      Carried k.text (headersIn E packet) := by
    rw [firstStr, List.findSome?_isSome_iff]
    rfl
  rw [← hsome]
  cases firstStr k.text (headersIn E packet) <;> simp [strResult]

theorem saidUnder_of_carried {packet : E.Buffer} {k : Hdr} {p : Ptr}
    (hentries : Entries E (E.unpack packet).objects (headersIn E packet))
    (hread : getHdrStr E packet k.text = .ok p) (hcarried : Carried k.text (headersIn E packet)) :
    SaidUnder E packet k p := by
  obtain ⟨s, rfl⟩ := (saidUnder_iff_carried hentries hread).mpr hcarried
  rw [getHdrStr_entries hentries] at hread
  have hfirst : firstStr k.text (headersIn E packet) = some s := by
    cases hfound : firstStr k.text (headersIn E packet) with
    | none => simp [hfound, strResult] at hread
    | some t => simpa [hfound] using hread
  obtain ⟨h, hmem, hstr⟩ := List.exists_of_findSome?_eq_some hfirst
  exact ⟨h, hmem, s, hstr, rfl⟩

/-- The operation a request is routed by. -/
theorem getOpName_saidUnder {packet : E.Buffer} {op_name : Ptr}
    (hentries : Entries E (E.unpack packet).objects (headersIn E packet))
    (hop : getOpName E packet = .ok op_name)
    (hcarried : Carried Hdr.operation.text (headersIn E packet)) :
    SaidUnder E packet .operation op_name := by
  obtain ⟨h, hmem, hsome⟩ := hcarried
  obtain ⟨s, hfirst⟩ : ∃ s, firstStr Hdr.operation.text (headersIn E packet) = some s := by
    rw [← Option.isSome_iff_exists, firstStr, List.findSome?_isSome_iff]
    exact ⟨h, hmem, hsome⟩
  rw [getOpName, getOpNameLoop_entries hentries, hfirst] at hop
  obtain rfl := Except.ok.inj hop
  obtain ⟨g, hg, hstr⟩ := List.exists_of_findSome?_eq_some hfirst
  exact ⟨g, hg, s, hstr, rfl⟩

/-- **Pending entries hold only what the packets said exactly when every request
handled says all of it**: it carries a string under each of `op`, `sender-address`
and `reply-port`. -/
theorem fromPackets_iff (E : Libs) (packets : List E.Buffer) :
    FromPackets E packets ↔ RequestsSayAll E packets := by
  constructor
  · intro h before packet after config outs r hsplit hrun hstep htype
    obtain ⟨config', sent⟩ := r
    obtain ⟨entry, hread, rfl, -⟩ := created_of_handled htype hrun hstep
    have hprefix : brokerRun E .init (before ++ [packet]) =
        .ok ({ config with clnt_req_repo := config.clnt_req_repo ++ [entry] }, outs ++ [sent]) :=
      Machine.run_concat.mpr ⟨config, outs, sent, hrun, hstep, rfl⟩
    obtain ⟨-, -, -, ⟨_, -, address, -, haddress⟩, ⟨_, -, port, -, hport⟩, ⟨_, -, op, -, hop⟩⟩ :=
      h.entries _ after _ _ (by simp [hsplit]) hprefix entry (by simp)
    obtain ⟨-, hentries, -⟩ := getHdrInt_eq_ok.mp hread.message_id
    exact ⟨(saidUnder_iff_carried hentries hread.address).mp ⟨address, haddress⟩,
      (saidUnder_iff_carried hentries hread.port).mp ⟨port, hport⟩,
      (saidUnder_iff_carried hentries hread.operation).mp ⟨op, hop⟩⟩
  · intro h
    refine ⟨?_, ?_⟩
    · intro before after config outs hsplit hrun entry hentry
      obtain ⟨packet, hpacket, hcreated⟩ := exists_created hrun entry hentry
      obtain ⟨htype, pre, post, config₀, outs₀, sent, hbefore, hrun₀, hstep⟩ := id hcreated
      obtain ⟨new, hread, hnew, -⟩ := created_of_handled htype hrun₀ hstep
      obtain rfl : entry = new := by simpa using congrArg Config.clnt_req_repo hnew
      have hsays := h pre packet (post ++ after) config₀ outs₀ _ (by simp [hsplit, hbefore]) hrun₀
        hstep htype
      obtain ⟨-, hentries, -⟩ := getHdrInt_eq_ok.mp hread.message_id
      exact ⟨packet, hpacket, hcreated, saidUnder_of_carried hentries hread.address hsays.address,
        saidUnder_of_carried hentries hread.port hsays.port,
        saidUnder_of_carried hentries hread.operation hsays.operation⟩
    · intro before packet after config outs r hsplit hrun hstep htype op_name hop pair hpair
      have hsays := h before packet after config outs r hsplit hrun hstep htype
      obtain ⟨new, hread, -, -⟩ := created_of_handled htype hrun hstep
      obtain ⟨-, hentries, -⟩ := getHdrInt_eq_ok.mp hread.message_id
      rw [fst_of_mem_serverComparisons hpair]
      exact getOpName_saidUnder hentries hop hsays.operation

/-- A request without an operation. -/
def namelessRequest : List Header :=
  [.ofInt .requestType RequestType.serviceRequest.code, .ofInt .messageId 7,
    .ofStr .senderAddress exampleClient.address, .ofStr .replyPort exampleClient.port,
    .ofArray .serviceParams []]

/-- It is recorded under an operation nobody read. -/
theorem fromPackets_nameless : ¬ ∀ (E : Libs) (packets : List E.Buffer), FromPackets E packets := by
  intro h
  have hrun : brokerRun Libs.reference .init [packetOf namelessRequest] =
      .ok (⟨[], [⟨.str exampleClient.address, .str exampleClient.port, .unassigned, 7⟩]⟩, [[]]) :=
    rfl
  obtain ⟨-, -, -, -, -, -, -, s, -, hop⟩ := (h Libs.reference [packetOf namelessRequest]).entries _
    [] _ _ rfl hrun _ (List.mem_singleton_self _)
  exact absurd hop (by simp)

end RpcBroker
