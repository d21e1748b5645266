import RpcBroker.Proofs.Pending
/-!
# RpcBroker.Proofs.Isolation

**Clients with disjoint keys do not interfere.** Split the keys into two
groups and run the broker a second time without the requests and responses of
one of them: the other group does not notice.

The relation between the two runs (`SameFor`) is that the registries are equal
and the second pending list is the first one without the group that is left out.
A packet of the group that stays finds the same server and the same client in
both lists; a packet of the other group changes only the part of the first list
that the relation does not look at.
-/

namespace RpcBroker

open CLib Msgpack Matching

variable {E : Libs} {group : Key → Bool}

/-- Does the event concern a key of the group? Registrations concern everybody. -/
def Event.concerns (group : Key → Bool) : Event → Bool
  | .asked r => group r.key
  | .answered k => group k
  | .other => true

/-- The requests of the group. -/
def ofGroup (group : Key → Bool) (rs : List Request) : List Request :=
  rs.filter fun r => group r.key

/-- The second broker has the same registry, and of the pending requests of the
first those of the group. -/
def SameFor (group : Key → Bool) (s t : Config) : Prop :=
  ∃ rs : List Request, s.svc_repo = t.svc_repo ∧ s.clnt_req_repo = rs.map Request.entry ∧
    t.clnt_req_repo = (ofGroup group rs).map Request.entry

/-! ### The group's own keys -/

theorem find?_ofGroup {k : Key} (hk : group k = true) (rs : List Request) :
    (ofGroup group rs).find? (Request.hasKey k) = rs.find? (Request.hasKey k) := by
  rw [ofGroup, List.find?_filter]
  congr 1
  funext r
  by_cases hr : r.key = k
  · simp [Request.hasKey, hr, hk]
  · simp [Request.hasKey, hr]

theorem eraseP_ofGroup {k : Key} (hk : group k = true) (rs : List Request) :
    (ofGroup group rs).eraseP (Request.hasKey k) = ofGroup group (rs.eraseP (Request.hasKey k)) := by
  rw [ofGroup, List.eraseP_filter, ofGroup]
  congr 2
  funext r
  by_cases hr : r.key = k
  · simp [Request.hasKey, hr, hk]
  · simp [Request.hasKey, hr]

/-! ### One packet -/

/-- A packet that concerns the group is handled alike by both brokers. -/
theorem sameFor_kept {s t s' : Config} {packet : E.Buffer} {event : Event}
    {sent : List (Sent E.Buffer)} (hread : Reads E packet event)
    (hgroup : event.concerns group = true) (hst : SameFor group s t)
    (h : readData E s packet = .ok (s', sent)) :
    ∃ t', readData E t packet = .ok (t', sent) ∧ SameFor group s' t' := by
  obtain ⟨rs, hrepo, hs, ht⟩ := hst
  have hstep : Handled E s packet s' sent := readData_iff.mp h
  cases hread with
  | @asked r htype hrequest =>
      obtain ⟨rfl, op_name, hop, rfl⟩ := handled_asked (.asked htype hrequest) hstep
      rw [hrepo]
      refine ⟨_, readData_iff.mpr (.request htype hrequest hop), rs ++ [r], rfl, ?_, ?_⟩
      · simp only [hs, List.map_append, List.map_cons, List.map_nil]
      · have hr : group r.key = true := hgroup
        simp [ofGroup, List.filter_append, hr, ht]
  | @answered k htype hid hop =>
      obtain ⟨rfl, rfl⟩ := handled_answered (.answered htype hid hop) hstep
      -- All matches are in the group, so both searches find the same entry.
      have hclient : clientFor E k.message_id (.str k.operation) s.clnt_req_repo =
          clientFor E k.message_id (.str k.operation) t.clnt_req_repo := by
        rw [hs, ht, clientFor_map_entry, clientFor_map_entry, find?_ofGroup hgroup]
      rw [hclient]
      refine ⟨_, readData_iff.mpr (.response htype fun _ => ⟨hid, hop⟩),
        rs.eraseP (Request.hasKey k), hrepo, ?_, ?_⟩
      · simp only [hs, List.eraseP_map, answers_comp_entry]
      · simp only [ht, List.eraseP_map, answers_comp_entry, eraseP_ofGroup hgroup]
  | other htype hreq hresp =>
      cases hstep with
      | request htype' => exact absurd (Except.ok.inj (htype.symm.trans htype')) hreq
      | response htype' => exact absurd (Except.ok.inj (htype.symm.trans htype')) hresp
      | registration htype' hscan hack =>
          exact ⟨_, readData_iff.mpr (.registration htype' hscan hack), rs, by simp [hrepo], hs, ht⟩
      | ignored htype' hreq' hreg' hresp' =>
          exact ⟨t, readData_iff.mpr (.ignored htype' hreq' hreg' hresp'), rs, hrepo, hs, ht⟩

/-- A packet of the other group leaves the relation as it is. -/
theorem sameFor_dropped {s t s' : Config} {packet : E.Buffer} {event : Event}
    {sent : List (Sent E.Buffer)} (hread : Reads E packet event)
    (hgroup : event.concerns group = false) (hst : SameFor group s t)
    (h : readData E s packet = .ok (s', sent)) : SameFor group s' t := by
  obtain ⟨rs, hrepo, hs, ht⟩ := hst
  have hstep : Handled E s packet s' sent := readData_iff.mp h
  cases event with
  | asked r =>
      obtain ⟨rfl, -⟩ := handled_asked hread hstep
      have hr : group r.key = false := hgroup
      refine ⟨rs ++ [r], hrepo, ?_, ?_⟩
      · simp only [hs, List.map_append, List.map_cons, List.map_nil]
      · simpa [ofGroup, List.filter_append, hr] using ht
  | answered k =>
      obtain ⟨rfl, -⟩ := handled_answered hread hstep
      have hk : group k = false := hgroup
      refine ⟨rs.eraseP (Request.hasKey k), hrepo, ?_, ?_⟩
      · simp only [hs, List.eraseP_map, answers_comp_entry]
      · -- Whatever is erased has the key `k`, which is not in the group.
        rw [ht, ofGroup, ofGroup, filter_eraseP]
        intro r hr
        have hkey : r.key = k := by simpa [Request.hasKey] using hr
        rw [hkey, hk]
  | other => exact absurd hgroup (by simp [Event.concerns])

/-! ### Whole runs -/

/-- **Groups with disjoint keys do not interfere.** Start from any state whose
pending requests have an operation, and let `keep` single out the packets that
concern the group. Without the other packets, and without the other group's
pending requests at the start, the broker gets through the rest and sends, for
every packet that is left, exactly what it sent before; and the group's pending
requests are the same at the end. -/
theorem groups_do_not_interfere (E : Libs) (group : Key → Bool) (keep : E.Buffer → Bool)
    {packets : List E.Buffer} {config config' : Config} {outs : List (List (Sent E.Buffer))}
    {pending : List Request} (hpending : config.clnt_req_repo = pending.map Request.entry)
    (hkeep : ∀ packet ∈ packets, ∃ event, Reads E packet event ∧
      keep packet = event.concerns group)
    (hrun : brokerRun E config packets = .ok (config', outs)) :
    ∃ pending' configA, config'.clnt_req_repo = pending'.map Request.entry ∧
      brokerRun E ⟨config.svc_repo, (ofGroup group pending).map Request.entry⟩
        (packets.filter keep) = .ok (configA, Machine.keptOutputs keep packets outs) ∧
      configA.clnt_req_repo = (ofGroup group pending').map Request.entry := by
  have hstart : SameFor group config
      ⟨config.svc_repo, (ofGroup group pending).map Request.entry⟩ :=
    ⟨pending, rfl, hpending, rfl⟩
  have hfilter := Machine.run_filter (p := keep) hrun hstart
    (fun s t packet s' sent hmem hp hst h => by
      obtain ⟨event, hread, hevent⟩ := hkeep packet hmem
      exact sameFor_kept hread (hevent ▸ hp) hst h)
    (fun s t packet s' sent hmem hp hst h => by
      obtain ⟨event, hread, hevent⟩ := hkeep packet hmem
      exact sameFor_dropped hread (hevent ▸ hp) hst h)
  obtain ⟨configA, hrunA, pending', -, hpending', hpendingA⟩ := hfilter
  exact ⟨pending', configA, hpending', hrunA, hpendingA⟩

/-- Between the request for `add` and its response, another client asks for `add`
under the id 8 and is answered. Without it the response goes where it went. -/
theorem groups_do_not_interfere_add :
    ∃ configA, brokerRun Libs.reference .init
        ([addRequest, packetOf (requestHeaders exampleServer 8 (.lit "add") []),
          packetOf (responseHeaders (.lit "add") 8 (.int 0)), addResponse].filter fun packet =>
            (getHdrInt Libs.reference packet Hdr.messageId.text).toOption == some 7) =
        .ok (configA, [[], [⟨addResponse, exampleClient.location⟩]]) ∧
      configA.clnt_req_repo = [] := by
  have hkeep : ∀ packet ∈ [addRequest, packetOf (requestHeaders exampleServer 8 (.lit "add") []),
      packetOf (responseHeaders (.lit "add") 8 (.int 0)), addResponse],
      ∃ event, Reads Libs.reference packet event ∧
        ((getHdrInt Libs.reference packet Hdr.messageId.text).toOption == some 7) =
          event.concerns fun k => k.message_id == 7 := by
    intro packet hmem
    simp only [List.mem_cons, List.not_mem_nil, or_false] at hmem
    rcases hmem with rfl | rfl | rfl | rfl
    · exact ⟨.asked ⟨exampleClient.location, ⟨7, .lit "add"⟩⟩, .asked rfl ⟨rfl, rfl, rfl, rfl⟩, rfl⟩
    · exact ⟨.asked ⟨exampleServer.location, ⟨8, .lit "add"⟩⟩, .asked rfl ⟨rfl, rfl, rfl, rfl⟩, rfl⟩
    · exact ⟨.answered ⟨8, .lit "add"⟩, .answered rfl rfl rfl, rfl⟩
    · exact ⟨.answered ⟨7, .lit "add"⟩, .answered rfl rfl rfl, rfl⟩
  have hstart : Config.init.clnt_req_repo = ([] : List Request).map Request.entry := rfl
  obtain ⟨pending', configA, hpending', hrunA, hpendingA⟩ :=
    groups_do_not_interfere Libs.reference _ _ hstart hkeep rfl
  obtain rfl : pending' = [] := List.map_eq_nil_iff.mp hpending'.symm
  exact ⟨configA, hrunA, hpendingA⟩

end RpcBroker
