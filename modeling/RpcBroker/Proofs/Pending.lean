import RpcBroker.Proofs.Handler
import RpcBroker.Proofs.Messages
/-!
# RpcBroker.Proofs.Pending

The **pending requests** over whole runs: the list the broker keeps is, after
every packet, what the history of the run leaves pending.

The relation `Holds` between a configuration and a history is kept by each kind
of packet (`holds_record`); `Machine.run_refines` carries it along a run. What a
response is forwarded to is then read off the history, where an entry has a
position and cannot be taken twice.
-/

namespace RpcBroker

open CLib Msgpack Matching

variable {E : Libs}

/-- The broker's list is what the history leaves pending. -/
def Holds (config : Config) (L : Ledger Request) : Prop :=
  config.clnt_req_repo = L.pending.map Request.entry

/-- The broker's comparison is equality of keys. -/
theorem answers_entry (k : Key) (r : Request) :
    answers E k.message_id (.str k.operation) r.entry = Request.hasKey k r := by
  obtain ⟨source, key⟩ := r
  obtain ⟨id, op⟩ := key
  obtain ⟨id', op'⟩ := k
  simp only [answers, Request.entry, Request.hasKey, Stulibc.strEquals_str, Key.mk.injEq,
    eq_comm, Bool.decide_and]

theorem answers_comp_entry (k : Key) :
    answers E k.message_id (.str k.operation) ∘ Request.entry = Request.hasKey k :=
  funext (answers_entry k)

/-- The search for the client of a response, on entries made from requests. -/
theorem clientFor_map_entry (k : Key) (rs : List Request) :
    clientFor E k.message_id (.str k.operation) (rs.map Request.entry) =
      match rs.find? (Request.hasKey k) with
      | some r => r.source
      | none => ⟨.unassigned, .unassigned⟩ := by
  rw [clientFor, List.find?_map, answers_comp_entry]
  cases rs.find? (Request.hasKey k) with
  | none => rfl
  | some r => rfl

/-! ### One packet -/

/-- Handling a packet does to the broker's list what its event does to the
history. -/
theorem holds_record {config config' : Config} {packet : E.Buffer} {event : Event}
    {sent : List (Sent E.Buffer)} {L : Ledger Request} (hread : Reads E packet event)
    (hL : Holds config L) (h : readData E config packet = .ok (config', sent)) :
    Holds config' (record L event) := by
  have hstep : Handled E config packet config' sent := readData_iff.mp h
  unfold Holds at hL ⊢
  cases event with
  | asked r =>
      obtain ⟨rfl, -⟩ := handled_asked hread hstep
      simp only [record, Ledger.pending_arrive, List.map_append, hL, List.map_cons, List.map_nil]
  | answered k =>
      obtain ⟨rfl, -⟩ := handled_answered hread hstep
      rw [record, Ledger.pending_take, hL, List.eraseP_map, answers_comp_entry]
  | other =>
      rw [handled_other hread hstep, hL]
      rfl

/-- What one packet does to the history, and, if it is a response to a pending
request, where it is sent. -/
inductive Matched (E : Libs) (packet : E.Buffer) (L : Ledger Request) :
    Event → Ledger Request → List (Sent E.Buffer) → Prop
  /-- A request arrives; nothing is taken. -/
  | asked {r : Request} {L' : Ledger Request} {sent : List (Sent E.Buffer)}
      (harrived : L'.arrived = L.arrived ++ [r]) (htaken : L'.taken = L.taken) :
      Matched E packet L (.asked r) L' sent
  /-- The oldest pending request with the response's key is taken, and the
  packet goes to where exactly that request came from. -/
  | answered {k : Key} {r : Request} {i : Nat} {L' : Ledger Request}
      (hr : L.arrived[i]? = some r) (hfree : i ∉ L.taken) (hkey : r.key = k)
      (holdest : ∀ j r', j < i → L.arrived[j]? = some r' → j ∉ L.taken → r'.key ≠ k)
      (harrived : L'.arrived = L.arrived) (htaken : L'.taken = L.taken ++ [i]) :
      Matched E packet L (.answered k) L' [⟨packet, r.source⟩]
  /-- No pending request has the response's key; none is taken. -/
  | unmatched {k : Key} {sent : List (Sent E.Buffer)} (hnone : ∀ r ∈ L.pending, r.key ≠ k) :
      Matched E packet L (.answered k) L sent
  /-- Any other packet leaves the history alone. -/
  | other {sent : List (Sent E.Buffer)} : Matched E packet L .other L sent

theorem matched_record {config config' : Config} {packet : E.Buffer} {event : Event}
    {sent : List (Sent E.Buffer)} {L : Ledger Request} (hread : Reads E packet event)
    (hL : Holds config L) (h : readData E config packet = .ok (config', sent)) :
    Matched E packet L event (record L event) sent := by
  have hstep : Handled E config packet config' sent := readData_iff.mp h
  cases event with
  | asked r => exact .asked rfl rfl
  | other => exact .other
  | answered k =>
      -- The broker's search is one in the pending list, so it finds the oldest match.
      obtain ⟨-, rfl⟩ := handled_answered hread hstep
      rw [hL, clientFor_map_entry, Ledger.find?_pending, record]
      cases hold : L.oldest (Request.hasKey k) with
      | none =>
          rw [Ledger.take_none hold]
          refine .unmatched ?_
          intro r hr
          simpa [Request.hasKey] using Ledger.oldest_eq_none.mp hold r hr
      | some e =>
          obtain ⟨r, i⟩ := e
          obtain ⟨harrived, htaken⟩ := Ledger.take_some hold
          obtain ⟨hr, hfree, hkey, hbefore⟩ := Ledger.oldest_eq_some hold
          refine .answered hr hfree (by simpa [Request.hasKey] using hkey) ?_ harrived htaken
          intro j r' hj hr' hfree'
          simpa [Request.hasKey] using hbefore j r' hj hr' hfree'

/-! ### Whole runs -/

/-- After any run, the broker's list is what the history leaves pending. -/
theorem run_holds {packets : List E.Buffer} {events : List Event}
    {config : Config} {outs : List (List (Sent E.Buffer))}
    (hreads : List.Forall₂ (Reads E) packets events)
    (hrun : brokerRun E .init packets = .ok (config, outs)) : Holds config (ledger events) :=
  Machine.run_refines hrun hreads rfl fun _ _ _ _ _ _ => holds_record

/-- **Pending requests are matched.** Take any run from empty repositories and
look at its last packet. Before and after it, the broker's list is, in order,
the requests that arrived so far without those taken. A response takes the oldest
pending request with its key, if there is one, and goes, as the packet it is, to
where that request came from. Pending requests with another key keep their
order. -/
theorem pending_requests_matched (E : Libs) {packets : List E.Buffer} {packet : E.Buffer}
    {events : List Event} {event : Event} {config : Config} {outs : List (List (Sent E.Buffer))}
    (hreads : List.Forall₂ (Reads E) packets events) (hread : Reads E packet event)
    (hrun : brokerRun E .init (packets ++ [packet]) = .ok (config, outs)) :
    ∃ before sents sent, brokerRun E .init packets = .ok (before, sents) ∧
      readData E before packet = .ok (config, sent) ∧ outs = sents ++ [sent] ∧
      before.clnt_req_repo = (ledger events).pending.map Request.entry ∧
      config.clnt_req_repo = (ledger (events ++ [event])).pending.map Request.entry ∧
      (ledger events).arrived = events.filterMap Event.request? ∧
      Matched E packet (ledger events) event (ledger (events ++ [event])) sent ∧
      (∀ k, event = .answered k →
        (ledger (events ++ [event])).pending.filter (fun r => decide (r.key ≠ k)) =
          (ledger events).pending.filter fun r => decide (r.key ≠ k)) ∧
      (event = .other → config.clnt_req_repo = before.clnt_req_repo) := by
  obtain ⟨before, sents, sent, hbefore, hstep, rfl⟩ := Machine.run_concat.mp hrun
  have hL : Holds before (ledger events) := run_holds hreads hbefore
  have hL' : Holds config (ledger (events ++ [event])) := by
    rw [ledger_concat]
    exact holds_record hread hL hstep
  have hmatched := matched_record hread hL hstep
  rw [← ledger_concat] at hmatched
  refine ⟨before, sents, sent, hbefore, hstep, rfl, hL, hL', ledger_arrived events, hmatched,
    ?_, ?_⟩
  · intro k hk
    rw [hk, ledger_concat, record, Ledger.pending_take]
    refine filter_eraseP ?_ _
    intro r hr
    simpa [Request.hasKey] using hr
  · intro hother
    exact handled_other (hother ▸ hread) (readData_iff.mp hstep)

/-- A request for `add` and the response to it: nothing is left pending. -/
theorem pending_requests_matched_add :
    Matched Libs.reference addResponse
      (ledger [.asked ⟨exampleClient.location, ⟨7, .lit "add"⟩⟩]) (.answered ⟨7, .lit "add"⟩)
      (ledger ([.asked ⟨exampleClient.location, ⟨7, .lit "add"⟩⟩] ++ [.answered ⟨7, .lit "add"⟩]))
      [⟨addResponse, exampleClient.location⟩] := by
  have hrun : brokerRun Libs.reference .init ([addRequest] ++ [addResponse]) =
      .ok (.init, [[], [⟨addResponse, exampleClient.location⟩]]) := rfl
  have hasked : Reads Libs.reference addRequest
      (.asked ⟨exampleClient.location, ⟨7, .lit "add"⟩⟩) := .asked rfl ⟨rfl, rfl, rfl, rfl⟩
  have hanswered : Reads Libs.reference addResponse (.answered ⟨7, .lit "add"⟩) :=
    .answered rfl rfl rfl
  obtain ⟨before, sents, sent, -, -, houts, -, -, -, hmatched, -⟩ :=
    pending_requests_matched Libs.reference (.cons hasked .nil) hanswered hrun
  have hsent : sent = [⟨addResponse, exampleClient.location⟩] := by
    have hlast := congrArg List.getLast? houts
    simpa [eq_comm] using hlast
  exact hsent ▸ hmatched

end RpcBroker
