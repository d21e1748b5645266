import RpcBroker.Model.StubCalls
import RpcBroker.Proofs.Interleavings
import RpcBroker.Proofs.Orders
/-!
# RpcBroker.Proofs.StubCalls

**The atomic call is no simplification.** Every run in which the steps of the stubs are
apart is matched by a run of the system, in which a call sends and waits at once, and every
run of the system by one of the other kind (`stub_calls_refine`). What a thread has yet to
send counts as under way, and a packet that finds nobody listening as lost. So what holds
of every run of the system holds here; in particular a stub that returned with the answer
to its own call has no thread left that would still send from its stack
(`answered_thread_done`), though its thread may still be about to look there once more.
-/

namespace RpcBroker

open CLib Msgpack Machine

variable {E : Libs} {w : World}

/-! ### The system can do what the abstract one does -/

theorem brokerReceives_of_handles {s : Net E} {m : Flight E.Buffer} {e : Effect E}
    (h : s.parties.brokerHandles m = some e) : ∃ t, brokerReceives s m = some t := by
  unfold Parties.brokerHandles at h
  split at h
  next config sents hread =>
      have hread' : readData E s.config m.sent.packet = .ok (config, sents) := hread
      exact ⟨_, by rw [brokerReceives, hread']⟩
  next => exact absurd h (by simp)

theorem serverReceives_of_handles {s : Net E} {d : Details} {node : ServerNode}
    {m : Flight E.Buffer} {e : Effect E} (h : s.parties.serverHandles w d node m = some e) :
    ∃ t, serverReceives w d node s m = some t := by
  unfold Parties.serverHandles at h
  split at h
  next isRegistered sents hread =>
      have hread' : readAndProcessDataOnSocket E node.program w.broker (s.registered d)
          m.sent.packet = .ok (some (isRegistered, sents)) := hread
      exact ⟨_, by rw [serverReceives, hread']⟩
  next => exact absurd h (by simp)

theorem clientReceives_of_handles {s : Net E} {d : Details} {m : Flight E.Buffer}
    {e : Effect E} (h : s.parties.clientHandles d m = some e) :
    ∃ t, clientReceives d s m = some t := by
  unfold Parties.clientHandles at h
  rw [clientReceives]
  cases hwaiting : s.waiting d with
  | none => exact ⟨s, rfl⟩
  | some n =>
      have hwaiting' : s.parties.waiting d = some n := hwaiting
      rw [hwaiting'] at h
      obtain ⟨call, hcall, hreturn⟩ := Option.bind_eq_some_iff.mp h
      have hcall' : s.calls[n]? = some call := hcall
      cases hread : stubReturn E call.ret m.sent.packet with
      | error e => rw [hread] at hreturn; exact absurd hreturn (by simp)
      | ok value =>
          exact ⟨_, by simp only [hcall', Option.bind_eq_bind, Option.bind_some, hread]; rfl⟩

/-- What can be handled is received. -/
theorem receive_of_handles {s : Net E} {m : Flight E.Buffer} {e : Effect E}
    (h : s.parties.handles w m = some e) : ∃ t, receive w s m = some t := by
  cases hd : m.sent.dest.details? with
  | none => exact ⟨s, by simp only [receive, hd]⟩
  | some d =>
      simp only [Parties.handles, hd] at h
      simp only [receive, hd]
      by_cases hbroker : d = w.broker
      · rw [if_pos hbroker] at h ⊢
        exact brokerReceives_of_handles h
      · rw [if_neg hbroker] at h ⊢
        cases hserver : w.server d with
        | some node =>
            rw [hserver] at h
            exact serverReceives_of_handles h
        | none =>
            rw [hserver] at h
            exact clientReceives_of_handles h

/-- Who handles a packet takes it. -/
theorem takes_of_handles {s : Net E} {m : Flight E.Buffer} {e : Effect E}
    (h : s.parties.handles w m = some e) : e.takes = {m} := by
  obtain ⟨t, ht⟩ := receive_of_handles h
  obtain ⟨e', he', htakes, -⟩ := receive_parties ht
  rwa [Option.some.inj (h.symm.trans he')]

/-- A step that is this act leads where the act does. -/
theorem parties_unique {s t : Net E} {a : Action} {act : Act E.Buffer} {q : Parties E}
    (hstep : step w s a = some t) (hact : s.act? a = some act) (h : s.parties.Move w act q) :
    t.parties = q := by
  obtain ⟨act', hact', hmove⟩ := step_parties hstep
  obtain rfl : act = act' := Option.some.inj (hact.symm.trans hact')
  exact (concurrent_parties w).deterministic hmove h

/-- A packet that is taken stands at some position. -/
theorem exists_getElem?_of_takes {s : Net E} {m : Flight E.Buffer}
    {rest : Multiset (Flight E.Buffer)} (h : s.parties.flight = {m} + rest) :
    ∃ i : Nat, s.flight[i]? = some m := by
  have hmem : m ∈ s.parties.flight :=
    h ▸ Multiset.mem_add.mpr (.inl (Multiset.mem_singleton_self m))
  exact List.mem_iff_getElem?.mp (Multiset.mem_coe.mp hmem)

/-- **Every step of the abstract system is one of the system.** -/
theorem step_of_move {s : Net E} {act : Act E.Buffer} {q : Parties E}
    (h : s.parties.Move w act q) : ∃ a t, step w s a = some t ∧ t.parties = q := by
  suffices hstep : ∃ a t, step w s a = some t ∧ s.act? a = some act by
    obtain ⟨a, t, ht, hact⟩ := hstep
    exact ⟨a, t, ht, parties_unique ht hact h⟩
  obtain ⟨e, rest, he, hrest, -⟩ := h
  cases act with
  | call client rand op params ret args =>
      rw [Parties.effect] at he
      split at he
      next hcond =>
          obtain ⟨ts, hts, -⟩ := Option.bind_eq_some_iff.mp he
          exact ⟨.call client rand op params ret args, _,
            (if_pos hcond).trans (by rw [hts]; rfl), rfl⟩
      next => exact absurd he (by simp)
  | register d =>
      obtain ⟨node, hnode, hrest⟩ := Option.bind_eq_some_iff.mp he
      obtain ⟨ts, hts, -⟩ := Option.bind_eq_some_iff.mp hrest
      refine ⟨.register d, s.send none [⟨E.pack ts, w.broker.location⟩], ?_, rfl⟩
      rw [step, hnode, Option.bind_eq_bind, Option.bind_some, hts]
      rfl
  | timeout d =>
      rw [Parties.effect] at he
      split at he
      next hwaiting => exact ⟨.timeout d, _, if_pos hwaiting, rfl⟩
      next => exact absurd he (by simp)
  | deliver m =>
      rw [takes_of_handles he] at hrest
      obtain ⟨i, hi⟩ := exists_getElem?_of_takes hrest
      have he' : ({ s with flight := s.flight.eraseIdx i } : Net E).parties.handles w m = some e :=
        he
      obtain ⟨t, ht⟩ := receive_of_handles he'
      exact ⟨.deliver i, t, (step_deliver hi).trans ht, by rw [Net.act?, hi]; rfl⟩
  | lose m =>
      obtain rfl := Option.some.inj he
      obtain ⟨i, hi⟩ := exists_getElem?_of_takes hrest
      exact ⟨.lose i, _, if_pos (List.getElem?_eq_some_iff.mp hi).1, by rw [Net.act?, hi]; rfl⟩

/-! ### Packets that are not looked at -/

/-- More packets under way. -/
def Parties.more (p : Parties E) (extra : Multiset (Flight E.Buffer)) : Parties E :=
  { p with flight := p.flight + extra }

theorem Parties.Move.more {p q : Parties E} {act : Act E.Buffer} (h : p.Move w act q)
    (extra : Multiset (Flight E.Buffer)) : (p.more extra).Move w act (q.more extra) := by
  obtain ⟨e, rest, he, hrest, rfl⟩ := h
  have he' : (p.more extra).effect w act = some e := by
    cases act <;> exact he
  refine ⟨e, rest + extra, he', ?_, ?_⟩
  · rw [Parties.more, hrest, add_assoc]
  · rw [Effect.apply, Effect.apply]
    cases e.write <;> simp [Parties.more, Write.apply, add_right_comm]

/-! ### The refinement -/

/-- The state of the system model: what the threads have yet to send is under way. -/
def StubNet.parties (s : StubNet E) : Parties E := s.toNet.parties.more s.threads

/-- A step of the system, with the threads' packets. -/
theorem run_after {s : StubNet E} {t : Net E} {a : Action} (h : step w s.toNet a = some t) :
    ∃ acts, Run (fun (p : Parties E) act q => p.Move w act q) s.parties acts
      (s.after t).parties := by
  obtain ⟨act, -, hmove⟩ := step_parties h
  exact ⟨[act], .single (hmove.more _)⟩

/-- **Every step of a stub is a step of the system model, or none.** -/
theorem stubStep_parties {s t : StubNet E} {a : StubAction} (h : stubStep w s a = some t) :
    ∃ acts, Run (fun (p : Parties E) act q => p.Move w act q) s.parties acts t.parties := by
  cases a with
  | call client rand op params ret args =>
      rw [stubStep] at h
      split at h
      next hcond =>
          obtain ⟨ts, hts, heq⟩ := Option.bind_eq_some_iff.mp h
          obtain rfl := Option.some.inj heq
          have heffect : s.parties.effect w (.call client rand op params ret args) =
              some { write := .waiting client (some s.calls.length)
                     calls := [⟨client, rand, op, args, ret⟩]
                     sends := {⟨⟨E.pack ts, w.broker.location⟩, some s.calls.length⟩} } :=
            (if_pos hcond).trans (by rw [hts]; rfl)
          refine ⟨[.call client rand op params ret args], .single (move_of_takes heffect rfl ?_)⟩
          simp [StubNet.parties, Parties.more, Net.parties, Effect.apply, Write.apply,
            ← Multiset.coe_add, add_assoc]
      next => exact absurd h (by simp)
  | send j =>
      obtain ⟨m, hm, hrest⟩ := Option.bind_eq_some_iff.mp h
      obtain ⟨call, -, hsend⟩ := Option.bind_eq_some_iff.mp hrest
      split at hsend
      next =>
          obtain rfl := Option.some.inj hsend
          have hsame : s.parties =
              ({ s with
                threads := s.threads.eraseIdx j
                sent := s.sent ++ [m.call]
                flight := s.flight ++ [m] } : StubNet E).parties := by
            simp [StubNet.parties, Parties.more, Net.parties, ← Multiset.coe_add, add_assoc,
              coe_of_getElem? hm]
          exact ⟨[], hsame ▸ .nil _⟩
      next => exact absurd hsend (by simp)
  | finish j =>
      rw [stubStep] at h
      split at h
      next =>
          obtain rfl := Option.some.inj h
          exact ⟨[], .nil _⟩
      next => exact absurd h (by simp)
  | listen client =>
      rw [stubStep] at h
      split at h
      next =>
          obtain rfl := Option.some.inj h
          exact ⟨[], .nil _⟩
      next => exact absurd h (by simp)
  | register d =>
      obtain ⟨u, hu, rfl⟩ := Option.map_eq_some_iff.mp h
      exact run_after hu
  | timeout client =>
      rw [stubStep] at h
      split at h
      next =>
          obtain ⟨u, hu, rfl⟩ := Option.map_eq_some_iff.mp h
          exact run_after hu
      next => exact absurd h (by simp)
  | deliver i =>
      obtain ⟨m, -, hrest⟩ := Option.bind_eq_some_iff.mp h
      -- A packet that finds nobody listening is lost.
      split at hrest
      next =>
          obtain ⟨u, hu, rfl⟩ := Option.map_eq_some_iff.mp hrest
          exact run_after hu
      next =>
          obtain ⟨u, hu, rfl⟩ := Option.map_eq_some_iff.mp hrest
          exact run_after hu
  | lose i =>
      obtain ⟨u, hu, rfl⟩ := Option.map_eq_some_iff.mp h
      exact run_after hu

theorem parties_init : (StubNet.init : StubNet E).parties = (Net.init : Net E).parties := by
  simp [StubNet.parties, Parties.more, Net.parties, StubNet.init, Net.init]

/-- What the states have in common. -/
structure Matches (t : Net E) (s : StubNet E) : Prop where
  config : t.config = s.config
  registered : t.registered = s.registered
  waiting : t.waiting = s.waiting
  calls : t.calls = s.calls
  flight : t.flight.Perm (s.flight ++ s.threads)
  returned : t.returned.Perm s.returned

theorem matches_of_parties {t : Net E} {s : StubNet E} (h : t.parties = s.parties) :
    Matches t s := by
  obtain ⟨hconfig, hregistered, hwaiting, hcalls, hflight, hreturned⟩ :=
    (Parties.mk.injEq ..).mp h
  refine ⟨hconfig, hregistered, hwaiting, hcalls, ?_, Multiset.coe_eq_coe.mp hreturned⟩
  exact Multiset.coe_eq_coe.mp (hflight.trans (Multiset.coe_add ..))

/-- Every run of the stubs' steps is matched by a run of the system. -/
theorem exists_matches {s : StubNet E} {actions : List StubAction}
    (h : actions.foldlM (stubStep w) .init = some s) :
    ∃ (schedule : List Action) (t : Net E), schedule.foldlM (step w) .init = some t ∧
      Matches t s := by
  obtain ⟨acts, hrun⟩ := Run.of_schedule (fun _ _ _ => stubStep_parties) h
  obtain ⟨schedule, t, ht, heq⟩ :=
    hrun.exists_schedule (fun _ _ _ => step_of_move) parties_init.symm
  exact ⟨schedule, t, ht, matches_of_parties heq⟩

/-! ### The other way -/

/-- Every stub that waits listens, and no thread is left. -/
def Net.settled (s : Net E) : StubNet E :=
  { s with listening := fun d => (s.waiting d).isSome, threads := [], sent := [] }

theorem waiting_of_done {waiting : Details → Option Nat} {c d : Details}
    (h : (Function.update waiting c none d).isSome) : (waiting d).isSome := by
  rw [Function.update_apply] at h
  split at h
  next => exact absurd h (by simp)
  next => exact h

theorem waiting_of_clientReceives {c d : Details} {s t : Net E} {m : Flight E.Buffer}
    (h : clientReceives c s m = some t) (hd : (t.waiting d).isSome) : (s.waiting d).isSome := by
  unfold clientReceives at h
  split at h
  next => exact Option.some.inj h ▸ hd
  next n hn =>
      obtain ⟨call, -, h⟩ := Option.bind_eq_some_iff.mp h
      split at h
      next =>
          obtain rfl := Option.some.inj h
          exact waiting_of_done hd
      next => exact absurd h (by simp)

/-- A packet makes nobody wait. -/
theorem waiting_of_receive {s t : Net E} {m : Flight E.Buffer} (h : receive w s m = some t)
    {d : Details} (hd : (t.waiting d).isSome) : (s.waiting d).isSome := by
  unfold receive at h
  split at h
  next => exact Option.some.inj h ▸ hd
  next =>
      split at h
      next =>
          obtain ⟨config, sents, -, rfl⟩ := brokerReceives_some h
          exact hd
      next =>
          split at h
          next =>
              obtain ⟨isRegistered, sents, -, rfl⟩ := serverReceives_some h
              exact hd
          next => exact waiting_of_clientReceives h hd

/-- A step in which nobody starts to wait, with all sockets open. -/
theorem after_settled {s t : Net E} {a : Action} (h : step w s a = some t)
    (hwaits : ∀ d, (t.waiting d).isSome → (s.waiting d).isSome) :
    (step w s.settled.toNet a).map s.settled.after = some t.settled := by
  have hstep : step w s.settled.toNet a = some t := h
  have hlistening : (s.settled.after t).listening = t.settled.listening := by
    funext d
    show ((s.waiting d).isSome && (t.waiting d).isSome) = (t.waiting d).isSome
    cases hd : (t.waiting d).isSome with
    | false => exact Bool.and_false _
    | true => rw [hwaits d hd]; rfl
  rw [hstep, Option.map_some, StubNet.after, Net.settled]
  exact congrArg (fun l => some ({ t with listening := l, threads := [], sent := [] } : StubNet E))
    hlistening

/-- A packet that reaches nobody is lost either way. -/
theorem receive_of_not_reaches {s : Net E} {m : Flight E.Buffer}
    (h : ¬ s.settled.reaches w m) : receive w s m = some s := by
  cases hd : m.sent.dest.details? with
  | none => simp only [receive, hd]
  | some d =>
      obtain ⟨⟨hbroker, hserver⟩, hlistens⟩ : (d ≠ w.broker ∧ w.server d = none) ∧
          s.waiting d = none := by
        simpa [StubNet.reaches, hd, Net.settled] using h
      simp only [receive, hd, if_neg hbroker, hserver, clientReceives, hlistens]

/-- A call that sends at once is one whose thread sends and ends, and whose stub listens,
before anything else happens. -/
theorem call_settled {s t : Net E} {client : Details} {rand : Int32} {op : CString}
    {params : List Param} {ret : CType} {args : List Arg}
    (h : step w s (.call client rand op params ret args) = some t) :
    [StubAction.call client rand op params ret args, .send 0, .finish 0,
      .listen client].foldlM (stubStep w) s.settled = some t.settled := by
  rw [step] at h
  split at h
  next hcond =>
      obtain ⟨ts, hts, heq⟩ := Option.bind_eq_some_iff.mp h
      obtain rfl := Option.some.inj heq
      have hidle : (s.waiting client).isSome = false := by
        rw [Option.isNone_iff_eq_none.mp hcond.2.1]
        rfl
      have hlistening : Function.update (fun d => (s.waiting d).isSome) client true =
          fun d => (Function.update s.waiting client (some s.calls.length) d).isSome :=
        (Function.comp_update Option.isSome s.waiting client (some s.calls.length)).symm
      refine schedule_cons.mpr ⟨_, (if_pos hcond).trans (by rw [hts]; rfl), ?_⟩
      refine schedule_cons.mpr ⟨{ s.settled with
        waiting := Function.update s.waiting client (some s.calls.length)
        calls := s.calls ++ [⟨client, rand, op, args, ret⟩]
        sent := [some s.calls.length]
        flight := s.flight ++ [⟨⟨E.pack ts, w.broker.location⟩, some s.calls.length⟩] },
        ?_, schedule_cons.mpr ⟨_, rfl, schedule_cons.mpr ⟨_, ?_, rfl⟩⟩⟩
      · simp [stubStep, Net.settled]
      · simp [stubStep, Net.settled, Net.send, hidle, hlistening]
  next => exact absurd h (by simp)

/-- **Every step of the system is a run of the stubs' steps.** -/
theorem step_settled {s t : Net E} {a : Action} (h : step w s a = some t) :
    ∃ actions : List StubAction, actions.foldlM (stubStep w) s.settled = some t.settled := by
  cases a with
  | call client rand op params ret args => exact ⟨_, call_settled h⟩
  | register d =>
      obtain ⟨node, -, hrest⟩ := Option.bind_eq_some_iff.mp h
      obtain ⟨ts, -, heq⟩ := Option.bind_eq_some_iff.mp hrest
      have hsame : t.waiting = s.waiting := by rw [← Option.some.inj heq]; rfl
      exact ⟨[.register d], schedule_cons.mpr
        ⟨_, after_settled h fun d hd => hsame ▸ hd, rfl⟩⟩
  | timeout client =>
      obtain ⟨hwaiting, rfl⟩ : (s.waiting client).isSome ∧ t =
          { s with waiting := Function.update s.waiting client none } := by
        rw [step] at h
        split at h
        next hwaiting => exact ⟨hwaiting, (Option.some.inj h).symm⟩
        next => exact absurd h (by simp)
      refine ⟨[.timeout client], schedule_cons.mpr ⟨_, ?_, rfl⟩⟩
      exact (if_pos hwaiting).trans (after_settled h fun d hd => waiting_of_done hd)
  | deliver i =>
      obtain ⟨m, hm, hreceive⟩ := Option.bind_eq_some_iff.mp h
      refine ⟨[.deliver i], schedule_cons.mpr ⟨_, ?_, rfl⟩⟩
      have hm' : s.settled.flight[i]? = some m := hm
      rw [stubStep, hm', Option.bind_eq_bind, Option.bind_some]
      split
      next => exact after_settled h fun d hd => waiting_of_receive hreceive hd
      next hreaches =>
          have hreaches' :
              ¬ ({ s with flight := s.flight.eraseIdx i } : Net E).settled.reaches w m := hreaches
          have hlost : step w s (.lose i) = some t :=
            (if_pos (List.getElem?_eq_some_iff.mp hm).1).trans
              ((receive_of_not_reaches hreaches').symm.trans hreceive)
          exact after_settled hlost fun d hd => waiting_of_receive hreceive hd
  | lose i =>
      have hsame : t.waiting = s.waiting := by
        rw [step] at h
        split at h
        next => rw [← Option.some.inj h]
        next => exact absurd h (by simp)
      exact ⟨[.lose i], schedule_cons.mpr ⟨_, after_settled h fun d hd => hsame ▸ hd, rfl⟩⟩

/-- Every run of the system is a run of the stubs' steps. -/
theorem exists_settled {t : Net E} {schedule : List Action}
    (h : schedule.foldlM (step w) .init = some t) :
    ∃ actions : List StubAction, actions.foldlM (stubStep w) .init = some t.settled := by
  have hstep (s : Net E) (a : Action) (u : Net E) (hu : step w s a = some u) :
      ∃ actions, Run (fun s x t => stubStep w s x = some t) s.settled actions u.settled := by
    obtain ⟨actions, hactions⟩ := step_settled hu
    exact ⟨actions, Run.of_steps_iff.mpr hactions⟩
  obtain ⟨actions, hrun⟩ := Run.of_schedule hstep h
  exact ⟨actions, Run.of_steps_iff.mp hrun⟩

/-! ### The results -/

/-- **The atomic call is no simplification**: what a run reaches in which the steps of the
stubs are apart, a run of the system reaches, and the other way round. -/
theorem stub_calls_refine (E : Libs) (w : World) :
    (∀ (actions : List StubAction) (s : StubNet E),
      actions.foldlM (stubStep w) .init = some s →
        ∃ (schedule : List Action) (t : Net E),
          schedule.foldlM (step w) .init = some t ∧ Matches t s) ∧
    ∀ (schedule : List Action) (t : Net E), schedule.foldlM (step w) .init = some t →
      ∃ (actions : List StubAction) (s : StubNet E),
        actions.foldlM (stubStep w) .init = some s ∧ s.toNet = t ∧ s.threads = [] ∧
          s.sent = [] := by
  refine ⟨fun actions s => exists_matches, ?_⟩
  intro schedule t h
  obtain ⟨actions, hactions⟩ := exists_settled h
  exact ⟨actions, t.settled, hactions, rfl, rfl, rfl⟩

/-- The first call of a client process, as in `callAdd`. -/
def stubAdd (client : Details) (x y : Int32) : StubAction :=
  .call client 1804289383 (.lit "add") [⟨.int, .lit "num1"⟩, ⟨.int, .lit "num2"⟩] .int
    [.int x, .int y]

/-- A request is with the broker before its stub listens. -/
theorem stub_calls_refine_late :
    ∃ s : StubNet Libs.reference, s.returned = [⟨0, some 0, .int 219⟩] ∧
      ∃ (schedule : List Action) (t : Net Libs.reference),
        schedule.foldlM (step addWorld) .init = some t ∧ Matches t s := by
  have hrun : ([.register exampleServer, .deliver 0, .deliver 0, stubAdd exampleClient 20 199,
      .send 0, .deliver 0, .listen exampleClient, .deliver 0, .deliver 0, .deliver 0].foldlM
        (stubStep addWorld) (.init : StubNet Libs.reference)).map (fun s => s.returned) =
      some [⟨0, some 0, .int 219⟩] := rfl
  obtain ⟨s, hs, hreturned⟩ := Option.map_eq_some_iff.mp hrun
  exact ⟨s, hreturned, (stub_calls_refine _ addWorld).1 _ s hs⟩

/-- **A stub that got its own answer has no thread that would still send**: of the packets
that threads have yet to send, those under way and the answers taken no two belong to one
call. -/
theorem answered_thread_done (E : Libs) (w : World) {s : StubNet E} {actions : List StubAction}
    (h : actions.foldlM (stubStep w) .init = some s) :
    ((s.flight ++ s.threads).filterMap Flight.call ++ s.returned.filterMap Return.taken).Nodup ∧
      ∀ r ∈ s.returned, r.taken = some r.call → ∀ m ∈ s.threads, m.call ≠ some r.call := by
  obtain ⟨schedule, t, ht, hmatches⟩ := exists_matches h
  obtain ⟨ways, pend, htraffic⟩ := exists_traffic (reached_of_schedule ht)
  have honce : ((s.flight ++ s.threads).filterMap Flight.call ++
      s.returned.filterMap Return.taken).Nodup :=
    (((hmatches.flight.filterMap _).append (hmatches.returned.filterMap _)).nodup_iff).mp
      htraffic.once
  refine ⟨honce, ?_⟩
  intro r hr htaken m hm hcall
  refine (List.nodup_append.mp honce).2.2 r.call ?_ r.call ?_ rfl
  · exact List.mem_filterMap.mpr ⟨m, List.mem_append_right _ hm, hcall⟩
  · exact List.mem_filterMap.mpr ⟨r, hr, htaken⟩

/-- One client has its answer, its thread has not ended, and the thread of another has yet to
send. -/
theorem answered_thread_done_two :
    ∃ s : StubNet Libs.reference, s.returned = [⟨0, some 0, .int 219⟩] ∧ s.sent = [some 0] ∧
      s.threads.map Flight.call = [some 1] ∧ ∀ m ∈ s.threads, m.call ≠ some 0 := by
  have hrun : ([.register exampleServer, .deliver 0, .deliver 0, stubAdd exampleClient 20 199,
      stubAdd ⟨.lit "127.0.0.1", .lit "9092"⟩ 3 4, .send 0, .listen exampleClient, .deliver 0,
      .deliver 0, .deliver 0, .deliver 0].foldlM (stubStep addWorld)
        (.init : StubNet Libs.reference)).map
          (fun s => (s.returned, s.sent, s.threads.map Flight.call)) =
      some ([⟨0, some 0, .int 219⟩], [some 0], [some 1]) := rfl
  obtain ⟨s, hs, hseen⟩ := Option.map_eq_some_iff.mp hrun
  obtain ⟨hreturned, hrest⟩ := Prod.mk.inj hseen
  obtain ⟨hsent, hthreads⟩ := Prod.mk.inj hrest
  refine ⟨s, hreturned, hsent, hthreads, ?_⟩
  exact (answered_thread_done _ addWorld hs).2 ⟨0, some 0, .int 219⟩ (by simp [hreturned]) rfl

end RpcBroker
