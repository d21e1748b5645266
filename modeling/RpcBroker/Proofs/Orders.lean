import RpcBroker.Lib.Independence
import RpcBroker.Lib.Schedule
import RpcBroker.Proofs.Deliveries
import RpcBroker.Spec.Parties
/-!
# RpcBroker.Proofs.Orders

**Only the order at each party matters.** Every step of the system is a step of the
abstract one (`step_parties`), in which acts at different places do not see each other
(`concurrent_parties`). So two runs in which every party handles the same packets, and
everybody does the same, in the same order at each place, lead to the same state, however
the deliveries at different parties were interleaved (`outcome_of_orders`).
-/

namespace RpcBroker

open CLib Msgpack Machine

variable {E : Libs} {w : World}

/-! ### The abstract system follows -/

/-- What is left of the packets, taken at a position. -/
theorem coe_of_getElem? {m : Flight E.Buffer} {flight : List (Flight E.Buffer)} {i : Nat}
    (h : flight[i]? = some m) :
    (flight : Multiset (Flight E.Buffer)) = {m} + (flight.eraseIdx i : Multiset _) := by
  obtain ⟨hi, rfl⟩ := List.getElem?_eq_some_iff.mp h
  rw [Multiset.singleton_add, Multiset.cons_coe, Multiset.coe_eq_coe]
  exact (List.getElem_cons_eraseIdx_perm hi).symm

theorem parties_send (s : Net E) (call : Option Nat) (sents : List (Sent E.Buffer)) :
    (s.send call sents).parties =
      { s.parties with flight := s.parties.flight +
          (sents.map fun sent => ⟨sent, call⟩ : List (Flight E.Buffer)) } := by
  simp [Net.send, Net.parties]

/-- What a party that takes a packet does, and what it looks like then. -/
def Follows (p : Parties E) (m : Flight E.Buffer) (e : Option (Effect E)) (q : Parties E) : Prop :=
  ∃ effect, e = some effect ∧ effect.takes = {m} ∧ q = effect.apply p p.flight

theorem brokerReceives_parties {s t : Net E} {m : Flight E.Buffer}
    (h : brokerReceives s m = some t) :
    Follows s.parties m (s.parties.brokerHandles m) t.parties := by
  obtain ⟨config, sents, hread, rfl⟩ := brokerReceives_some h
  refine ⟨{ write := .config config, takes := {m}, sends := m.answeredBy sents }, ?_, rfl, ?_⟩
  · rw [Parties.brokerHandles]
    simp only [Net.parties, hread]
  · rw [parties_send]
    simp [Effect.apply, Write.apply, Net.parties, Flight.answeredBy]

theorem serverReceives_parties {d : Details} {node : ServerNode} {s t : Net E}
    {m : Flight E.Buffer} (h : serverReceives w d node s m = some t) :
    Follows s.parties m (s.parties.serverHandles w d node m) t.parties := by
  obtain ⟨isRegistered, sents, hread, rfl⟩ := serverReceives_some h
  refine ⟨{ write := .registered d isRegistered, takes := {m}, sends := m.answeredBy sents }, ?_,
    rfl, ?_⟩
  · rw [Parties.serverHandles]
    simp only [Net.parties, hread]
  · rw [parties_send]
    simp [Effect.apply, Write.apply, Net.parties, Flight.answeredBy]

/-- A packet at an endpoint where nobody does anything with it. -/
theorem follows_ignored (s : Net E) (m : Flight E.Buffer) :
    Follows s.parties m (some { takes := {m} }) s.parties :=
  ⟨_, rfl, rfl, by simp [Effect.apply, Write.apply]⟩

theorem clientReceives_parties {d : Details} {s t : Net E} {m : Flight E.Buffer}
    (h : clientReceives d s m = some t) :
    Follows s.parties m (s.parties.clientHandles d m) t.parties := by
  unfold clientReceives at h
  rw [Parties.clientHandles]
  cases hwaiting : s.waiting d with
  | none =>
      rw [hwaiting] at h
      obtain rfl := Option.some.inj h
      simpa [Net.parties, hwaiting] using follows_ignored s m
  | some n =>
      rw [hwaiting] at h
      obtain ⟨call, hcall, hreturn⟩ := Option.bind_eq_some_iff.mp h
      cases hread : stubReturn E call.ret m.sent.packet with
      | error e => rw [hread] at hreturn; exact absurd hreturn (by simp)
      | ok value =>
          rw [hread] at hreturn
          obtain rfl := Option.some.inj hreturn
          refine ⟨{ write := .waiting d none, takes := {m}, returns := {⟨n, m.call, value⟩} }, ?_,
            rfl, ?_⟩
          · simp [Net.parties, hwaiting, hcall, hread]
          · simp [Effect.apply, Write.apply, Net.parties, ← Multiset.coe_add]

/-- A packet is handled as the abstract system says. -/
theorem receive_parties {s t : Net E} {m : Flight E.Buffer} (h : receive w s m = some t) :
    Follows s.parties m (s.parties.handles w m) t.parties := by
  unfold receive at h
  split at h
  next hd => simpa only [Parties.handles, hd] using Option.some.inj h ▸ follows_ignored s m
  next d hd =>
      simp only [Parties.handles, hd]
      split at h
      next hbroker => rw [if_pos hbroker]; exact brokerReceives_parties h
      next hbroker =>
          rw [if_neg hbroker]
          split at h
          next node hserver => simpa only [hserver] using serverReceives_parties h
          next hserver => simpa only [hserver] using clientReceives_parties h

/-- An act that takes no packet is a step. -/
theorem move_of_takes {p q : Parties E} {a : Act E.Buffer} {e : Effect E}
    (he : p.effect w a = some e) (htakes : e.takes = 0) (hq : q = e.apply p p.flight) :
    p.Move w a q :=
  ⟨e, p.flight, he, by rw [htakes, zero_add], hq⟩

/-- **Every step is a step of the abstract system.** -/
theorem step_parties {s t : Net E} {a : Action} (h : step w s a = some t) :
    ∃ act, s.act? a = some act ∧ s.parties.Move w act t.parties := by
  cases a with
  | call client rand op params ret args =>
      refine ⟨.call client rand op params ret args, rfl, ?_⟩
      rw [step] at h
      split at h
      next hcond =>
          obtain ⟨ts, hts, hstep⟩ := Option.bind_eq_some_iff.mp h
          obtain rfl := Option.some.inj hstep
          have heffect : s.parties.effect w (.call client rand op params ret args) =
              some { write := .waiting client (some s.calls.length)
                     calls := [⟨client, rand, op, args, ret⟩]
                     sends := {⟨⟨E.pack ts, w.broker.location⟩, some s.calls.length⟩} } :=
            (if_pos hcond).trans (by rw [hts]; rfl)
          refine move_of_takes heffect rfl ?_
          rw [parties_send]
          simp [Effect.apply, Write.apply, Net.parties]
      next => exact absurd h (by simp)
  | register d =>
      obtain ⟨node, hnode, hrest⟩ := Option.bind_eq_some_iff.mp h
      obtain ⟨ts, hts, hstep⟩ := Option.bind_eq_some_iff.mp hrest
      obtain rfl := Option.some.inj hstep
      have heffect : s.parties.effect w (.register d) =
          some { sends := {⟨⟨E.pack ts, w.broker.location⟩, none⟩} } := by
        rw [Parties.effect, hnode, Option.bind_eq_bind, Option.bind_some, hts]
        rfl
      refine ⟨.register d, rfl, move_of_takes heffect rfl ?_⟩
      rw [parties_send]
      simp [Effect.apply, Write.apply, Net.parties]
  | timeout client =>
      rw [step] at h
      split at h
      next hwaiting =>
          obtain rfl := Option.some.inj h
          refine ⟨.timeout client, rfl, move_of_takes (if_pos hwaiting) rfl ?_⟩
          simp [Effect.apply, Write.apply, Net.parties]
      next => exact absurd h (by simp)
  | deliver i =>
      obtain ⟨m, hm, hreceive⟩ := Option.bind_eq_some_iff.mp h
      obtain ⟨e, he, htakes, heq⟩ := receive_parties hreceive
      refine ⟨.deliver m, by rw [Net.act?, hm]; rfl, e, _, he, ?_, heq⟩
      rw [htakes]
      exact coe_of_getElem? hm
  | lose i =>
      rw [step] at h
      split at h
      next hi =>
          obtain rfl := Option.some.inj h
          have hm := List.getElem?_eq_getElem hi
          refine ⟨.lose s.flight[i], by rw [Net.act?, hm]; rfl, _, _, rfl, coe_of_getElem? hm, ?_⟩
          simp [Effect.apply, Write.apply, Net.parties]
      next => exact absurd h (by simp)

/-! ### What an act sees -/

/-- The parties at these places know the same, and no call is forgotten. -/
structure SeesSame (w : World) (places : List Place) (p q : Parties E) : Prop where
  config : .endpoint w.broker ∈ places → q.config = p.config
  registered : ∀ d, .endpoint d ∈ places → q.registered d = p.registered d
  waiting : ∀ d, .endpoint d ∈ places → q.waiting d = p.waiting d
  calls : .numbering ∈ places → q.calls = p.calls
  grows : p.calls <+: q.calls

variable {p q : Parties E} {a : Act E.Buffer} {e : Effect E} {m : Flight E.Buffer}

theorem place_of_details? {d : Details} (h : m.sent.dest.details? = some d) :
    m.place = .endpoint d := by
  rw [Flight.place, h]

/-- A client that could take a packet can when more calls were made. -/
theorem clientHandles_of_seesSame {d : Details} (hwaiting : q.waiting d = p.waiting d)
    (hgrows : p.calls <+: q.calls) (he : p.clientHandles d m = some e) :
    q.clientHandles d m = some e := by
  rw [Parties.clientHandles] at he ⊢
  rw [hwaiting]
  cases hp : p.waiting d with
  | none =>
      rw [hp] at he
      exact he
  | some n =>
      rw [hp] at he
      obtain ⟨call, hcall, hreturn⟩ := Option.bind_eq_some_iff.mp he
      obtain ⟨more, hmore⟩ := hgrows
      have hcall' : q.calls[n]? = some call := by
        rw [← hmore, List.getElem?_append_left (List.getElem?_eq_some_iff.mp hcall).1, hcall]
      exact Option.bind_eq_some_iff.mpr ⟨call, hcall', hreturn⟩

theorem handles_of_seesSame (h : SeesSame w [m.place] p q) (he : p.handles w m = some e) :
    q.handles w m = some e := by
  cases hd : m.sent.dest.details? with
  | none => simpa only [Parties.handles, hd] using he
  | some d =>
      have hplace : Place.endpoint d ∈ [m.place] := by
        rw [place_of_details? hd]
        exact List.mem_singleton_self _
      simp only [Parties.handles, hd] at he ⊢
      by_cases hbroker : d = w.broker
      · rw [if_pos hbroker] at he ⊢
        rw [Parties.brokerHandles, h.config (hbroker ▸ hplace)]
        exact he
      · rw [if_neg hbroker] at he ⊢
        cases hserver : w.server d with
        | some node =>
            simp only [hserver] at he ⊢
            rw [Parties.serverHandles, h.registered d hplace]
            exact he
        | none =>
            simp only [hserver] at he ⊢
            exact clientHandles_of_seesSame (h.waiting d hplace) h.grows he

/-- **An act looks at its places only.** -/
theorem effect_of_seesSame (h : SeesSame w a.places p q) (he : p.effect w a = some e) :
    q.effect w a = some e := by
  cases a with
  | call client rand op params ret args =>
      rw [Parties.effect] at he ⊢
      rw [h.waiting client (by simp [Act.places]), h.calls (by simp [Act.places])]
      exact he
  | register d => exact he
  | timeout d =>
      rw [Parties.effect] at he ⊢
      rw [h.waiting d (by simp [Act.places])]
      exact he
  | deliver m => exact handles_of_seesSame h he
  | lose m => exact he

/-! ### What an act changes -/

/-- Where something is written down. -/
def Write.place? (w : World) : Write → Option Place
  | .nothing => none
  | .config _ => some (.endpoint w.broker)
  | .registered d _ => some (.endpoint d)
  | .waiting d _ => some (.endpoint d)

/-- An effect on these places. -/
structure Effect.Within (w : World) (e : Effect E) (places : List Place) : Prop where
  write : ∀ place, e.write.place? w = some place → place ∈ places
  calls : e.calls ≠ [] → .numbering ∈ places
  takes : ∀ m ∈ e.takes, m.place ∈ places

/-- The effect of a packet on its receiver. -/
theorem within_of_takes (htakes : e.takes = {m}) (hcalls : e.calls = [])
    (hwrite : ∀ place, e.write.place? w = some place → m.place = place) :
    e.Within w [m.place] where
  write place hplace := List.mem_singleton.mpr (hwrite place hplace).symm
  calls hne := absurd hcalls hne
  takes m' hm' := by
    rw [htakes, Multiset.mem_singleton] at hm'
    exact hm' ▸ List.mem_singleton_self _

theorem within_of_handles (he : p.handles w m = some e) : e.Within w [m.place] := by
  unfold Parties.handles at he
  split at he
  next =>
      obtain rfl := Option.some.inj he
      exact within_of_takes rfl rfl nofun
  next d hd =>
      have hplace := place_of_details? hd
      split at he
      next hbroker =>
          unfold Parties.brokerHandles at he
          split at he
          next =>
              obtain rfl := Option.some.inj he
              exact within_of_takes rfl rfl fun place h => by
                rw [hplace, hbroker]
                exact Option.some.inj h
          next => exact absurd he (by simp)
      next =>
          split at he
          next =>
              unfold Parties.serverHandles at he
              split at he
              next =>
                  obtain rfl := Option.some.inj he
                  exact within_of_takes rfl rfl fun place h => hplace.trans (Option.some.inj h)
              next => exact absurd he (by simp)
          next =>
              unfold Parties.clientHandles at he
              split at he
              next =>
                  obtain rfl := Option.some.inj he
                  exact within_of_takes rfl rfl nofun
              next =>
                  obtain ⟨call, -, hreturn⟩ := Option.bind_eq_some_iff.mp he
                  split at hreturn
                  next =>
                      obtain rfl := Option.some.inj hreturn
                      exact within_of_takes rfl rfl fun place h => hplace.trans (Option.some.inj h)
                  next => exact absurd hreturn (by simp)

/-- **An act changes its places only.** -/
theorem within_of_effect (he : p.effect w a = some e) : e.Within w a.places := by
  cases a with
  | call client rand op params ret args =>
      rw [Parties.effect] at he
      split at he
      next =>
          obtain ⟨ts, -, heq⟩ := Option.bind_eq_some_iff.mp he
          obtain rfl := Option.some.inj heq
          exact ⟨by simp [Write.place?, Act.places], by simp [Act.places], by simp⟩
      next => exact absurd he (by simp)
  | register d =>
      obtain ⟨node, -, hrest⟩ := Option.bind_eq_some_iff.mp he
      obtain ⟨ts, -, heq⟩ := Option.bind_eq_some_iff.mp hrest
      obtain rfl := Option.some.inj heq
      exact ⟨nofun, fun h => absurd rfl h, by simp⟩
  | timeout d =>
      rw [Parties.effect] at he
      split at he
      next =>
          obtain rfl := Option.some.inj he
          exact ⟨by simp [Write.place?, Act.places], fun h => absurd rfl h, by simp⟩
      next => exact absurd he (by simp)
  | deliver m => exact within_of_handles he
  | lose m =>
      obtain rfl := Option.some.inj he
      exact within_of_takes rfl rfl nofun

/-! ### Acts at different places -/

section Writes

variable {wr wr' : Write}

theorem Write.apply_calls (wr : Write) (p : Parties E) : (wr.apply p).calls = p.calls := by
  cases wr <;> rfl

theorem Write.apply_flight (wr : Write) (p : Parties E) : (wr.apply p).flight = p.flight := by
  cases wr <;> rfl

theorem Write.apply_returned (wr : Write) (p : Parties E) :
    (wr.apply p).returned = p.returned := by
  cases wr <;> rfl

/-- Writing things down leaves the rest alone. -/
theorem Write.with_apply (wr : Write) (p : Parties E) (calls : List ClientCall)
    (flight : Multiset (Flight E.Buffer)) (returned : Multiset Return) :
    { wr.apply p with calls := calls, flight := flight, returned := returned } =
      wr.apply { p with calls := calls, flight := flight, returned := returned } := by
  cases wr <;> rfl

theorem Write.apply_config (h : wr.place? w ≠ some (.endpoint w.broker)) (p : Parties E) :
    (wr.apply p).config = p.config := by
  cases wr with
  | config c => exact absurd rfl h
  | nothing | registered | waiting => rfl

theorem Write.apply_registered {d : Details} (h : wr.place? w ≠ some (.endpoint d))
    (p : Parties E) : (wr.apply p).registered d = p.registered d := by
  cases wr with
  | registered d' b =>
      have hne : d ≠ d' := fun heq => h (heq ▸ rfl)
      exact Function.update_of_ne hne _ _
  | nothing | config | waiting => rfl

theorem Write.apply_waiting {d : Details} (h : wr.place? w ≠ some (.endpoint d))
    (p : Parties E) : (wr.apply p).waiting d = p.waiting d := by
  cases wr with
  | waiting d' n =>
      have hne : d ≠ d' := fun heq => h (heq ▸ rfl)
      exact Function.update_of_ne hne _ _
  | nothing | config | registered => rfl

/-- What is written at different places does not meet. -/
theorem Write.apply_comm (h : ∀ place, wr.place? w = some place → wr'.place? w ≠ some place)
    (p : Parties E) : wr.apply (wr'.apply p) = wr'.apply (wr.apply p) := by
  cases wr with
  | nothing => rfl
  | config c =>
      cases wr' with
      | config c' => exact absurd rfl (h _ rfl)
      | nothing | registered | waiting => rfl
  | registered d b =>
      cases wr' with
      | registered d' b' =>
          have hne : d' ≠ d := fun heq => h _ rfl (heq ▸ rfl)
          simp only [Write.apply, Function.update_comm hne]
      | nothing | config | waiting => rfl
  | waiting d n =>
      cases wr' with
      | waiting d' n' =>
          have hne : d' ≠ d := fun heq => h _ rfl (heq ▸ rfl)
          simp only [Write.apply, Function.update_comm hne]
      | nothing | config | registered => rfl

end Writes

variable {e' : Effect E} {places places' : List Place}

theorem apply_flight (e : Effect E) (p : Parties E) (rest : Multiset (Flight E.Buffer)) :
    (e.apply p rest).flight = rest + e.sends :=
  Write.apply_flight ..

/-- What is written at other places is not seen. -/
theorem seesSame_apply (h : e.Within w places') (hapart : ∀ place ∈ places, place ∉ places')
    (p : Parties E) (rest : Multiset (Flight E.Buffer)) :
    SeesSame w places p (e.apply p rest) := by
  have hwrite : ∀ place ∈ places, e.write.place? w ≠ some place := fun place hmem heq =>
    hapart place hmem (h.write place heq)
  refine ⟨fun hmem => Write.apply_config (hwrite _ hmem) _,
    fun d hmem => Write.apply_registered (hwrite _ hmem) _,
    fun d hmem => Write.apply_waiting (hwrite _ hmem) _, ?_, ?_⟩
  · intro hmem
    have hcalls : e.calls = [] := by
      by_contra hne
      exact hapart _ hmem (h.calls hne)
    rw [Effect.apply, Write.apply_calls, hcalls, List.append_nil]
  · rw [Effect.apply, Write.apply_calls]
    exact List.prefix_append ..

/-- The effects of acts at different places add up to the same in either order. -/
theorem apply_comm (h : e.Within w places) (h' : e'.Within w places')
    (hapart : ∀ place ∈ places, place ∉ places') (p : Parties E)
    (r r' rest : Multiset (Flight E.Buffer)) :
    e'.apply (e.apply p r) (rest + e.sends) = e.apply (e'.apply p r') (rest + e'.sends) := by
  have hcalls : p.calls ++ e.calls ++ e'.calls = p.calls ++ e'.calls ++ e.calls := by
    by_cases hnil : e.calls = []
    · rw [hnil, List.append_nil, List.append_nil]
    · have hnil' : e'.calls = [] := by
        by_contra hne
        exact hapart _ (h.calls hnil) (h'.calls hne)
      rw [hnil', List.append_nil, List.append_nil]
  have hwrite : ∀ place, e.write.place? w = some place → e'.write.place? w ≠ some place :=
    fun place hp hp' => hapart place (h.write place hp) (h'.write place hp')
  simp only [Effect.apply, Write.with_apply, Write.apply_calls, Write.apply_returned, hcalls,
    Write.apply_comm hwrite, add_right_comm rest, add_right_comm p.returned]

/-- Packets taken at different places are different, so what the one act leaves has the
packets of the other. -/
theorem exists_rest {f r r' : Multiset (Flight E.Buffer)} (h : e.Within w places)
    (h' : e'.Within w places') (hapart : ∀ place ∈ places, place ∉ places')
    (hr : f = e.takes + r) (hr' : f = e'.takes + r') :
    ∃ rest, r = e'.takes + rest ∧ r' = e.takes + rest := by
  classical
  have hdisjoint : Disjoint e.takes e'.takes := by
    rw [Multiset.disjoint_left]
    intro m hm hm'
    exact hapart _ (h.takes m hm) (h'.takes m hm')
  have hle : e.takes + e'.takes ≤ e.takes + r := by
    rw [Multiset.add_eq_union_iff_disjoint.mpr hdisjoint, ← hr]
    exact Multiset.union_le (hr ▸ Multiset.le_add_right ..) (hr' ▸ Multiset.le_add_right ..)
  obtain ⟨rest, rfl⟩ := Multiset.le_iff_exists_add.mp (le_of_add_le_add_left hle)
  refine ⟨rest, rfl, ?_⟩
  have heq : e'.takes + r' = e'.takes + (e.takes + rest) := by
    rw [← hr', hr, add_left_comm]
  exact add_left_cancel heq

/-- **Acts at different places do not see each other.** -/
theorem concurrent_parties (w : World) :
    Concurrent (fun (p : Parties E) (a : Act E.Buffer) q => p.Move w a q) Act.isAt where
  placed a := by
    cases a <;> exact ⟨_, decide_eq_true (List.mem_cons_self ..)⟩
  deterministic := by
    rintro p q q' a ⟨e, rest, he, hrest, rfl⟩ ⟨e', rest', he', hrest', rfl⟩
    obtain rfl := Option.some.inj (he.symm.trans he')
    rw [add_left_cancel (hrest.symm.trans hrest')]
  diamond := by
    rintro p q q' a b hapart ⟨e, r, he, hr, rfl⟩ ⟨e', r', he', hr', rfl⟩
    have hplaces : ∀ place ∈ a.places, place ∉ b.places := by
      intro place hmem hmem'
      exact hapart place (decide_eq_true hmem) (decide_eq_true hmem')
    have hw := within_of_effect he
    have hw' := within_of_effect he'
    obtain ⟨rest, rfl, rfl⟩ := exists_rest hw hw' hplaces hr hr'
    have hplaces' : ∀ place ∈ b.places, place ∉ a.places := fun place hmem hmem' =>
      hplaces place hmem' hmem
    refine ⟨e'.apply (e.apply p (e'.takes + rest)) (rest + e.sends),
      ⟨e', rest + e.sends, ?_, ?_, rfl⟩, ⟨e, rest + e'.sends, ?_, ?_, ?_⟩⟩
    · exact effect_of_seesSame (seesSame_apply hw hplaces' p _) he'
    · rw [apply_flight, add_assoc]
    · exact effect_of_seesSame (seesSame_apply hw' hplaces p _) he
    · rw [apply_flight, add_assoc]
    · exact apply_comm hw hw' hplaces p _ _ rest

/-! ### Whole runs -/

/-- A schedule is a run of its acts. -/
theorem run_parties {s t : Net E} {actions : List Action}
    (h : actions.foldlM (step w) s = some t) :
    Run (Parties.Move w) s.parties (actsOf w s actions) t.parties := by
  induction actions generalizing s with
  | nil =>
      obtain rfl := Option.some.inj h
      exact .nil _
  | cons a actions ih =>
      obtain ⟨u, hstep, hrest⟩ := schedule_cons.mp h
      obtain ⟨act, hact, hmove⟩ := step_parties hstep
      rw [actsOf, hstep, hact]
      exact .cons hmove (ih hrest)

/-- **Only the order at each place matters.** Two schedules whose acts are the same in
each place, in the same order there, lead to the same state, up to the order of the
packets under way and of the returns. -/
theorem outcome_of_orders (w : World) {s t t' : Net E} {actions actions' : List Action}
    (h : actions.foldlM (step w) s = some t) (h' : actions'.foldlM (step w) s = some t')
    (hsame : ∀ place, (actsOf w s actions).filter (Act.isAt place) =
      (actsOf w s actions').filter (Act.isAt place)) :
    t.config = t'.config ∧ t.registered = t'.registered ∧ t.waiting = t'.waiting ∧
      t.calls = t'.calls ∧ t.flight.Perm t'.flight ∧ t.returned.Perm t'.returned := by
  have heq : t.parties = t'.parties :=
    (run_parties h).outcome_unique (concurrent_parties w) (run_parties h') hsame
  obtain ⟨hconfig, hregistered, hwaiting, hcalls, hflight, hreturned⟩ :=
    (Parties.mk.injEq ..).mp heq
  exact ⟨hconfig, hregistered, hwaiting, hcalls, Multiset.coe_eq_coe.mp hflight,
    Multiset.coe_eq_coe.mp hreturned⟩

/-- The server registers while a client asks, in two interleavings. -/
theorem outcome_of_orders_add :
    ∃ t t' : Net Libs.reference,
      [.register exampleServer, .deliver 0, callAdd exampleClient 1 2, .deliver 0,
        .deliver 0].foldlM (step addWorld) .init = some t ∧
      [callAdd exampleClient 1 2, .register exampleServer, .deliver 1, .deliver 0,
        .deliver 0].foldlM (step addWorld) .init = some t' ∧
      t.config = t'.config ∧ t.registered = t'.registered ∧ t.waiting = t'.waiting ∧
      t.calls = t'.calls ∧ t.flight.Perm t'.flight ∧ t.returned.Perm t'.returned := by
  obtain ⟨register, registration, call, ack, request, hacts, hacts', hregister, hregistration,
    hcall, hack, hrequest⟩ :
      ∃ register registration call ack request : Act Libs.reference.Buffer,
        actsOf addWorld .init [.register exampleServer, .deliver 0, callAdd exampleClient 1 2,
          .deliver 0, .deliver 0] = [register, registration, call, ack, request] ∧
        actsOf addWorld .init [callAdd exampleClient 1 2, .register exampleServer, .deliver 1,
          .deliver 0, .deliver 0] = [call, register, registration, request, ack] ∧
        register.places = [.endpoint exampleServer] ∧
        registration.places = [.endpoint addWorld.broker] ∧
        call.places = [.endpoint exampleClient, .numbering] ∧
        ack.places = [.endpoint exampleServer] ∧ request.places = [.endpoint addWorld.broker] := by
    exact ⟨_, _, _, _, _, rfl, rfl, rfl, rfl, rfl, rfl, rfl⟩
  have hrun : ∃ t : Net Libs.reference, [.register exampleServer, .deliver 0,
      callAdd exampleClient 1 2, .deliver 0, .deliver 0].foldlM (step addWorld) .init = some t :=
    ⟨_, rfl⟩
  have hrun' : ∃ t : Net Libs.reference, [callAdd exampleClient 1 2, .register exampleServer,
      .deliver 1, .deliver 0, .deliver 0].foldlM (step addWorld) .init = some t := ⟨_, rfl⟩
  obtain ⟨t, ht⟩ := hrun
  obtain ⟨t', ht'⟩ := hrun'
  refine ⟨t, t', ht, ht', outcome_of_orders addWorld ht ht' fun place => ?_⟩
  rw [hacts, hacts']
  simp only [List.filter_cons, List.filter_nil, Act.isAt, hregister, hregistration, hcall, hack,
    hrequest]
  by_cases hserver : place = .endpoint exampleServer
  · subst hserver
    simp +decide
  by_cases hbroker : place = .endpoint addWorld.broker
  · subst hbroker
    simp +decide
  simp [hserver, hbroker]

end RpcBroker
