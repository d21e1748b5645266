import Mathlib.Data.List.Perm.Basic
import RpcBroker.Lib.Schedule
import RpcBroker.Proofs.Handling
/-!
# RpcBroker.Proofs.Traffic

**The traffic of every run**: the invariant of the whole system without any
assumption on the message ids, on the order of deliveries or on what a client does
after it has given up.

A packet under way is in one of six stages (`Stage`, `Leg`), and `ways` says which
stage each packet is in. A request that has passed the broker is owed a pending
entry under its key (`Stage.owes`): the broker keeps at least as many entries under a
key as there are packets that owe one, so a response always finds an entry, though
it may be another client's. `Stage.hops` is how often a packet, and the packets that
come of it, can still be delivered.
-/

namespace RpcBroker

open CLib Msgpack Machine

variable {E : Libs} {w : World}

/-! ### Stages -/

/-- How far a packet has come. -/
inductive Stage
  | registration
  | ack
  | request
  | forwarded (k : Key)
  | response (k : Key)
  | reply
  deriving DecidableEq

/-- The key under which the broker has to keep an entry for the packet. -/
def Stage.owes : Stage → Option Key
  | .forwarded k => some k
  | .response k => some k
  | _ => none

/-- How many deliveries there can be yet, of the packet and of what is sent for it. -/
def Stage.hops : Stage → Nat
  | .registration => 2
  | .ack => 1
  | .request => 4
  | .forwarded _ => 3
  | .response _ => 2
  | .reply => 1

theorem Stage.hops_pos (stage : Stage) : 0 < stage.hops := by
  cases stage <;> exact Nat.succ_pos _

/-- A packet under way, and its stage. -/
inductive Leg (w : World) (calls : List ClientCall) : Flight E.Buffer → Stage → Prop
  /-- A server's registration. -/
  | registration {d : Details} {node : ServerNode} {packet : E.Buffer}
      (hd : w.server d = some node)
      (hcarries : E.Carries packet (registrationHeaders d node.services))
      (hlen : node.services.length < 0x80000000) :
      Leg w calls ⟨⟨packet, w.broker.location⟩, none⟩ .registration
  /-- Its acknowledgement. -/
  | ack {d : Details} {node : ServerNode} {packet : E.Buffer} {id : Int32}
      (hd : w.server d = some node) (hcarries : E.Carries packet (ackHeaders id)) :
      Leg w calls ⟨⟨packet, d.location⟩, none⟩ .ack
  /-- A request on its way to the broker. -/
  | request {n : Nat} {call : ClientCall} {packet : E.Buffer} (hcall : calls[n]? = some call)
      (hcarries : E.Carries packet
        (requestHeaders call.client call.message_id call.op call.args)) :
      Leg w calls ⟨⟨packet, w.broker.location⟩, some n⟩ .request
  /-- A request on its way to a server. -/
  | forwarded {n : Nat} {call : ClientCall} {packet : E.Buffer} {d : Details} {node : ServerNode}
      (hcall : calls[n]? = some call) (hd : w.server d = some node)
      (hcarries : E.Carries packet
        (requestHeaders call.client call.message_id call.op call.args)) :
      Leg w calls ⟨⟨packet, d.location⟩, some n⟩ (.forwarded call.key)
  /-- A response on its way to the broker. -/
  | response {n : Nat} {call : ClientCall} {packet : E.Buffer} {v : Arg}
      (hcall : calls[n]? = some call) (hanswer : IsAnswer w call v)
      (hcarries : E.Carries packet (responseHeaders call.op call.message_id v)) :
      Leg w calls ⟨⟨packet, w.broker.location⟩, some n⟩ (.response call.key)
  /-- A response on its way to a client that has made a call with this key. -/
  | reply {n : Nat} {call asker : ClientCall} {packet : E.Buffer} {v : Arg}
      (hcall : calls[n]? = some call) (hanswer : IsAnswer w call v)
      (hcarries : E.Carries packet (responseHeaders call.op call.message_id v))
      (hasker : asker ∈ calls) (hkey : asker.key = call.key) :
      Leg w calls ⟨⟨packet, asker.client.location⟩, some n⟩ .reply

/-- A packet belongs to a call that was made. -/
theorem Leg.exists_call {calls : List ClientCall} {m : Flight E.Buffer} {stage : Stage}
    (h : Leg w calls m stage) {n : Nat} (hn : m.call = some n) : n < calls.length := by
  have hlt : ∀ {k : Nat} {call : ClientCall}, calls[k]? = some call → some k = some n →
      n < calls.length := by
    intro k call hcall hk
    obtain ⟨hlt, -⟩ := List.getElem?_eq_some_iff.mp hcall
    exact Option.some.inj hk ▸ hlt
  cases h with
  | registration => exact absurd hn (by simp)
  | ack => exact absurd hn (by simp)
  | request hcall => exact hlt hcall hn
  | forwarded hcall => exact hlt hcall hn
  | response hcall => exact hlt hcall hn
  | reply hcall => exact hlt hcall hn

/-- A call stays where it is when another one is made. -/
theorem getElem?_append_of_some {α : Type} {xs : List α} {n : Nat} {a : α} (more : List α)
    (h : xs[n]? = some a) : (xs ++ more)[n]? = some a := by
  obtain ⟨hlt, -⟩ := List.getElem?_eq_some_iff.mp h
  rw [List.getElem?_append_left hlt, h]

theorem Leg.append {calls : List ClientCall} {m : Flight E.Buffer} {stage : Stage}
    (h : Leg w calls m stage) (more : List ClientCall) : Leg w (calls ++ more) m stage := by
  cases h with
  | registration hd hc hlen => exact .registration hd hc hlen
  | ack hd hc => exact .ack hd hc
  | request hcall hc => exact .request (getElem?_append_of_some more hcall) hc
  | forwarded hcall hd hc => exact .forwarded (getElem?_append_of_some more hcall) hd hc
  | response hcall ha hc => exact .response (getElem?_append_of_some more hcall) ha hc
  | reply hcall ha hc hasker hkey =>
      exact .reply (getElem?_append_of_some more hcall) ha hc (List.mem_append_left _ hasker) hkey

/-! ### The invariant -/

/-- A packet under way with its stage. -/
abbrev Way (E : Libs) : Type := Flight E.Buffer × Stage

/-- How many packets owe an entry under a key. -/
def owing (k : Key) (ways : List (Way E)) : Nat :=
  ways.countP fun way => decide (way.2.owes = some k)

/-- How many deliveries there can be yet. -/
def hopsLeft (ways : List (Way E)) : Nat := (ways.map fun way => way.2.hops).sum

/-- How many requests are pending under a key. -/
def pendingUnder (k : Key) (pend : List Request) : Nat := (pend.map Request.key).count k

/-- The call's packet is under way, or was taken by a stub. -/
def Net.accounted (s : Net E) : List Nat :=
  s.flight.filterMap Flight.call ++ s.returned.filterMap Return.taken

/-- The stub took the answer to a call with the key of a call its own client made. -/
structure TookAnswer (w : World) (calls : List ClientCall) (r : Return) (n : Nat) : Prop where
  taken : r.taken = some n
  genuine : ∃ own asker call v, calls[r.call]? = some own ∧ asker ∈ calls ∧
    asker.client = own.client ∧ calls[n]? = some call ∧ asker.key = call.key ∧
    IsAnswer w call v ∧ (v.type = own.ret → r.value = v.received)

/-- The invariant of the system, whatever happens. -/
structure Traffic (w : World) (s : Net E) (ways : List (Way E)) (pend : List Request) : Prop where
  clients : ∀ call ∈ s.calls, w.IsClient call.client ∧ 0 ≤ call.message_id
  registry : ∀ reg ∈ s.config.svc_repo, ∃ d node, w.server d = some node ∧
    (⟨reg.address, reg.port⟩ : Location) = d.location
  pending : s.config.clnt_req_repo = pend.map Request.entry
  asked : ∀ r ∈ pend, ∃ call ∈ s.calls, r = call.request
  owed : ∀ k, owing k ways ≤ pendingUnder k pend
  flight : (ways.map Prod.fst).Perm s.flight
  legs : ∀ way ∈ ways, Leg w s.calls way.1 way.2
  once : s.accounted.Nodup
  waiting : ∀ c n, s.waiting c = some n →
    (∃ call, s.calls[n]? = some call ∧ call.client = c) ∧ n ∉ s.returned.map Return.call
  returned : ∀ r ∈ s.returned, r.call < s.calls.length ∧ ∃ n, TookAnswer w s.calls r n
  returnedOnce : (s.returned.map Return.call).Nodup

theorem traffic_init : Traffic w (Net.init : Net E) [] [] where
  clients := by simp [Net.init]
  registry := by simp [Net.init, Config.init]
  pending := rfl
  asked := by simp
  owed _ := Nat.le_refl 0
  flight := .refl _
  legs := by simp
  once := List.nodup_nil
  waiting := by simp [Net.init]
  returned := by simp [Net.init]
  returnedOnce := List.nodup_nil

/-- Only calls that were made are accounted for. -/
theorem Traffic.accounted_lt {s : Net E} {ways : List (Way E)} {pend : List Request}
    (h : Traffic w s ways pend) {n : Nat} (hn : n ∈ s.accounted) : n < s.calls.length := by
  rcases List.mem_append.mp hn with hn | hn
  · obtain ⟨m, hm, hcall⟩ := List.mem_filterMap.mp hn
    obtain ⟨way, hway, rfl⟩ := List.mem_map.mp (h.flight.mem_iff.mpr hm)
    exact (h.legs way hway).exists_call hcall
  · obtain ⟨r, hr, htaken⟩ := List.mem_filterMap.mp hn
    obtain ⟨-, k, htook, own, asker, call, v, -, -, -, hcall, -⟩ := h.returned r hr
    obtain rfl : k = n := Option.some.inj (htook.symm.trans htaken)
    exact (List.getElem?_eq_some_iff.mp hcall).1

/-! ### A packet less, a packet more -/

/-- One of the elements behind a list of images. -/
theorem exists_of_map_perm {α β : Type} {f : α → β} {as : List α} {b : β} {bs : List β}
    (h : (as.map f).Perm (b :: bs)) :
    ∃ a rest, as.Perm (a :: rest) ∧ f a = b ∧ (rest.map f).Perm bs := by
  obtain ⟨a, ha, rfl⟩ := List.mem_map.mp (h.mem_iff.mpr (List.mem_cons_self ..))
  obtain ⟨front, back, rfl⟩ := List.append_of_mem ha
  have hperm : (front ++ a :: back).Perm (a :: (front ++ back)) := List.perm_middle
  refine ⟨a, front ++ back, hperm, rfl, ?_⟩
  exact (((hperm.map f).symm).trans h).cons_inv

/-- A packet is taken off the network. -/
theorem Traffic.take {s : Net E} {ways : List (Way E)} {pend : List Request}
    (h : Traffic w s ways pend) {i : Nat} {m : Flight E.Buffer} (hm : s.flight[i]? = some m) :
    ∃ stage rest, Leg w s.calls m stage ∧
      Traffic w { s with flight := s.flight.eraseIdx i } rest pend ∧
      (∀ k, stage.owes = some k → owing k rest < pendingUnder k pend) ∧
      hopsLeft ways = stage.hops + hopsLeft rest ∧
      ∀ n, m.call = some n → n ∉ ({ s with flight := s.flight.eraseIdx i } : Net E).accounted := by
  obtain ⟨hlt, hget⟩ := List.getElem?_eq_some_iff.mp hm
  have hsplit : (m :: s.flight.eraseIdx i).Perm s.flight :=
    hget ▸ List.getElem_cons_eraseIdx_perm hlt
  obtain ⟨⟨m', stage⟩, rest, hways, hfst, hrest⟩ := exists_of_map_perm (h.flight.trans hsplit.symm)
  obtain rfl : m' = m := hfst
  have hleg : ∀ way ∈ (m', stage) :: rest, Leg w s.calls way.1 way.2 :=
    fun way hway => h.legs way (hways.mem_iff.mpr hway)
  have howing : ∀ k, owing k ways = owing k rest + if stage.owes = some k then 1 else 0 := by
    intro k
    rw [owing, hways.countP_eq, List.countP_cons]
    simp [owing]
  have hcalls := hsplit.filterMap Flight.call
  have haccounted : (m'.call.toList ++
      ({ s with flight := s.flight.eraseIdx i } : Net E).accounted).Perm s.accounted := by
    rw [Net.accounted, Net.accounted, ← List.append_assoc]
    refine List.Perm.append_right _ (.trans ?_ hcalls)
    cases hcall : m'.call with
    | none => rw [List.filterMap_cons_none hcall]; rfl
    | some n => rw [List.filterMap_cons_some hcall]; rfl
  have hnodup := haccounted.nodup_iff.mpr h.once
  refine ⟨stage, rest, hleg _ (List.mem_cons_self ..), ?_, ?_, ?_, ?_⟩
  · exact { h with
      owed := fun k => Nat.le_trans (by rw [howing k]; omega) (h.owed k)
      flight := hrest
      legs := fun way hway => hleg way (List.mem_cons_of_mem _ hway)
      once := (List.nodup_append.mp hnodup).2.1 }
  · intro k hk
    have howed := h.owed k
    rw [howing k, if_pos hk] at howed
    omega
  · rw [hopsLeft, (hways.map _).sum_nat, List.map_cons, List.sum_cons, hopsLeft]
  · intro n hn
    rw [hn] at hnodup
    exact (List.nodup_cons.mp hnodup).1

/-- A packet is put on the network, in place of the one its call had. -/
theorem Traffic.push {s : Net E} {ways : List (Way E)} {pend : List Request}
    (h : Traffic w s ways pend) {m : Flight E.Buffer} {stage : Stage}
    (hleg : Leg w s.calls m stage) (hfresh : ∀ n, m.call = some n → n ∉ s.accounted)
    (howed : ∀ k, stage.owes = some k → owing k ways < pendingUnder k pend) :
    Traffic w { s with flight := s.flight ++ [m] } (ways ++ [(m, stage)]) pend :=
  { h with
    owed := by
      intro k
      have hle := h.owed k
      rw [owing, List.countP_append, List.countP_singleton]
      by_cases hk : stage.owes = some k
      · have hlt := howed k hk
        rw [owing] at hlt
        simp only [hk, decide_true, if_true]
        omega
      · simpa [owing, hk] using hle
    flight := by
      rw [List.map_append]
      exact h.flight.append_right _
    legs := by
      intro way hway
      rcases List.mem_append.mp hway with hway | hway
      · exact h.legs way hway
      · rw [List.mem_singleton.mp hway]
        exact hleg
    once := by
      have hperm : (m.call.toList ++ s.accounted).Perm
          ({ s with flight := s.flight ++ [m] } : Net E).accounted := by
        rw [Net.accounted, Net.accounted, List.filterMap_append, List.append_assoc,
          ← List.append_assoc]
        refine (List.perm_append_comm.append_right _).trans ?_
        rw [List.append_assoc]
        refine List.Perm.append_left _ (List.Perm.append_right _ ?_)
        cases hcall : m.call with
        | none => rw [List.filterMap_cons_none hcall]; rfl
        | some n => rw [List.filterMap_cons_some hcall]; rfl
      refine hperm.nodup_iff.mp ?_
      cases hcall : m.call with
      | none => exact h.once
      | some n => exact List.nodup_cons.mpr ⟨hfresh n hcall, h.once⟩ }

theorem hopsLeft_push (ways : List (Way E)) (m : Flight E.Buffer) (stage : Stage) :
    hopsLeft (ways ++ [(m, stage)]) = hopsLeft ways + stage.hops := by
  simp [hopsLeft]

end RpcBroker
