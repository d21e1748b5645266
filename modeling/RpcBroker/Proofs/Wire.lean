import RpcBroker.Lib.Run
import RpcBroker.Model.Wire
import RpcBroker.Proofs.Connections
/-!
# RpcBroker.Proofs.Wire

**Packets are no simplification, where connections are safe.** The system reaches over
connections exactly what it reaches with packets, if on each connection the packet comes
whole or the receiver can tell that it does not, and if every packet somebody receives has
between one byte and what an `int` counts (`wire_reached_iff`). So what holds of every run
of the system holds of the processes reading bytes.
-/

namespace RpcBroker

open CLib Msgpack Bytes Machine

variable {C : ByteCodec} {S : Stulibc} {w : World} {s t : Net (.ofBytes C S)}
  {m : Flight (List UInt8)} {c : Connection}

/-! ### One connection -/

/-- The packet comes over the connection whole, or so that it cannot be mistaken. -/
def Connection.Safe (c : Connection) (payload : List UInt8) : Prop :=
  payload.length < 0x100000000 ∧ ∃ t : Transfer payload, t.Safe ∧ c.stream = t.stream

/-- What is received over a safe connection is what was sent. -/
theorem Connection.Safe.receive {payload packet : List UInt8} {r : Receiver}
    (h : c.Safe payload) (hreceive : c.receive r = .ok packet) :
    packet = payload ∧ 1 ≤ payload.length ∧ payload.length < 0x80000000 := by
  obtain ⟨hlt, t, hsafe, hstream⟩ := h
  obtain ⟨haccepted, hpos, hcount⟩ := (c.receive_iff r).mp ⟨packet, hreceive⟩
  have hgot : c.got = min t.announced (t.delivered - 4) := by
    rw [Connection.got, hstream, t.length_stream]
    rfl
  rw [hgot] at hpos hcount
  -- The other safe transfers are those a receiver does not hand on.
  have hcomplete : t.Complete := by
    rcases hsafe with h | h | h | h
    · omega
    · exact h
    · omega
    · omega
  obtain ⟨hread, hlength⟩ := (t.read_eq_payload_iff hlt).mpr hcomplete
  have hannounced : t.announced = payload.length := by rw [← hlength, hread]
  have hdelivered := hcomplete.2.2
  have hsize : payload.length < 0x80000000 := by omega
  have hdelivers : c.Delivers payload := ⟨haccepted, ⟨t, hcomplete, hstream⟩, hsize⟩
  refine ⟨Except.ok.inj (hreceive.symm.trans (hdelivers.receive r)), by omega, hsize⟩

/-- A packet that is not empty, and that an `int` counts, can come whole. -/
theorem exists_delivers {payload : List UInt8} (hpos : 1 ≤ payload.length)
    (hsize : payload.length < 0x80000000) :
    ∃ c : Connection, c.Safe payload ∧ c.Delivers payload := by
  let t : Transfer payload := ⟨4, payload.length, payload.length + 4, by decide, by decide, hpos,
    Nat.le_refl _, by omega⟩
  have hcomplete : t.Complete := ⟨rfl, rfl, rfl⟩
  let c : Connection := ⟨⟨0, false⟩, true, t.stream, 0, fun _ => 0⟩
  exact ⟨c, ⟨by omega, t, .inr (.inl hcomplete), rfl⟩, ⟨rfl, ⟨t, hcomplete, rfl⟩, hsize⟩⟩

/-! ### One step -/

/-- The connection of a delivery is safe. -/
def Safely (s : Net (.ofBytes C S)) : WireAction → Prop
  | .deliver i c => ∀ m, s.flight[i]? = some m → c.Safe m.sent.packet
  | _ => True

/-- A packet that somebody receives is not empty, and an `int` counts it. -/
def Sized (w : World) (s : Net (.ofBytes C S)) : Action → Prop
  | .deliver i => ∀ m, s.flight[i]? = some m →
      (m.sent.dest.details?.bind (s.receiver? w)).isSome →
        1 ≤ m.sent.packet.length ∧ m.sent.packet.length < 0x80000000
  | _ => True

/-- A packet nobody receives is lost. -/
theorem receive_of_nobody (h : m.sent.dest.details?.bind (s.receiver? w) = none) :
    receive w s m = some s := by
  cases hd : m.sent.dest.details? with
  | none => simp only [receive, hd]
  | some d =>
      rw [hd, Option.bind_some, Net.receiver?] at h
      split at h
      next => exact absurd h (by simp)
      next hbroker =>
          split at h
          next => exact absurd h (by simp)
          next hserver =>
              split at h
              next => exact absurd h (by simp)
              next hwaiting =>
                  simp only [receive, hd, if_neg hbroker, Option.not_isSome_iff_eq_none.mp hserver,
                    clientReceives, Option.not_isSome_iff_eq_none.mp hwaiting]

/-- **Over a safe connection a packet arrives as it was sent.** -/
theorem receiveOver_safe (hsafe : c.Safe m.sent.packet) (h : receiveOver w s m c = some t) :
    receive w s m = some t ∧ ((m.sent.dest.details?.bind (s.receiver? w)).isSome →
      1 ≤ m.sent.packet.length ∧ m.sent.packet.length < 0x80000000) := by
  unfold receiveOver at h
  split at h
  next hnobody =>
      refine ⟨(receive_of_nobody hnobody).trans h, fun hsome => ?_⟩
      rw [hnobody] at hsome
      exact absurd hsome (by simp)
  next r _ =>
      split at h
      next packet hpacket =>
          obtain ⟨rfl, hsized⟩ := hsafe.receive hpacket
          exact ⟨h, fun _ => hsized⟩
      next => exact absurd h (by simp)

theorem receiveOver_delivers (hdelivers : c.Delivers m.sent.packet) :
    receiveOver w s m c = receive w s m := by
  unfold receiveOver
  split
  next hnobody => exact (receive_of_nobody hnobody).symm
  next r _ =>
      rw [hdelivers.receive r]
      rfl

/-- A safe step over connections is a step. -/
theorem step_of_wireStep {x : WireAction} (hsafe : Safely s x) (h : wireStep w s x = some t) :
    ∃ a, Sized w s a ∧ step w s a = some t := by
  refine ⟨x.action, ?_⟩
  cases x with
  | deliver i c =>
      obtain ⟨m, hm, hreceive⟩ := Option.bind_eq_some_iff.mp h
      obtain ⟨hstep, hsized⟩ := receiveOver_safe (hsafe m hm) hreceive
      refine ⟨fun m' hm' => ?_, ?_⟩
      · obtain rfl := Option.some.inj (hm.symm.trans hm')
        exact hsized
      · exact Option.bind_eq_some_iff.mpr ⟨m, hm, hstep⟩
  | call client rand op params ret args => exact ⟨trivial, h⟩
  | register d => exact ⟨trivial, h⟩
  | timeout d => exact ⟨trivial, h⟩
  | lose i => exact ⟨trivial, h⟩

/-- A step can be taken over connections. -/
theorem wireStep_of_step {a : Action} (hsized : Sized w s a) (h : step w s a = some t) :
    ∃ x, Safely s x ∧ wireStep w s x = some t := by
  cases a with
  | deliver i =>
      obtain ⟨m, hm, hreceive⟩ := Option.bind_eq_some_iff.mp h
      cases hwho : m.sent.dest.details?.bind (s.receiver? w) with
      | none =>
          -- Nobody is there to read, so there need not be a connection.
          have hlost : receive w { s with flight := s.flight.eraseIdx i } m = some _ :=
            receive_of_nobody hwho
          refine ⟨.lose i, trivial, ?_⟩
          exact (if_pos (List.getElem?_eq_some_iff.mp hm).1).trans (hlost.symm.trans hreceive)
      | some r =>
          obtain ⟨hpos, hsize⟩ := hsized m hm (by rw [hwho]; rfl)
          obtain ⟨c, hsafe, hdelivers⟩ := exists_delivers hpos hsize
          refine ⟨.deliver i c, fun m' hm' => ?_, ?_⟩
          · obtain rfl := Option.some.inj (hm.symm.trans hm')
            exact hsafe
          · exact Option.bind_eq_some_iff.mpr ⟨m, hm, (receiveOver_delivers hdelivers).trans hreceive⟩
  | call client rand op params ret args =>
      exact ⟨.call client rand op params ret args, trivial, h⟩
  | register d => exact ⟨.register d, trivial, h⟩
  | timeout d => exact ⟨.timeout d, trivial, h⟩
  | lose i => exact ⟨.lose i, trivial, h⟩

/-! ### Every run -/

/-- **Over safe connections the system reaches what it reaches with packets**, as far as
the packets somebody receives are neither empty nor longer than an `int` counts. -/
theorem wire_reached_iff (C : ByteCodec) (S : Stulibc) (w : World) (s : Net (.ofBytes C S)) :
    Reached (wireStep w) Safely .init s ↔ Reached (step w) (Sized w) .init s :=
  ⟨.simulate fun _ _ _ => step_of_wireStep, .simulate fun _ _ _ => wireStep_of_step⟩

end RpcBroker
