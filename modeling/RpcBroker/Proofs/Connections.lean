import RpcBroker.Model.Connections
import RpcBroker.Proofs.Exits
import RpcBroker.Proofs.Framing
import RpcBroker.Proofs.Waiting
/-!
# RpcBroker.Proofs.Connections

**From connections to packets.** The handlers are modelled on packets; the processes
read bytes, wait on a timer and, the server, run threads. Both levels do the same.

The broker on connections that each deliver a packet is the broker on the packets, down
to the call that ends it (`broker_over_connections`): waiting and receiving are a first
stage, handling is a second.

The threads of the server do what one thread would do with the connections in some
order, and can do what it would do in any (`threads_serve_in_turn`). The threads the broker
can be built with keep to the order of the connections, because of their lock
(`broker_threads_in_order`).
-/

namespace RpcBroker

open CLib Msgpack Bytes

/-! ### Receiving -/

/-- A connection on which a packet that was sent with `send_data` arrives whole. -/
structure Connection.Delivers (c : Connection) (payload : List UInt8) : Prop where
  accepted : c.accepted = true
  whole : ∃ t : Transfer payload, t.Complete ∧ c.stream = t.stream
  /-- An `int` counts it. -/
  size : payload.length < 0x80000000

/-- What was stored in a buffer does not depend on what the heap held. -/
theorem Connection.bytes_stored (c : Connection) (len : Nat) (payload : List UInt8) :
    c.bytes ⟨len, payload.map some⟩ = payload := by
  refine List.ext_getElem? fun i => ?_
  rw [bytes, List.getElem?_mapIdx, List.getElem?_map]
  cases payload[i]? <;> rfl

/-- Every receiver gets a packet that arrives whole. -/
theorem Connection.Delivers.receive {c : Connection} {payload : List UInt8}
    (h : c.Delivers payload) (r : Receiver) : c.receive r = .ok payload := by
  obtain ⟨t, hcomplete, hstream⟩ := h.whole
  obtain ⟨sizeError, dataError, hreceive⟩ := r.receive_eq
  have hsize := h.size
  have hpos := t.data_pos
  have hlength := t.length_stream
  have hdata := hcomplete.2.1
  have hdelivered := hcomplete.2.2
  obtain ⟨hread, hcount⟩ := (t.read_eq_payload_iff (by omega)).mpr hcomplete
  have hannounced : t.announced = payload.length := by rw [← hcount, hread]
  have hlow : ¬ readCount ((t.stream.drop 4).take t.announced) < 1 := by
    rw [hread, readCount_lt_one (by omega)]
    omega
  have hgot : r.receive c.held c.stream = .ok ⟨payload.length, payload.map some⟩ := by
    have hlen : ofBE (t.stream.take 4) = t.announced := rfl
    rw [hreceive, hstream, receivePacket_long (by omega) hlen, if_neg hlow, hread, hannounced]
    have hbuffer := (packetBuffer_eq_iff (Nat.le_refl payload.length)).mpr ⟨rfl, rfl⟩
    rw [hbuffer.2]
  rw [Connection.receive, h.accepted, hgot]
  exact congrArg Except.ok (c.bytes_stored _ _)

/-- The bytes a receiver reads behind the length. -/
def Connection.got (c : Connection) : Nat := min (ofBE (c.stream.take 4)) (c.stream.length - 4)

/-- A receiver hands on what it got, unless that is nothing, or more than an `int` can
count. -/
theorem Connection.receive_iff (c : Connection) (r : Receiver) :
    (∃ packet, c.receive r = .ok packet) ↔
      c.accepted = true ∧ 1 ≤ c.got ∧ c.got < 0x80000000 := by
  obtain ⟨sizeError, dataError, hreceive⟩ := r.receive_eq
  cases haccepted : c.accepted with
  | false =>
      rw [receive, haccepted]
      simp [checkSocket, bind, Except.bind]
  | true =>
      have hreceived : (∃ packet, c.receive r = .ok packet) ↔
          ∃ received, receivePacket sizeError dataError c.held c.stream = .ok received := by
        rw [receive, haccepted, hreceive]
        cases receivePacket sizeError dataError c.held c.stream with
        | error e => simp [checkSocket, Except.mapError, bind, Except.bind]
        | ok received => simp [checkSocket, Except.mapError, bind, Except.bind, pure, Except.pure]
      rw [hreceived]
      by_cases hshort : c.stream.length ≤ 4
      · obtain ⟨e, he⟩ : ∃ e, receivePacket sizeError dataError c.held c.stream = .error e :=
          receivePacket_short hshort
        rw [he, got]
        simp only [reduceCtorEq, exists_false, true_and, false_iff]
        omega
      · have hlt : ofBE (c.stream.take 4) < 0x100000000 := by
          have hbound := ofBE_lt (c.stream.take 4)
          rw [List.length_take] at hbound
          have hfour : min 4 c.stream.length = 4 := by omega
          rwa [hfour] at hbound
        have hread : ((c.stream.drop 4).take (ofBE (c.stream.take 4))).length = c.got := by
          rw [List.length_take, List.length_drop, got]
        have hbound : ((c.stream.drop 4).take (ofBE (c.stream.take 4))).length < 0x100000000 := by
          rw [hread, got]
          omega
        have hcount := readCount_lt_one hbound
        rw [hread] at hcount
        rw [receivePacket_long (by omega) rfl]
        by_cases hlow : readCount ((c.stream.drop 4).take (ofBE (c.stream.take 4))) < 1
        · rw [if_pos hlow]
          rw [hcount] at hlow
          simp only [reduceCtorEq, exists_false, true_and, false_iff]
          omega
        · rw [if_neg hlow]
          rw [hcount] at hlow
          simp only [Except.ok.injEq, exists_eq', true_and, true_iff]
          omega

/-! ### The broker -/

section Broker

variable {C : ByteCodec} {S : Stulibc} {waitIndef : Bool} {listening_socket : Socket}

/-- The first stage of the broker: waiting for a connection. -/
def waits (waitIndef : Bool) (listening_socket : Socket) (state : FdSet × Timeval)
    (c : Connection) : Except ProcessEnd ((FdSet × Timeval) × (Bool × Connection)) :=
  ((waitForConnectionsBody waitIndef listening_socket state c.arrival).mapError .waiting).map
    fun r => (r.1, (r.2, c))

/-- The second: handling it. -/
def handles (C : ByteCodec) (S : Stulibc) (config : Config) (waited : Bool × Connection) :
    Except ProcessEnd (Config × List (Sent (List UInt8))) :=
  if waited.1 then processDataAvail C S config waited.2 else .ok (config, [])

theorem brokerBody_eq : brokerBody C S waitIndef listening_socket =
    Machine.pipe (waits waitIndef listening_socket) (handles C S) := by
  funext state c
  rw [brokerBody, Machine.pipe, waits]
  rcases waitForConnectionsBody waitIndef listening_socket state.1 c.arrival with e | ⟨waited, isSet⟩
  · rfl
  · cases isSet with
    | false => rfl
    | true =>
        have hhandles : handles C S state.2 (true, c) = processDataAvail C S state.2 c := rfl
        simp only [Except.mapError, Except.map, bind, Except.bind, if_true, hhandles, pure,
          Except.pure]
        rcases processDataAvail C S state.2 c with e | ⟨config, sents⟩ <;> rfl

theorem afterWait_eq_ok {text : CString} {timeout : Timeval} {selected : Option Selected}
    {waited : FdSet × Timeval} {isSet : Bool}
    (h : afterWait text listening_socket timeout selected = .ok (waited, isSet)) :
    ∃ sel, selected = some sel ∧ sel.result ≠ waitTimeout ∧
      isSet = fdIsset listening_socket sel.readfds := by
  cases selected with
  | none => exact absurd h (by simp [afterWait])
  | some sel =>
      rw [afterWait] at h
      split at h
      · exact absurd h (by simp)
      · next hresult =>
          split at h
          · exact absurd h (by simp)
          · exact ⟨sel, rfl, hresult, (Prod.mk.inj (Except.ok.inj h)).2.symm⟩

/-- The loop goes on only after a connection. -/
theorem isSet_of_waited {state waited : FdSet × Timeval} {next : Arrival} {isSet : Bool}
    (h : waitForConnectionsBody waitIndef listening_socket state next = .ok (waited, isSet)) :
    isSet = true := by
  have hready : ∀ timeout sel,
      select (fdSet listening_socket fdZero) timeout listening_socket next = some sel →
      sel.result ≠ waitTimeout → fdIsset listening_socket sel.readfds = true := by
    intro timeout sel hsel hresult
    cases timeout with
    | none =>
        rw [select_none next (fdIsset_fdSet ..)] at hsel
        obtain rfl := Option.some.inj hsel
        exact fdIsset_singleton _
    | some t =>
        rw [select] at hsel
        split at hsel
        · obtain rfl := Option.some.inj hsel
          exact fdIsset_singleton _
        · obtain rfl := Option.some.inj hsel
          exact absurd rfl hresult
  obtain ⟨sel, hsel, hresult, rfl⟩ := afterWait_eq_ok h
  rw [waitRdSocket] at hsel
  split at hsel
  · exact hready _ sel hsel hresult
  · exact hready _ sel hsel hresult

/-- The first stage, if the loop does not time out. -/
theorem run_waits {cs : List Connection} {state waited : FdSet × Timeval} {flags : List Bool}
    (h : Machine.run (waitForConnectionsBody waitIndef listening_socket) state
      (cs.map Connection.arrival) = .ok (waited, flags)) :
    Machine.run (waits waitIndef listening_socket) state cs =
      .ok (waited, cs.map fun c => (true, c)) := by
  induction cs generalizing state flags with
  | nil =>
      obtain ⟨rfl, -⟩ := Prod.mk.inj (Except.ok.inj h)
      rfl
  | cons c cs ih =>
      obtain ⟨state', isSet, flags', hc, hcs, -⟩ := Machine.run_cons.mp h
      obtain rfl := isSet_of_waited hc
      refine Machine.run_cons.mpr ⟨state', (true, c), _, ?_, ih hcs, rfl⟩
      rw [waits, hc]
      rfl

/-- The second stage, on connections that deliver packets. -/
theorem run_handles {cs : List Connection} {payloads : List (List UInt8)}
    (hcs : List.Forall₂ Connection.Delivers cs payloads) (config : Config) :
    Machine.run (handles C S) config (cs.map fun c => (true, c)) =
      (brokerRun (Libs.ofBytes C S) config payloads).mapError .exit := by
  refine Machine.run_mapError
    (R := fun waited payload => waited.1 = true ∧ waited.2.Delivers payload) ?_ ?_ config
  · intro config waited payload hwaited
    rw [handles, if_pos hwaited.1, processDataAvail, hwaited.2.receive]
    rfl
  · exact List.forall₂_map_left_iff.mpr (hcs.imp fun _ _ h => ⟨rfl, h⟩)

/-- **The broker on its connections is the broker on their packets**, if each connection
delivers one and the loop does not time out before the last: it ends with the same
repositories and has sent the same, or has ended in the same call of `exit`. -/
theorem broker_over_connections {cs : List Connection} {payloads : List (List UInt8)}
    (hcs : List.Forall₂ Connection.Delivers cs payloads)
    (hwait : waitIndef = true ∨ (cs.map fun c => c.arrival.gap).sum < 60 * 1000000) :
    (brokerProcess C S waitIndef listening_socket cs).map (fun r => (r.1.2, r.2)) =
      (brokerRun (Libs.ofBytes C S) .init payloads).mapError .exit := by
  obtain ⟨⟨waited, flags⟩, hwaits⟩ :
      ∃ r, waitForConnections waitIndef listening_socket (cs.map Connection.arrival) = .ok r := by
    rcases hwait with rfl | hsum
    · exact waitForConnections_indefinite _ _
    · cases waitIndef with
      | true => exact waitForConnections_indefinite _ _
      | false => exact waitForConnections_returns (by rwa [List.map_map])
  have hstage := run_waits hwaits
  rw [brokerProcess, brokerBody_eq, ← run_handles hcs .init]
  rcases hrun : Machine.run (handles C S) .init (cs.map fun c => (true, c)) with e | ⟨config, outs⟩
  · rw [Machine.run_pipe_error hstage hrun]
    rfl
  · rw [Machine.run_pipe.mpr ⟨_, hstage, hrun⟩]
    rfl

/-- A request type nobody handles, as a packet of fifteen bytes. -/
def failedPacket : List UInt8 :=
  ByteCodec.messagePack.pack (packMapInt Hdr.requestType.text RequestType.failed.code)

/-- It arrives whole, after half a minute. -/
def failedConnection : Connection where
  arrival := ⟨30000000, false⟩
  accepted := true
  stream := (sendData failedPacket 4 15).1
  held := 7
  heap := fun _ => 0

theorem failedConnection_delivers : failedConnection.Delivers failedPacket where
  accepted := rfl
  whole := ⟨⟨4, 15, 19, by decide, by decide, by decide, by decide, by decide⟩,
    ⟨rfl, by decide, by decide⟩, by decide⟩
  size := by decide

theorem broker_over_connections_failed :
    (brokerProcess ByteCodec.messagePack Libs.reference.toStulibc false 3
      [failedConnection]).map (fun r => (r.1.2, r.2)) =
      (brokerRun (Libs.ofBytes ByteCodec.messagePack Libs.reference.toStulibc) .init
        [failedPacket]).mapError .exit :=
  broker_over_connections (.cons failedConnection_delivers .nil) (Or.inr (by decide))

/-- **The broker built with threads is the broker without**: what its threads leave behind
when every connection has been handled, the repositories and what was sent, is what
`process_data_avail` leaves that is called for one connection after the other; and from
wherever the threads are, they can come to that. -/
theorem broker_threads_in_order (C : ByteCodec) (S : Stulibc) :
    (∀ (cs : List Connection) (config : Config) (sents : List (List (Sent (List UInt8)))),
      (∃ (events : List (Lock.Event Connection)) (pool : BrokerPool),
        events.filterMap Lock.Event.input? = cs ∧
        events.foldlM (brokerThreads C S) (.init .init) = some pool ∧
        pool.Quiet ∧ pool.shared = config ∧ pool.released = sents) ↔
      Machine.run (processDataAvail C S) .init cs = .ok (config, sents)) ∧
    ∀ (events : List (Lock.Event Connection)) (pool : BrokerPool) (config : Config)
      (sents : List (List (Sent (List UInt8)))),
      events.foldlM (brokerThreads C S) (.init .init) = some pool →
      Machine.run (processDataAvail C S) .init (events.filterMap Lock.Event.input?) =
        .ok (config, sents) →
      ∃ (more : List (Lock.Event Connection)) (rest : BrokerPool),
        more.filterMap Lock.Event.input? = [] ∧
        more.foldlM (brokerThreads C S) pool = some rest ∧
        rest.Quiet ∧ rest.shared = config ∧ rest.released = sents :=
  ⟨fun _ _ _ => Lock.quiet_iff, fun _ _ _ _ => Lock.exists_quiet⟩

end Broker

/-! ### The server -/

section Server

variable {C : ByteCodec} {S : Stulibc} {program : ServerProgram} {broker : Details}

/-- A thread does what `ReadAndProcessDataOnSocket` does. -/
theorem threadServer_handle :
    (threadServer C S program broker).handle = handleConnection C S program broker := by
  funext isRegistered c
  simp only [Workers.Job.handle, Workers.Job.enter, threadServer, handleConnection]
  cases c.receive .readAndProcessDataOnSocket with
  | error e => rfl
  | ok packet =>
      simp only [bind, Except.bind, readAndProcessDataOnSocket]
      cases getReqType (Libs.ofBytes C S) packet with
      | error e => rfl
      | ok request_type =>
          simp only [Except.mapError, pure, Except.pure]
          by_cases hack : request_type = RequestType.serviceRegistrationAck.code
          · simp only [if_pos hack]
            rfl
          · by_cases hreq : (request_type = RequestType.serviceRequest.code && isRegistered) = true
            · simp only [if_neg hack, if_pos hreq, marshalCallSend]
              cases unpackMarshalCallSend (Libs.ofBytes C S) packet broker with
              | error e => rfl
              | ok calls =>
                  cases hsents : calls.mapM (callMarshelResponseSend (Libs.ofBytes C S) program) with
                  | none => simp only [hsents, Option.bind_none]
                  | some sents =>
                      simp only [hsents, Option.bind_some]
                      rfl
            · simp only [if_neg hack, if_neg hreq]
              rfl

/-- **The threads of the server serve the connections one after the other**, as far as
anybody can tell: what any interleaving of them leaves behind when every connection has
been served, `isRegistered` and what was sent for each, is what one thread leaves that
takes the connections in some order, and every order can come about. -/
theorem threads_serve_in_turn {cs : List Connection} {isRegistered : Bool}
    {sents : List (List (Sent (List UInt8)))} :
    (∃ (events : List (Workers.Event Connection)) (pool : ServerPool),
      events.filterMap Workers.Event.input? = cs ∧
      events.foldlM (threadServer C S program broker).next (.init false) = some pool ∧
      pool.Quiet ∧ pool.shared = isRegistered ∧ pool.released = sents) ↔
    ∃ order served, order.Perm cs ∧ served.Perm sents ∧
      Machine.run (handleConnection C S program broker) false order =
        .ok (isRegistered, served) := by
  rw [← threadServer_handle]
  exact Workers.Job.quiet_iff

end Server

end RpcBroker
