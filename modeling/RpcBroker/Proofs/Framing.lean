import RpcBroker.Model.Framing
/-!
# RpcBroker.Proofs.Framing

**When a packet comes through whole.** A `send` may take fewer bytes than it was
given, and a connection may end anywhere. Neither the sender nor a receiver
compares a count with the number of bytes it asked for, so what was cut is handed
on, with the rest of its buffer as `malloc` left it.

`framed_iff` says exactly which transfers are safe: those that are complete, and
those that deliver so little that a count below 1 gives them away.
-/

namespace RpcBroker

open CLib Bytes

/-! ### Transfers -/

/-- What the network does with a packet: how many bytes the two calls of `send`
take, and how many arrive before the connection ends. -/
structure Transfer (payload : List UInt8) where
  size : Nat
  data : Nat
  delivered : Nat
  size_pos : 1 ≤ size
  size_le : size ≤ 4
  data_pos : 1 ≤ data
  data_le : data ≤ payload.length
  delivered_le : delivered ≤ size + data

variable {payload : List UInt8}

/-- The bytes that arrive. -/
def Transfer.stream (t : Transfer payload) : List UInt8 :=
  (sendData payload t.size t.data).1.take t.delivered

/-- The length a receiver takes for the packet's: the first four bytes. -/
def Transfer.announced (t : Transfer payload) : Nat := ofBE (t.stream.take 4)

/-- All of the length and all of the packet are taken, and arrive. -/
def Transfer.Complete (t : Transfer payload) : Prop :=
  t.size = 4 ∧ t.data = payload.length ∧ t.delivered = payload.length + 4

/-- A packet handed on has the length and the bytes of the one sent. -/
def Framed (payload : List UInt8) (result : Except CString Received) : Prop :=
  ∀ packet, result = .ok packet →
    packet.len = payload.length ∧ packet.buffer = payload.map some

theorem Transfer.stream_eq (t : Transfer payload) :
    t.stream = ((toBE 4 payload.length).take t.size ++ payload.take t.data).take t.delivered := by
  have hsize : ¬ Int32.ofNat t.size < 0 := by
    have hle := t.size_le
    have hpos := t.size_pos
    obtain h | h | h | h : t.size = 1 ∨ t.size = 2 ∨ t.size = 3 ∨ t.size = 4 := by omega
    all_goals
      rw [h]
      decide
  unfold Transfer.stream sendData
  rw [if_neg hsize]
  split <;> rfl

theorem Transfer.length_stream (t : Transfer payload) : t.stream.length = t.delivered := by
  have hsize := t.size_le
  have hdata := t.data_le
  have hdelivered := t.delivered_le
  rw [t.stream_eq, List.length_take, List.length_append, List.length_take, List.length_take,
    length_toBE]
  omega

/-! ### One receiver -/

/-- A count is below 1 if nothing was read, or more than an `int` can count. -/
theorem readCount_lt_one {bytes : List UInt8} (h : bytes.length < 0x100000000) :
    readCount bytes < 1 ↔ bytes.length = 0 ∨ 0x80000000 ≤ bytes.length := by
  have hone : (1 : Int32).toInt = 1 := rfl
  rw [readCount, Int32.lt_iff_toInt_lt, Int32.toInt_ofNat', hone, Int.bmod_def]
  have hsize : Int32.size = 0x100000000 := rfl
  rw [hsize]
  split <;> omega

/-- The server checks the first count after the second read; the result is the
same. -/
theorem readAndProcessReceive_eq :
    readAndProcessReceive = receivePacket (.lit "failed to receiver packet size\n")
      (.lit "failed to receive message\n") := rfl

/-- Every receiver is the same one, up to its error texts. -/
theorem Receiver.receive_eq (r : Receiver) :
    ∃ sizeError dataError, r.receive = receivePacket sizeError dataError := by
  cases r with
  | getResponse => exact ⟨_, _, rfl⟩
  | readData => exact ⟨_, _, rfl⟩
  | readAndProcessDataOnSocket => exact ⟨_, _, readAndProcessReceive_eq⟩

/-- Nothing is handed on of a connection with no byte behind the length. -/
theorem receivePacket_short {sizeError dataError : CString} {held : UInt32} {stream : List UInt8}
    (h : stream.length ≤ 4) : ∃ e, receivePacket sizeError dataError held stream = .error e := by
  have hrest : stream.drop 4 = [] := List.drop_eq_nil_of_le h
  unfold receivePacket netReadn
  simp only [hrest, List.take_nil]
  split
  · exact ⟨_, rfl⟩
  · exact ⟨_, rfl⟩

/-- With a byte behind the length, the packet is as long as the length says, and
as much of it as arrived is in the buffer. -/
theorem receivePacket_long {sizeError dataError : CString} {held : UInt32} {stream : List UInt8}
    (h : 4 < stream.length) {len : Nat} (hlen : ofBE (stream.take 4) = len) :
    receivePacket sizeError dataError held stream =
      if readCount ((stream.drop 4).take len) < 1 then .error dataError
      else .ok ⟨len, packetBuffer len ((stream.drop 4).take len)⟩ := by
  have hlength : (stream.take 4).length = 4 := by
    rw [List.length_take]
    omega
  have hsize : packetLength held (stream.take 4) = len := by
    rw [packetLength, readInto, hlength, List.drop_eq_nil_of_le (by simp), List.append_nil, hlen]
  have hcount : ¬ readCount (stream.take 4) < 1 := by
    rw [readCount, hlength]
    decide
  unfold receivePacket netReadn
  simp only [hsize, if_neg hcount]

/-- A buffer holds exactly a packet when the packet was read into all of it. -/
theorem packetBuffer_eq_iff {len : Nat} {bytes payload : List UInt8} (h : bytes.length ≤ len) :
    (len = payload.length ∧ packetBuffer len bytes = payload.map some) ↔
      bytes = payload ∧ bytes.length = len := by
  constructor
  · rintro ⟨rfl, hbuffer⟩
    rw [packetBuffer, readInto, List.length_map, List.drop_replicate] at hbuffer
    have hfull : payload.length - bytes.length = 0 := by
      by_contra hmissing
      -- A cell nobody read into would be one of the packet's bytes.
      have hmem : none ∈ payload.map some := by
        rw [← hbuffer, List.mem_append, List.mem_replicate]
        exact Or.inr ⟨hmissing, rfl⟩
      simp at hmem
    rw [hfull, List.replicate_zero, List.append_nil] at hbuffer
    have hbytes : bytes = payload := (List.map_inj_right fun _ _ h => Option.some.inj h).mp hbuffer
    exact ⟨hbytes, by rw [hbytes]⟩
  · rintro ⟨rfl, rfl⟩
    refine ⟨rfl, ?_⟩
    rw [packetBuffer, readInto, List.length_map, List.drop_replicate, Nat.sub_self,
      List.replicate_zero, List.append_nil]

/-! ### Safe transfers -/

/-- The transfers that cannot be mistaken: nothing arrives behind the length, or the
packet comes whole, or the first four bytes, which are not all of the length
then, announce nothing; or so much arrives that the count of it is negative. -/
def Transfer.Safe (t : Transfer payload) : Prop :=
  t.delivered ≤ 4 ∨ t.Complete ∨ t.announced = 0 ∨
    (0x80000000 + 4 ≤ t.delivered ∧ 0x80000000 ≤ t.announced)

/-- Of all the bytes behind the length, a receiver reads the packet exactly when
the transfer is complete. -/
theorem Transfer.read_eq_payload_iff (t : Transfer payload) (hlt : payload.length < 0x100000000) :
    ((t.stream.drop 4).take t.announced = payload ∧
      ((t.stream.drop 4).take t.announced).length = t.announced) ↔ t.Complete := by
  have hlength := t.length_stream
  have hsize := t.size_le
  have hdata := t.data_le
  have hdelivered := t.delivered_le
  have hpos := t.data_pos
  constructor
  · rintro ⟨hread, hcount⟩
    have hall := congrArg List.length hread
    rw [hcount] at hall
    rw [List.length_take, List.length_drop, hlength] at hcount
    exact ⟨by omega, by omega, by omega⟩
  · rintro ⟨hsize4, hdatan, hdeliveredn⟩
    have hstream : t.stream = toBE 4 payload.length ++ payload := by
      have hwire : (toBE 4 payload.length ++ payload).length ≤ payload.length + 4 := by
        simp [Nat.add_comm]
      rw [t.stream_eq, hsize4, hdatan, hdeliveredn, List.take_length,
        List.take_of_length_le (show (toBE 4 payload.length).length ≤ 4 by simp),
        List.take_of_length_le hwire]
    have htake : t.stream.take 4 = toBE 4 payload.length := by
      rw [hstream, List.take_append_of_le_length (by simp), List.take_of_length_le (by simp)]
    have hdrop : t.stream.drop 4 = payload := by
      rw [hstream, List.drop_append_of_le_length (by simp), List.drop_eq_nil_of_le (by simp),
        List.nil_append]
    have hannounced : t.announced = payload.length := by
      rw [Transfer.announced, htake]
      exact ofBE_toBE (by simpa using hlt)
    rw [hannounced, hdrop, List.take_length]
    exact ⟨rfl, rfl⟩

/-- **A packet is received as it was sent, or reported, exactly in the safe
transfers**, by each of the three receivers and whatever memory held before. -/
theorem framed_iff (payload : List UInt8) (hlt : payload.length < 0x100000000)
    (t : Transfer payload) (r : Receiver) (held : UInt32) :
    Framed payload (r.receive held t.stream) ↔ t.Safe := by
  obtain ⟨sizeError, dataError, hreceive⟩ := r.receive_eq
  rw [hreceive]
  have hlength := t.length_stream
  by_cases hshort : t.delivered ≤ 4
  · obtain ⟨e, he⟩ : ∃ e, receivePacket sizeError dataError held t.stream = .error e :=
      receivePacket_short (hlength ▸ hshort)
    rw [he]
    exact iff_of_true (fun packet hok => absurd hok (by simp)) (Or.inl hshort)
  · have hbound : ((t.stream.drop 4).take t.announced).length < 0x100000000 := by
      have hsize := t.size_le
      have hdata := t.data_le
      have hdelivered := t.delivered_le
      rw [List.length_take, List.length_drop, hlength]
      omega
    have hcount := readCount_lt_one hbound
    have hread : ((t.stream.drop 4).take t.announced).length = min t.announced (t.delivered - 4) := by
      rw [List.length_take, List.length_drop, hlength]
    rw [receivePacket_long (by omega) (show ofBE (t.stream.take 4) = t.announced from rfl)]
    by_cases hlow : readCount ((t.stream.drop 4).take t.announced) < 1
    · rw [if_pos hlow]
      refine iff_of_true (fun packet hok => absurd hok (by simp)) ?_
      rw [hcount, hread] at hlow
      unfold Transfer.Safe
      omega
    · rw [if_neg hlow]
      have hle : ((t.stream.drop 4).take t.announced).length ≤ t.announced := by omega
      have hexact : (t.announced = payload.length ∧
          packetBuffer t.announced ((t.stream.drop 4).take t.announced) = payload.map some) ↔ _ :=
        packetBuffer_eq_iff hle
      have hframed : Framed payload (.ok ⟨t.announced,
          packetBuffer t.announced ((t.stream.drop 4).take t.announced)⟩) ↔ t.Complete := by
        rw [← t.read_eq_payload_iff hlt, ← hexact]
        exact ⟨fun h => h _ rfl, fun h packet hok => Except.ok.inj hok ▸ h⟩
      rw [hframed]
      rw [hcount, hread] at hlow
      unfold Transfer.Safe
      constructor
      · exact fun h => Or.inr (Or.inl h)
      · rintro (h | h | h | h)
        · exact absurd h hshort
        · exact h
        · omega
        · omega

/-- The packet of five bytes, sent and delivered whole. -/
def wholeTransfer : Transfer [104, 101, 108, 108, 111] :=
  ⟨4, 5, 9, by decide, by decide, by decide, by decide, by decide⟩

theorem framed_whole : Framed [104, 101, 108, 108, 111] (getResponse 0 wholeTransfer.stream) :=
  (framed_iff _ (by decide) wholeTransfer .getResponse 0).mpr (Or.inr (Or.inl ⟨rfl, rfl, rfl⟩))

/-- The same packet, when the connection ends after three of its bytes. -/
def cutTransfer : Transfer [104, 101, 108, 108, 111] :=
  ⟨4, 5, 7, by decide, by decide, by decide, by decide, by decide⟩

/-- It is handed on with two bytes nobody received. -/
theorem framed_cut :
    ¬ ∀ (payload : List UInt8), 1 ≤ payload.length → payload.length < 0x100000000 →
      ∀ (t : Transfer payload) (r : Receiver) (held : UInt32),
        Framed payload (r.receive held t.stream) := by
  intro h
  have hreceived : getResponse 0 cutTransfer.stream =
      .ok ⟨5, [some 104, some 101, some 108, none, none]⟩ := by decide
  have hframed := h _ (by decide) (by decide) cutTransfer .getResponse 0 _ hreceived
  exact absurd hframed.2 (by decide)

end RpcBroker
