import RpcBroker.Model.Framing
import RpcBroker.Proofs.Digestible
import RpcBroker.Proofs.Registry
/-!
# RpcBroker.Proofs.Damaged

**A damaged registration is registered all the same.** Where a message is cut, and
what stands behind the cut, are questions about bytes, so the libraries here have
byte strings for buffers (`Libs.ofBytes`).

Cut short behind its request type, a registration still is a sequence of headers,
only a shorter one: the decoder's loop ends as it does at the end of a whole
message, and the broker adds what it has decoded so far (`cutShort_added`). It also
acknowledges that, unless it ends at a field the cut has left unassigned
(`cutShort_acknowledged`). With invalid bytes behind a header the decoder prints a
message and returns what it has; the broker adds that too, and then ends, because
`send_svc_req_ack` reads the packet once more (`invalidTail_exits`).
-/

namespace RpcBroker

open CLib Msgpack

variable {C : ByteCodec} {S : Stulibc}

/-! ### The message in pieces -/

/-- The request type of a registration. -/
def registrationType : List Token :=
  packMapInt Hdr.requestType.text RequestType.serviceRegistration.code

/-- The pieces of a registration behind its request type. -/
def registrationPieces (server : Details) (count : Int32) (names : List CString) :
    List (List Token) :=
  [packMapStr Hdr.senderAddress.text server.address, packMapStr Hdr.replyPort.text server.port,
    packMapStr Hdr.serviceName.text (.lit "theServiceName"),
    packMapInt Hdr.servicesCount.text count,
    .packMap 1 :: ([.packStr 8, .packStrBody (Hdr.services.text.chars.take 8)] ++
      (.packArray names.length :: (nameTokens names).flatten))]

/-- The headers they are. -/
def pieceHeaders (server : Details) (count : Int32) (names : List CString) : List Header :=
  [.ofStr .senderAddress server.address, .ofStr .replyPort server.port,
    .ofStr .serviceName (.lit "theServiceName"), .ofInt .servicesCount count,
    .ofArray .services (names.map fun s => .str s.chars)]

theorem registrationPieces_parse (server : Details) (count : Int32) (names : List CString) :
    List.Forall₂ (fun ts o => parse ts = some [o]) (registrationPieces server count names)
      ((pieceHeaders server count names).map Header.object) := by
  have hname : Completes [.packStr 8, .packStrBody (Hdr.services.text.chars.take 8)]
      (.str Hdr.services.text.chars) := Completes.str Hdr.services.text.chars
  have harray := Completes.array (completes_names names)
  rw [List.length_map] at harray
  exact .cons (completes_packMapStr _ _).encodes.parse
    (.cons (completes_packMapStr _ _).encodes.parse
      (.cons (completes_packMapStr _ _).encodes.parse
        (.cons (completes_packMapInt _ _).encodes.parse
          (.cons (Completes.entry hname harray).encodes.parse .nil))))

/-- A registration is its request type and these pieces. Where the table has empty
names the loop skips them and the array comes out too short: such a message ends
before its last header is complete. -/
theorem serviceRegisterWithBroker_pieces {E : Libs} {server : Details} {services : List CString}
    {ts : List Token} (h : serviceRegisterWithBroker E server services = some ts) :
    ∃ names missing, ts ++ missing =
      registrationType ++
        (registrationPieces server (Int32.ofNat services.length) names).flatten := by
  have hlen := serviceRegisterWithBroker_some h
  have hle : (services.filter (· ≠ .empty)).length ≤ services.length := List.length_filter_le ..
  rw [serviceRegisterWithBroker, if_pos hlen, packServicesLoop_filter,
    List.take_of_length_le (Nat.le_succ _)] at h
  obtain rfl := Option.some.inj h
  generalize services.filter (· ≠ .empty) = present at hle
  have hcount : (present.reverse ++
      List.replicate (services.length - present.length) CString.empty).length =
      services.length := by
    rw [List.length_append, List.length_reverse, List.length_replicate]
    omega
  refine ⟨present.reverse ++ List.replicate (services.length - present.length) .empty,
    (nameTokens (List.replicate (services.length - present.length) .empty)).flatten, ?_⟩
  rw [registrationPieces, hcount]
  simp only [registrationType, nameTokens, List.map_append, List.flatten_append, List.flatten_cons,
    List.flatten_nil, List.append_nil, List.nil_append, List.append_assoc, List.cons_append]

/-! ### Damage -/

/-- The message is cut short somewhere behind its request type. -/
def CutShort (C : ByteCodec) (ts : List Token) (packet : List UInt8) : Prop :=
  ∃ bytes missing, packet = C.pack registrationType ++ bytes ∧ packet ++ missing = C.pack ts ∧
    missing ≠ []

/-- Behind the request type and some complete headers of the message come the
bytes `bad`, which are not valid. -/
def InvalidTail (C : ByteCodec) (ts : List Token) (bad packet : List UInt8) : Prop :=
  ∃ us vs os, ts = registrationType ++ us ++ vs ∧ parse us = some os ∧
    packet = C.pack (registrationType ++ us) ++ bad ∧ (C.unpack bad).status = .parseError

/-- What can become of a registration on its way. -/
def Damaged (C : ByteCodec) (ts : List Token) (packet : List UInt8) : Prop :=
  CutShort C ts packet ∨ ∃ bad, InvalidTail C ts bad packet

/-- The packet leaves the repositories as they are, and no acknowledgement is
sent. -/
def Unregistered (E : Libs) (config : Config) (packet : E.Buffer) : Prop :=
  ∃ sents, readData E config packet = .ok (config, sents) ∧
    ∀ sent ∈ sents, getReqType E sent.packet ≠ .ok RequestType.serviceRegistrationAck.code

/-- The acknowledgement is of its type. -/
theorem sendSvcReqAck_type {E : Libs} {packet : E.Buffer} {ack : Sent E.Buffer}
    (h : sendSvcReqAck E packet = .ok ack) :
    getReqType E ack.packet = .ok RequestType.serviceRegistrationAck.code := by
  simp only [sendSvcReqAck, bind_eq_ok, pure_eq_ok] at h
  obtain ⟨id, -, port, -, address, -, rfl⟩ := h
  exact getReqType_carries (carries_of_parse (packSvcReqAck_parse id)) (by simp [RequestType.code_nonneg])

/-- The request type is read first, whatever comes behind it. -/
theorem unpack_registrationType {us : List Token} {os : List Object} (h : parse us = some os)
    (rest : List UInt8) :
    C.unpack (C.pack (registrationType ++ us) ++ rest) =
      ⟨(Header.ofInt .requestType RequestType.serviceRegistration.code).object ::
        (os ++ (C.unpack rest).objects), (C.unpack rest).status⟩ :=
  C.unpack_append rest ((completes_packMapInt _ _).encodes.parse_append h)

/-- **Cut short, a registration is a shorter sequence of headers.** -/
theorem cutShort_carries {server : Details} {services : List CString} {ts : List Token}
    (hts : serviceRegisterWithBroker (Libs.ofBytes C S) server services = some ts)
    {packet : List UInt8} (hcut : CutShort C ts packet) :
    ∃ hs, (Libs.ofBytes C S).Carries packet
      (Header.ofInt .requestType RequestType.serviceRegistration.code :: hs) := by
  obtain ⟨bytes, missing, rfl, hmissing, hne⟩ := hcut
  obtain ⟨names, padding, hpieces⟩ := serviceRegisterWithBroker_pieces hts
  -- The cut is one of the padded message as well.
  have hbytes : bytes ++ (missing ++ C.pack padding) =
      C.pack (registrationPieces server (Int32.ofNat services.length) names).flatten := by
    have hwhole := congrArg C.pack hpieces
    rw [C.pack_append, C.pack_append, ← hmissing, List.append_assoc, List.append_assoc] at hwhole
    exact List.append_cancel_left hwhole
  obtain ⟨n, hn⟩ := C.unpack_take (registrationPieces_parse server _ names) hbytes (by simp [hne])
  refine ⟨(pieceHeaders server (Int32.ofNat services.length) names).take n, ?_⟩
  show C.unpack (C.pack registrationType ++ bytes) = _
  have hunpack := unpack_registrationType (C := C) (show parse [] = some [] from rfl) bytes
  rw [List.append_nil, hn] at hunpack
  rw [hunpack, List.map_cons, List.map_take]
  rfl

/-- What the broker makes of a registration that is cut short, as long as it goes on. -/
theorem cutShort_readData {server : Details} {services : List CString} {ts : List Token}
    (hts : serviceRegisterWithBroker (Libs.ofBytes C S) server services = some ts)
    {packet : List UInt8} (hcut : CutShort C ts packet) (config : Config) :
    ∃ reg ack, regSvcReqAdded (Libs.ofBytes C S) packet config =
        .ok { config with svc_repo := config.svc_repo ++ [reg] } ∧
      readData (Libs.ofBytes C S) config packet =
        .ok ({ config with svc_repo := config.svc_repo ++ [reg] }, [ack]) ∧
      getReqType (Libs.ofBytes C S) ack.packet = .ok RequestType.serviceRegistrationAck.code := by
  obtain ⟨hs, hcarries⟩ := cutShort_carries hts hcut
  have htype : getReqType (Libs.ofBytes C S) packet =
      .ok RequestType.serviceRegistration.code :=
    getReqType_carries hcarries (by simp [RequestType.code_nonneg])
  have hscan := unpackServiceRegistrationBuffer_carries hcarries
  obtain ⟨ack, hack⟩ := sendSvcReqAck_carries hcarries
  refine ⟨_, ack, ?_, readData_iff.mpr (.registration htype hscan hack), sendSvcReqAck_type hack⟩
  unfold regSvcReqAdded
  rw [hscan]
  rfl

/-- A registration that is cut short is added. -/
theorem cutShort_added {server : Details} {services : List CString} {ts : List Token}
    (hts : serviceRegisterWithBroker (Libs.ofBytes C S) server services = some ts)
    {packet : List UInt8} (hcut : CutShort C ts packet) (config : Config) :
    ∃ reg, regSvcReqAdded (Libs.ofBytes C S) packet config =
      .ok { config with svc_repo := config.svc_repo ++ [reg] } := by
  obtain ⟨reg, _, hadded, -, -⟩ := cutShort_readData hts hcut config
  exact ⟨reg, hadded⟩

/-- It is acknowledged too, if the fields that are read have been assigned and the
acknowledgement can be sent. -/
theorem cutShort_acknowledged {server : Details} {services : List CString} {ts : List Token}
    (hts : serviceRegisterWithBroker (Libs.ofBytes C S) server services = some ts)
    {packet : List UInt8} (hcut : CutShort C ts packet) {config : Config} {sends : Checked.Sends}
    (hdigestible : Checked.Digestible (Libs.ofBytes C S) sends config packet) :
    ∃ reg ack, Checked.readData (Libs.ofBytes C S) sends config packet =
        .ok ({ config with svc_repo := config.svc_repo ++ [reg] }, [ack]) ∧
      getReqType (Libs.ofBytes C S) ack.packet = .ok RequestType.serviceRegistrationAck.code := by
  obtain ⟨reg, ack, -, hread, htype⟩ := cutShort_readData hts hcut config
  exact ⟨reg, ack, Checked.readData_iff.mpr ⟨hdigestible, hread⟩, htype⟩

/-- Complete objects behind the request type are headers. -/
theorem pieces_headers {E : Libs} {server : Details} {services : List CString}
    {ts us vs : List Token} {os : List Object}
    (hts : serviceRegisterWithBroker E server services = some ts)
    (hsplit : ts = registrationType ++ us ++ vs) (hparse : parse us = some os) :
    ∃ hs : List Header, os = hs.map Header.object := by
  obtain ⟨names, padding, hpieces⟩ := serviceRegisterWithBroker_pieces hts
  rw [hsplit, List.append_assoc, List.append_assoc] at hpieces
  have hflat := parse_flatten
    (registrationPieces_parse server (Int32.ofNat services.length) names)
  rw [← List.append_cancel_left hpieces, parse_append hparse] at hflat
  obtain ⟨os', -, happend⟩ := Option.map_eq_some_iff.mp hflat
  obtain ⟨hs, -, -, hos, -⟩ := List.map_eq_append_iff.mp happend.symm
  exact ⟨hs, hos.symm⟩

/-- A registration with invalid bytes in it ends the broker. -/
theorem invalidTail_exits {ts : List Token} {bad packet : List UInt8}
    (htail : InvalidTail C ts bad packet) (config : Config) :
    ∃ e, readData (Libs.ofBytes C S) config packet = .error e := by
  obtain ⟨us, vs, os, -, hparse, rfl, hbad⟩ := htail
  have hunpack : (Libs.ofBytes C S).unpack (C.pack (registrationType ++ us) ++ bad) = _ :=
    unpack_registrationType hparse bad
  have htype : getReqType (Libs.ofBytes C S) (C.pack (registrationType ++ us) ++ bad) =
      .ok RequestType.serviceRegistration.code := by
    refine getReqType_eq_ok.mpr (Or.inr ⟨.str Hdr.requestType.text.chars,
      wordOfInt RequestType.serviceRegistration.code, os ++ (C.unpack bad).objects, ?_, ?_, ?_⟩)
    · rw [hunpack]
      rfl
    · rw [Codec.viaStr_str, CString.ofBytes_chars]
    · exact (intOfWord_wordOfInt _).symm
  cases hread : readData (Libs.ofBytes C S) config (C.pack (registrationType ++ us) ++ bad) with
  | error e => exact ⟨e, rfl⟩
  | ok r =>
      obtain ⟨t, ht, hrest⟩ := readData_returns_iff.mp ⟨r, hread⟩
      obtain rfl : RequestType.serviceRegistration.code = t := Except.ok.inj (htype.symm.trans ht)
      rcases hrest with (⟨-, hreg, -⟩ | ⟨hresp, -⟩) | hparsable
      · exact absurd rfl hreg
      · exact absurd hresp (by decide)
      · refine absurd ?_ hparsable.1
        rw [hunpack]
        exact hbad

/-- By then the registration has been added, with what came before the invalid
bytes. -/
theorem invalidTail_added {server : Details} {services : List CString} {ts : List Token}
    (hts : serviceRegisterWithBroker (Libs.ofBytes C S) server services = some ts)
    {bad packet : List UInt8} (htail : InvalidTail C ts bad packet)
    (hbad : (C.unpack bad).objects = []) (config : Config) :
    ∃ reg, regSvcReqAdded (Libs.ofBytes C S) packet config =
      .ok { config with svc_repo := config.svc_repo ++ [reg] } := by
  obtain ⟨us, vs, os, hsplit, hparse, rfl, -⟩ := htail
  obtain ⟨hs, rfl⟩ := pieces_headers hts hsplit hparse
  have hunpack := unpack_registrationType (C := C) hparse bad
  rw [hbad, List.append_nil, ← List.map_cons (f := Header.object)] at hunpack
  have hentries : Entries (Libs.ofBytes C S)
      ((Libs.ofBytes C S).unpack (C.pack (registrationType ++ us) ++ bad)).objects
      (Header.ofInt .requestType RequestType.serviceRegistration.code :: hs) := by
    show Entries _ (C.unpack _).objects _
    rw [hunpack]
    exact entries_headers _
  refine ⟨(regHeaders (Libs.ofBytes C S)
    (.ofInt .requestType RequestType.serviceRegistration.code :: hs) .init).reg, ?_⟩
  unfold regSvcReqAdded unpackServiceRegistrationBuffer
  rw [unpackRegistrationLoop_entries hentries]
  rfl

theorem not_unregistered {server : Details} {services : List CString} {ts : List Token}
    (hts : serviceRegisterWithBroker (Libs.ofBytes C S) server services = some ts)
    {packet : List UInt8} (hdamaged : Damaged C ts packet) (config : Config) :
    ¬ Unregistered (Libs.ofBytes C S) config packet := by
  rintro ⟨sents, hread, -⟩
  rcases hdamaged with hcut | ⟨bad, htail⟩
  · obtain ⟨reg, ack, -, hstep, -⟩ := cutShort_readData hts hcut config
    have hsame := congrArg Config.svc_repo
      (Prod.mk.inj (Except.ok.inj (hstep.symm.trans hread))).1
    exact absurd hsame (by simp)
  · obtain ⟨e, hexit⟩ := invalidTail_exits (S := S) htail config
    exact absurd (hexit.symm.trans hread) (by simp)

/-- **No damaged registration is left out.** One that is cut short is added, and
acknowledged if the cut leaves nothing unassigned that is read; one with invalid bytes in
it ends the broker, which has added it by then unless the bytes hold something else before
they are invalid. -/
theorem damaged_registered (C : ByteCodec) (S : Stulibc) {server : Details}
    {services : List CString} {ts : List Token} {packet : List UInt8}
    (hts : serviceRegisterWithBroker (Libs.ofBytes C S) server services = some ts)
    (hdamaged : Damaged C ts packet) (config : Config) :
    ¬ Unregistered (Libs.ofBytes C S) config packet ∧
    (CutShort C ts packet →
      (∃ reg, regSvcReqAdded (Libs.ofBytes C S) packet config =
        .ok { config with svc_repo := config.svc_repo ++ [reg] }) ∧
      ∀ sends, Checked.Digestible (Libs.ofBytes C S) sends config packet →
        ∃ reg ack, Checked.readData (Libs.ofBytes C S) sends config packet =
            .ok ({ config with svc_repo := config.svc_repo ++ [reg] }, [ack]) ∧
          getReqType (Libs.ofBytes C S) ack.packet =
            .ok RequestType.serviceRegistrationAck.code) ∧
    ∀ bad, InvalidTail C ts bad packet →
      (∃ e, readData (Libs.ofBytes C S) config packet = .error e) ∧
      ((C.unpack bad).objects = [] → ∃ reg, regSvcReqAdded (Libs.ofBytes C S) packet config =
        .ok { config with svc_repo := config.svc_repo ++ [reg] }) :=
  ⟨not_unregistered hts hdamaged config,
    fun hcut => ⟨cutShort_added hts hcut config,
      fun _ hdigestible => cutShort_acknowledged hts hcut hdigestible⟩,
    fun _ htail =>
      ⟨invalidTail_exits htail config, fun hbad => invalidTail_added hts htail hbad config⟩⟩

/-- The headers behind the request type, up to `service-name`. -/
def keptHeaders : List Token :=
  packMapStr Hdr.senderAddress.text exampleServer.address ++
    packMapStr Hdr.replyPort.text exampleServer.port ++
    packMapStr Hdr.serviceName.text (.lit "theServiceName")

/-- The others, of the registration of `add`. -/
def cutHeaders : List Token :=
  packMapInt Hdr.servicesCount.text 1 ++
    [.packMap 1, .packStr 8, .packStrBody (Hdr.services.text.chars.take 8), .packArray 1,
      .packStr 3, .packStrBody (CString.lit "add").chars]

theorem serviceRegisterWithBroker_add (S : Stulibc) :
    serviceRegisterWithBroker (Libs.ofBytes .messagePack S) exampleServer [.lit "add"] =
      some (registrationType ++ keptHeaders ++ cutHeaders) := by
  rw [serviceRegisterWithBroker, if_pos (by decide), packServicesLoop_eq (by decide)]
  rfl

/-- The registration of `add`, cut between its headers `service-name` and
`services-count`. -/
def cutRegistration : List UInt8 := packBytes registrationType ++ packBytes keptHeaders

theorem cutShort_add :
    CutShort .messagePack (registrationType ++ keptHeaders ++ cutHeaders) cutRegistration := by
  refine ⟨packBytes keptHeaders, packBytes cutHeaders, rfl, ?_, by decide⟩
  show packBytes registrationType ++ packBytes keptHeaders ++ packBytes cutHeaders =
    packBytes (registrationType ++ keptHeaders ++ cutHeaders)
  rw [packBytes, packBytes, packBytes, packBytes, List.flatMap_append, List.flatMap_append]

theorem damaged_registered_add :
    ¬ Unregistered (Libs.ofBytes .messagePack Libs.reference.toStulibc) .init cutRegistration :=
  (damaged_registered .messagePack Libs.reference.toStulibc
    (serviceRegisterWithBroker_add _) (Or.inl cutShort_add) .init).1

/-- The broker registers the message that is cut short. -/
theorem damaged_registered_cut :
    ¬ ∀ (C : ByteCodec) (S : Stulibc) (server : Details) (services : List CString)
        (ts : List Token) (packet : List UInt8) (config : Config),
      serviceRegisterWithBroker (Libs.ofBytes C S) server services = some ts →
      Damaged C ts packet → Unregistered (Libs.ofBytes C S) config packet := by
  intro h
  exact not_unregistered (serviceRegisterWithBroker_add Libs.reference.toStulibc)
    (Or.inl cutShort_add) .init (h .messagePack _ _ _ _ _ .init
      (serviceRegisterWithBroker_add _) (Or.inl cutShort_add))

end RpcBroker
