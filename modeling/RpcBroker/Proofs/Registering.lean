import RpcBroker.Proofs.Registration
/-!
# RpcBroker.Proofs.Registering

**Registering makes every advertised operation routable.** The message a server
packs from its table of names decodes to a registration that lists the table,
and from then on a request for one of these names finds the server, unless an
earlier registration lists the name already.

The sender declares the length of the table twice, in the header
`services-count` and in the array header, and packs the names from the end of
the table to its start; the receiver trusts the header. The two agree, and the
cells it fills are the table in reverse.
-/

namespace RpcBroker

open CLib Msgpack

variable {E : Libs}

/-! ### The count on the wire -/

/-- A length that fits an `int` comes back from the wire as itself. -/
theorem toNat_wordOfInt_ofNat {n : Nat} (h : n < 0x80000000) :
    (wordOfInt (Int32.ofNat n)).toNat = n := by
  rw [toNat_wordOfInt (Int32.zero_le_ofNat_of_lt h), Int32.toNatClampNeg_ofNat_of_lt h]

/-- The allocation for a count in `int` range succeeds, and has a cell for each service. -/
theorem given_mallocServices {u : UInt64} (h : u.toNat < 0x80000000) :
    (mallocServices u).block?.isSome ∧ u.toNat ≤ (mallocServices u).given := by
  have hbytes : (mallocServices u).bytes.toNat = 9 * u.toNat := by
    rw [mallocServices, UInt64.toNat_add, UInt64.toNat_mul]
    simp only [UInt64.reduceToNat]
    omega
  have hblock : (mallocServices u).block? = some (.fresh (9 * u.toNat)) := by
    rw [ServicesArray.block?, CMemory.malloc_of_lt (by omega), hbytes]
  refine ⟨by rw [hblock]; rfl, ?_⟩
  rw [ServicesArray.given, hblock, CMemory.pointee, Option.getD_some, CMemory.Block.room_fresh]
  omega

/-- What `malloc` gives does not depend on what the cells hold. -/
theorem given_bytes (a : ServicesArray) (cell : Nat → Ptr) :
    ServicesArray.given ⟨a.bytes, cell⟩ = a.given := rfl

theorem count?_ofInt (k : Hdr) {i : Int32} (h : 0 ≤ i) :
    (Header.ofInt k i).count? = if k = .servicesCount then some (wordOfInt i) else none := by
  unfold Header.count?
  rw [Header.key_ofInt]
  simp only [Header.ofInt, Object.ofInt_nonneg h, Hdr.text_inj, eq_comm]

@[simp] theorem count?_ofArray (k : Hdr) (elems : List Object) :
    (Header.ofArray k elems).count? = none := rfl

@[simp] theorem elems_ofArray (k : Hdr) (elems : List Object) :
    (Header.ofArray k elems).elems = elems := rfl

theorem elems_ofInt (k : Hdr) {i : Int32} (h : 0 ≤ i) : (Header.ofInt k i).elems = [] := by
  simp only [Header.elems, Header.ofInt, Object.ofInt_nonneg h]

/-! ### The decoded registration -/

/-- The registration of a server at `server` with the table `services`: all
fields assigned, and the counted cells the table in reverse. -/
structure Advertises (reg : ServiceReg) (server : Details) (services : List CString) : Prop where
  address : reg.address = .str server.address
  port : reg.port = .str server.port
  service_name : reg.service_name = .str (.lit "theServiceName")
  count : reg.num_services.toInt = services.length
  room : ∃ a, reg.services = some a ∧ a.block?.isSome ∧ services.length ≤ a.given
  listed : ∀ i s, services.reverse[i]? = some s → reg.service i = .str s

/-- The array a server sends, as the header the decoder takes it from. -/
def servicesHeader (services : List CString) : Header :=
  .ofArray .services (services.reverse.map fun s => .str s.chars)

theorem afterCount_registration (server : Details) {services : List CString}
    (hlen : services.length < 0x80000000) :
    afterCount (registrationHeaders server services) =
      some (wordOfInt (Int32.ofNat services.length), [servicesHeader services]) := by
  have hcount := count?_ofInt .servicesCount (Int32.zero_le_ofNat_of_lt hlen)
  have htype := count?_ofInt .requestType RequestType.serviceRegistration.code_nonneg
  simp [registrationHeaders, servicesHeader, afterCount, hcount, htype]

theorem arraysFit_registration (server : Details) {services : List CString}
    (hlen : services.length < 0x80000000) : ArraysFit (registrationHeaders server services) := by
  have hcount := count?_ofInt .servicesCount (Int32.zero_le_ofNat_of_lt hlen)
  have htype := count?_ofInt .requestType RequestType.serviceRegistration.code_nonneg
  obtain ⟨-, hroom⟩ := given_mallocServices (by rw [toNat_wordOfInt_ofNat hlen]; exact hlen)
  rw [toNat_wordOfInt_ofNat hlen] at hroom
  -- Only the last header has elements.
  have hsplit : registrationHeaders server services =
      (registrationHeaders server services).take 5 ++ [servicesHeader services] := rfl
  rw [hsplit, arraysFit_concat]
  constructor
  · intro before h after htake
    have hmem : h ∈ (registrationHeaders server services).take 5 := by simp [htake]
    have helems : h.elems = [] := by
      simp only [registrationHeaders, List.take_succ_cons, List.take_zero, List.mem_cons,
        List.not_mem_nil, or_false] at hmem
      rcases hmem with rfl | rfl | rfl | rfl | rfl
      · exact elems_ofInt _ RequestType.serviceRegistration.code_nonneg
      · rfl
      · rfl
      · rfl
      · exact elems_ofInt _ (Int32.zero_le_ofNat_of_lt hlen)
    simp [helems]
  · have hafter : afterCount ((registrationHeaders server services).take 5) =
        some (wordOfInt (Int32.ofNat services.length), []) := by
      simp [registrationHeaders, afterCount, hcount, htype]
    rw [roomAfter, hafter]
    simpa [servicesHeader] using hroom

theorem stringArrays_registration (server : Details) {services : List CString}
    (hlen : services.length < 0x80000000) : StringArrays (registrationHeaders server services) := by
  intro h hmem
  have htype : (Header.ofInt .requestType RequestType.serviceRegistration.code).elems = [] :=
    elems_ofInt _ RequestType.serviceRegistration.code_nonneg
  have hcount : (Header.ofInt .servicesCount (Int32.ofNat services.length)).elems = [] :=
    elems_ofInt _ (Int32.zero_le_ofNat_of_lt hlen)
  have hstr : ∀ k s, (Header.ofStr k s).elems = [] := fun _ _ => rfl
  simp only [registrationHeaders, List.mem_cons, List.not_mem_nil, or_false] at hmem
  rcases hmem with rfl | rfl | rfl | rfl | rfl | rfl
  · simp [htype]
  · simp [hstr]
  · simp [hstr]
  · simp [hstr]
  · simp [hcount]
  · intro elem helem
    obtain ⟨s, -, rfl⟩ := List.mem_map.mp helem
    exact ⟨s.chars, rfl⟩

theorem advertises_registration (server : Details) {services : List CString}
    (hlen : services.length < 0x80000000) :
    Advertises (regHeaders E (registrationHeaders server services) .init).reg server services := by
  obtain ⟨hblock, hroom⟩ :=
    given_mallocServices (by rw [toNat_wordOfInt_ofNat hlen]; exact hlen)
  rw [toNat_wordOfInt_ofNat hlen] at hroom
  rw [regHeaders_reg, afterCount_registration server hlen]
  refine ⟨?_, ?_, ?_, ?_, ⟨_, rfl, hblock, (given_bytes _ _).symm ▸ hroom⟩, ?_⟩
  · simp [registrationHeaders, lastStr, List.filterMap_cons]
  · simp [registrationHeaders, lastStr, List.filterMap_cons]
  · simp [registrationHeaders, lastStr, List.filterMap_cons]
  · simp only [Option.map_some, Option.getD_some, intOfWord_wordOfInt]
    exact Int32.toInt_ofNat_of_lt hlen
  · intro i s hi
    simp only [ServiceReg.service, Option.map_some, storedAfter, List.foldl_cons, List.foldl_nil,
      storedCells, if_pos (Nat.zero_le i), Nat.sub_zero, servicesHeader, elems_ofArray]
    rw [List.getElem?_map, hi]
    simp

/-! ### Searching the registry -/

/-- A name is found in a registration exactly when its table has it. -/
theorem listsService_advertises {reg : ServiceReg} {server : Details} {services : List CString}
    (h : Advertises reg server services) (op : CString) :
    listsService E (.str op) reg = true ↔ op ∈ services := by
  have hcount : reg.num_services.toNatClampNeg = services.length := by
    rw [Int32.toNatClampNeg, h.count]
    rfl
  rw [listsService, hcount, ← List.mem_reverse]
  simp only [List.any_eq_true, List.mem_range]
  constructor
  · intro hfound
    obtain ⟨i, hi, heq⟩ := hfound
    have hlt : i < services.reverse.length := by simpa using hi
    rw [h.listed i _ (List.getElem?_eq_getElem hlt), Stulibc.strEquals_str,
      decide_eq_true_eq] at heq
    exact heq ▸ List.getElem_mem hlt
  · intro hmem
    obtain ⟨i, hi⟩ := List.mem_iff_getElem?.mp hmem
    obtain ⟨hlt, -⟩ := List.getElem?_eq_some_iff.mp hi
    refine ⟨i, by simpa using hlt, ?_⟩
    rw [h.listed i op hi]
    simp

/-- **Registering makes every advertised operation routable.** For every table of
non-empty names the message decodes, without a store outside the allocation, to
a registration that advertises the table. Added to any registry, it answers the
requests for each of its names that no earlier registration lists, and for no
other name does it change the answer. -/
theorem registering_makes_routable (E : Libs) (server : Details) {services : List CString}
    {ts : List Token} (hne : ∀ s ∈ services, s ≠ .empty)
    (hts : serviceRegisterWithBroker E server services = some ts) (config : Config) :
    ∃ scan config' ack, unpackServiceRegistrationBuffer E (E.pack ts) = .ok scan ∧
      Advertises scan.reg server services ∧ scan.stray = false ∧
      regSvcReq E (E.pack ts) config = .ok (config', ack) ∧
      config'.svc_repo = config.svc_repo ++ [scan.reg] ∧
      ∀ packet op, getOpName E packet = .ok (.str op) →
        (op ∈ services → (∀ reg ∈ config.svc_repo, listsService E (.str op) reg = false) →
          findServerForReq E packet config' = .ok server.location) ∧
        (op ∉ services →
          findServerForReq E packet config' = findServerForReq E packet config) := by
  have hlen := serviceRegisterWithBroker_some hts
  obtain ⟨ts', hts', hparse⟩ := serviceRegisterWithBroker_parse (E := E) server hne hlen
  obtain rfl : ts = ts' := Option.some.inj (hts.symm.trans hts')
  have hcarries : E.Carries (E.pack ts) (registrationHeaders server services) :=
    carries_of_parse hparse
  have hadv := advertises_registration (E := E) server hlen
  have hstray := (regHeaders_stray (E := E) _).mpr
    ⟨arraysFit_registration server hlen, stringArrays_registration server hlen⟩
  have hscan := unpackServiceRegistrationBuffer_carries hcarries
  have hlists := listsService_advertises (E := E) hadv
  obtain ⟨scan, hscan'⟩ : ∃ scan, scan = regHeaders E (registrationHeaders server services) .init :=
    ⟨_, rfl⟩
  rw [← hscan'] at hadv hstray hscan hlists
  have hreg : ∃ ack, regSvcReq E (E.pack ts) config =
      .ok ({ config with svc_repo := config.svc_repo ++ [scan.reg] }, ack) := by
    obtain ⟨ack, hack⟩ := sendSvcReqAck_carries hcarries
    simp only [regSvcReq, bind_eq_ok, pure_eq_ok]
    exact ⟨ack, scan, hscan, ack, hack, rfl⟩
  obtain ⟨ack, hreg⟩ := hreg
  refine ⟨scan, _, ack, hscan, hadv, hstray, hreg, rfl, ?_⟩
  intro packet op hop
  constructor
  -- The new registration is the first to list the name: all others are before it.
  · intro hmem hearlier
    refine findServerForReq_eq_ok.mpr ⟨_, hop, ?_⟩
    have hnone : config.svc_repo.find? (listsService E (.str op)) = none := by
      rw [List.find?_eq_none]
      intro reg hreg
      simp [hearlier reg hreg]
    rw [serverFor, List.find?_append, hnone, Option.none_or,
      List.find?_cons_of_pos ((hlists op).mpr hmem)]
    simp only [Details.location, hadv.address, hadv.port]
  · intro hmem
    have hno : ¬ listsService E (.str op) scan.reg = true := mt (hlists op).mp hmem
    unfold findServerForReq
    rw [hop]
    simp only [bind, Except.bind, List.find?_append, List.find?_cons_of_neg hno, List.find?_nil,
      Option.or_none]

/-- A server with the table `add`, `subtract`, `add`, registered with an empty
registry, answers `subtract`. -/
theorem registering_makes_routable_subtract :
    ∃ ts config' ack, serviceRegisterWithBroker Libs.reference exampleServer
        [.lit "add", .lit "subtract", .lit "add"] = some ts ∧
      regSvcReq Libs.reference (Libs.reference.pack ts) .init = .ok (config', ack) ∧
      findServerForReq Libs.reference
        (packetOf (requestHeaders exampleClient 7 (.lit "subtract") [])) config' =
        .ok exampleServer.location := by
  have hne : ∀ s ∈ [CString.lit "add", .lit "subtract", .lit "add"], s ≠ .empty := by decide
  obtain ⟨ts, hts, -⟩ := serviceRegisterWithBroker_parse (E := Libs.reference) exampleServer hne
    (by decide)
  obtain ⟨scan, config', ack, -, -, -, hreg, -, hroute⟩ :=
    registering_makes_routable Libs.reference exampleServer hne hts .init
  exact ⟨ts, config', ack, hts, hreg, (hroute _ (.lit "subtract") rfl).1 (by decide)
    (by simp [Config.init])⟩

end RpcBroker
