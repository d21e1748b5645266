import RpcBroker.Proofs.Lookup
import RpcBroker.Proofs.Registering
/-!
# RpcBroker.Proofs.Disturbed

**Registrations in another order, and with other headers between.** The decoder
takes the strings and the count by name, so neither matters to them. It takes every
array for the services, whatever its name, and puts it where the last
`services-count` has left the pointer. So an array before the count is stored
through a pointer nobody assigned, and one behind it overwrites the services.

`Undisturbed` is what a packet must have for its registration to come out as
the original one, and it is all that it takes (`sameRegistration_iff`).
-/

namespace RpcBroker

open CLib Msgpack

variable {E : Libs}

/-! ### The elements of arrays -/

/-- The element at an index of the last array that reaches it. -/
def lastElem (hs : List Header) (i : Nat) : Option Object :=
  (hs.filterMap fun h => h.elems[i]?).getLast?

/-- What a cell holds for the element stored last. -/
def cellOf (E : Libs) : Option Object → Ptr
  | some obj => .str (.ofBytes (E.viaStr obj))
  | none => .unassigned

theorem storedAfter_eq (hs : List Header) (i : Nat) :
    storedAfter E hs i = cellOf E (lastElem hs i) := by
  induction hs using List.reverseRecOn with
  | nil => rfl
  | append_singleton hs h ih =>
      have hstep : storedAfter E (hs ++ [h]) i = storedCells E (storedAfter E hs) 0 h.elems i := by
        rw [storedAfter, List.foldl_append]
        rfl
      rw [hstep, storedCells, if_pos (Nat.zero_le i), Nat.sub_zero, lastElem,
        List.filterMap_append, List.getLast?_append]
      cases helem : h.elems[i]? with
      | some obj => simp [helem, cellOf]
      | none => simpa [helem, lastElem] using ih

/-- The headers behind the last count are headers of the packet. -/
theorem mem_of_afterCount {hs after : List Header} {u : UInt64}
    (h : afterCount hs = some (u, after)) : ∀ g ∈ after, g ∈ hs := by
  induction hs with
  | nil => exact absurd h (by simp [afterCount])
  | cons g hs ih =>
      rw [afterCount, Option.or_eq_some_iff] at h
      intro f hf
      rcases h with hrest | ⟨-, hcount⟩
      · exact List.mem_cons_of_mem _ (ih hrest f hf)
      · obtain ⟨_, -, heq⟩ := Option.map_eq_some_iff.mp hcount
        obtain ⟨-, rfl⟩ := Prod.mk.inj heq
        exact List.mem_cons_of_mem _ hf

theorem afterCount_isSome {hs : List Header} (h : ∃ g ∈ hs, g.count?.isSome) :
    ∃ u after, afterCount hs = some (u, after) := by
  obtain ⟨g, hg, hcount⟩ := h
  induction hs with
  | nil => exact absurd hg (by simp)
  | cons f hs ih =>
      rw [afterCount]
      cases hrest : afterCount hs with
      | some p => exact ⟨p.1, p.2, rfl⟩
      | none =>
          rcases List.mem_cons.mp hg with rfl | hg
          · obtain ⟨u, hu⟩ := Option.isSome_iff_exists.mp hcount
            exact ⟨u, hs, by rw [hu]; rfl⟩
          · obtain ⟨u, after, hsome⟩ := ih hg
            exact absurd (hrest.symm.trans hsome) (by simp)

/-! ### Varied registrations -/

/-- A value an additional header may have: an integer, a string or an array of
strings. -/
def PlainValue : Object → Prop
  | .positiveInteger _ | .negativeInteger _ | .str _ => True
  | .array elems => ∀ elem ∈ elems, ∃ bytes, elem = .str bytes
  | _ => False

/-- A header the protocol does not know. -/
structure Additional (h : Header) : Prop where
  short : h.name.length < maxHeaderNameSize
  unknown : ∀ k : Hdr, h.name ≠ k.text.chars
  plain : PlainValue h.val

/-- The headers of a server's registration in any order, with additional ones
anywhere between them. -/
def VariesFrom (server : Details) (services : List CString) (hs : List Header) : Prop :=
  ∃ extras, hs.Perm (registrationHeaders server services ++ extras) ∧ ∀ h ∈ extras, Additional h

theorem Additional.elems {h : Header} (hadd : Additional h) :
    ∀ elem ∈ h.elems, ∃ bytes, elem = .str bytes := by
  have hplain := hadd.plain
  unfold Header.elems
  cases hval : h.val with
  | array elems =>
      rw [hval] at hplain
      exact hplain
  | _ => simp

/-- All arrays are arrays of strings. -/
theorem VariesFrom.elems {server : Details} {services : List CString} {hs : List Header}
    (hlen : services.length < 0x80000000) (hvaries : VariesFrom server services hs) :
    StringArrays hs := by
  obtain ⟨extras, hperm, hextras⟩ := hvaries
  intro h hmem
  rcases List.mem_append.mp (hperm.mem_iff.mp hmem) with hown | hextra
  · exact stringArrays_registration server hlen h hown
  · exact (hextras h hextra).elems

/-- The count is among them. -/
theorem VariesFrom.afterCount {server : Details} {services : List CString} {hs : List Header}
    (hlen : services.length < 0x80000000) (hvaries : VariesFrom server services hs) :
    ∃ u after, afterCount hs = some (u, after) := by
  obtain ⟨extras, hperm, -⟩ := hvaries
  refine afterCount_isSome ⟨.ofInt .servicesCount (Int32.ofNat services.length), ?_, ?_⟩
  · exact hperm.mem_iff.mpr (List.mem_append_left _ (by simp [registrationHeaders]))
  · rw [count?_ofInt _ (Int32.zero_le_ofNat_of_lt hlen), if_pos rfl]
    rfl

/-! ### The same registration -/

/-- Two registrations with the same fields and the same services, as far as they are
counted. -/
structure SameRegistration (reg reg' : ServiceReg) : Prop where
  address : reg'.address = reg.address
  port : reg'.port = reg.port
  service_name : reg'.service_name = reg.service_name
  num_services : reg'.num_services = reg.num_services
  services : ∀ i < reg.num_services.toNatClampNeg, reg'.service i = reg.service i

/-- The second packet decodes, with no store outside the array of services, to the
registration the first one decodes to. -/
def YieldsSame (E : Libs) (packet packet' : E.Buffer) : Prop :=
  ∃ scan scan', unpackServiceRegistrationBuffer E packet = .ok scan ∧
    unpackServiceRegistrationBuffer E packet' = .ok scan' ∧ scan'.stray = false ∧
    SameRegistration scan.reg scan'.reg

/-- The strings and the count are read as they are in the original registration; and
the arrays do it no harm. None of them is longer than the allocation of the count
before it, so none comes before the first count, and behind the last count the
last one that reaches a counted cell has the original service there. -/
structure Undisturbed (server : Details) (services : List CString) (hs : List Header) : Prop where
  address : lastStr Hdr.senderAddress.text hs = some server.address
  port : lastStr Hdr.replyPort.text hs = some server.port
  service_name : lastStr Hdr.serviceName.text hs = some (.lit "theServiceName")
  services : ∃ u after, afterCount hs = some (u, after) ∧
    intOfWord u = Int32.ofNat services.length ∧
    ∀ i s, services.reverse[i]? = some s →
      ∃ bytes, lastElem after i = some (.str bytes) ∧ s = .ofBytes bytes
  arrays : ArraysFit hs

theorem strResult_eq_str {found : Option CString} {s : CString} :
    strResult found = .str s ↔ found = some s := by
  cases found with
  | none => simp [strResult]
  | some t => simp

theorem cellOf_eq_str {found : Option Object} {s : CString}
    (hstr : ∀ obj, found = some obj → ∃ bytes, obj = .str bytes) :
    cellOf E found = .str s ↔ ∃ bytes, found = some (.str bytes) ∧ s = .ofBytes bytes := by
  cases found with
  | none => simp [cellOf]
  | some obj =>
      obtain ⟨bytes, rfl⟩ := hstr obj rfl
      simp [cellOf, eq_comm]

/-- The elements found are elements of arrays. -/
theorem lastElem_str {hs : List Header}
    (hstr : ∀ h ∈ hs, ∀ elem ∈ h.elems, ∃ bytes, elem = .str bytes) {i : Nat} {obj : Object}
    (h : lastElem hs i = some obj) : ∃ bytes, obj = .str bytes := by
  obtain ⟨g, hg, helem⟩ := List.mem_filterMap.mp (List.mem_of_getLast? h)
  exact hstr g hg obj (List.mem_of_getElem? helem)

/-- **A varied registration is the original one exactly when it is undisturbed.** -/
theorem sameRegistration_iff (E : Libs) {server : Details} {services : List CString}
    {ts : List Token} {packet : E.Buffer} {hs : List Header}
    (hne : ∀ s ∈ services, s ≠ .empty)
    (hts : serviceRegisterWithBroker E server services = some ts)
    (hvaries : VariesFrom server services hs) (hcarries : E.Carries packet hs) :
    YieldsSame E (E.pack ts) packet ↔ Undisturbed server services hs := by
  have hlen := serviceRegisterWithBroker_some hts
  obtain ⟨ts', hts', hparse⟩ := serviceRegisterWithBroker_parse (E := E) server hne hlen
  obtain rfl : ts = ts' := Option.some.inj (hts.symm.trans hts')
  have hscan := unpackServiceRegistrationBuffer_carries (E := E) (carries_of_parse hparse)
  have hscan' := unpackServiceRegistrationBuffer_carries hcarries
  have hyields : YieldsSame E (E.pack ts) packet ↔
      (regHeaders E hs .init).stray = false ∧
        SameRegistration (regHeaders E (registrationHeaders server services) .init).reg
          (regHeaders E hs .init).reg := by
    constructor
    · intro h
      obtain ⟨scan, scan', hok, hok', hstray, hsame⟩ := h
      obtain rfl := Except.ok.inj (hscan.symm.trans hok)
      obtain rfl := Except.ok.inj (hscan'.symm.trans hok')
      exact ⟨hstray, hsame⟩
    · intro h
      exact ⟨_, _, hscan, hscan', h.1, h.2⟩
  have horiginal := advertises_registration (E := E) server hlen
  generalize (regHeaders E (registrationHeaders server services) .init).reg = reg at *
  obtain ⟨u, after, hafter⟩ := hvaries.afterCount hlen
  have hcount : reg.num_services = Int32.ofNat services.length := by
    rw [← Int32.toInt_inj, horiginal.count, Int32.toInt_ofNat_of_lt hlen]
  have hnum : reg.num_services.toNatClampNeg = services.length := by
    rw [hcount, Int32.toNatClampNeg_ofNat_of_lt hlen]
  have hcell : ∀ i s, services.reverse[i]? = some s →
      ((regHeaders E hs .init).reg.service i = reg.service i ↔
        ∃ bytes, lastElem after i = some (.str bytes) ∧ s = .ofBytes bytes) := by
    intro i s hi
    have hstored : (regHeaders E hs .init).reg.service i = storedAfter E after i := by
      rw [regHeaders_reg, hafter]
      rfl
    rw [hstored, horiginal.listed i s hi, storedAfter_eq, cellOf_eq_str]
    intro obj hobj
    exact lastElem_str (fun h hmem => hvaries.elems hlen h (mem_of_afterCount hafter h hmem)) hobj
  rw [hyields, regHeaders_stray, and_iff_left (hvaries.elems hlen)]
  constructor
  · rintro ⟨harrays, haddress, hport, hname, hservices, hcells⟩
    rw [regHeaders_reg] at haddress hport hname hservices
    rw [horiginal.address] at haddress
    rw [horiginal.port] at hport
    rw [horiginal.service_name] at hname
    rw [hafter, hcount] at hservices
    refine ⟨strResult_eq_str.mp haddress, strResult_eq_str.mp hport, strResult_eq_str.mp hname,
      ⟨u, after, hafter, hservices, ?_⟩, harrays⟩
    intro i s hi
    refine (hcell i s hi).mp (hcells i ?_)
    rw [hnum, ← List.length_reverse]
    exact (List.getElem?_eq_some_iff.mp hi).1
  · rintro ⟨haddress, hport, hname, ⟨u', after', hafter', hcount', hcells⟩, harrays⟩
    obtain ⟨rfl, rfl⟩ := Prod.mk.inj (Option.some.inj (hafter.symm.trans hafter'))
    refine ⟨harrays, ?_, ?_, ?_, ?_, ?_⟩
    · rw [regHeaders_reg, horiginal.address]
      exact strResult_eq_str.mpr haddress
    · rw [regHeaders_reg, horiginal.port]
      exact strResult_eq_str.mpr hport
    · rw [regHeaders_reg, horiginal.service_name]
      exact strResult_eq_str.mpr hname
    · rw [regHeaders_reg, hafter, hcount]
      exact hcount'
    · intro i hi
      rw [hnum, ← List.length_reverse] at hi
      have hget := List.getElem?_eq_getElem hi
      exact (hcell i _ hget).mpr (hcells i _ hget)

/-- A number the protocol does not know. -/
def versionHeader : Header := ⟨(CString.lit "version").chars, .positiveInteger 3⟩

/-- The registration of `add` with it, the services in front of the strings. -/
def reorderedHeaders : List Header :=
  .ofInt .requestType RequestType.serviceRegistration.code ::
    ([.ofInt .servicesCount 1, .ofArray .services [.str (CString.lit "add").chars], versionHeader] ++
      [.ofStr .senderAddress exampleServer.address, .ofStr .replyPort exampleServer.port,
        .ofStr .serviceName (.lit "theServiceName")])

theorem sameRegistration_reordered :
    ∃ ts, serviceRegisterWithBroker Libs.reference exampleServer [.lit "add"] = some ts ∧
      YieldsSame Libs.reference (Libs.reference.pack ts) (packetOf reorderedHeaders) := by
  have hne : ∀ s ∈ [CString.lit "add"], s ≠ .empty := by decide
  obtain ⟨ts, hts, -⟩ := serviceRegisterWithBroker_parse (E := Libs.reference) exampleServer hne
    (by decide)
  have hvaries : VariesFrom exampleServer [.lit "add"] reorderedHeaders := by
    refine ⟨[versionHeader], .cons _ List.perm_append_comm, ?_⟩
    intro h hmem
    obtain rfl := List.mem_singleton.mp hmem
    exact ⟨by decide, fun k => by cases k <;> decide, trivial⟩
  have hfit : ArraysFit reorderedHeaders := ((regHeaders_stray (E := Libs.reference) _).mp rfl).1
  refine ⟨ts, hts, (sameRegistration_iff Libs.reference hne hts hvaries rfl).mpr ?_⟩
  refine ⟨rfl, rfl, rfl, ⟨_, _, rfl, rfl, ?_⟩, hfit⟩
  intro i s hi
  match i with
  | 0 =>
      obtain rfl := Option.some.inj hi
      exact ⟨_, rfl, rfl⟩
  | i + 1 => exact absurd hi (by simp)

/-- The registration of `add` with an array of another name behind it. -/
def taggedHeaders : List Header :=
  registrationHeaders exampleServer [.lit "add"] ++
    [⟨(CString.lit "tags").chars, .array [.str (CString.lit "x").chars]⟩]

/-- The service is `x` now. -/
theorem sameRegistration_tagged :
    ¬ ∀ (E : Libs) (server : Details) (services : List CString) (ts : List Token)
        (packet : E.Buffer) (hs : List Header), (∀ s ∈ services, s ≠ .empty) →
      serviceRegisterWithBroker E server services = some ts → VariesFrom server services hs →
      E.Carries packet hs → YieldsSame E (E.pack ts) packet := by
  intro h
  have hne : ∀ s ∈ [CString.lit "add"], s ≠ .empty := by decide
  obtain ⟨ts, hts, hparse⟩ := serviceRegisterWithBroker_parse (E := Libs.reference) exampleServer
    hne (by decide)
  have hvaries : VariesFrom exampleServer [.lit "add"] taggedHeaders := by
    refine ⟨_, .refl _, ?_⟩
    intro h hmem
    obtain rfl := List.mem_singleton.mp hmem
    exact ⟨by decide, fun k => by cases k <;> decide, fun elem helem =>
      ⟨_, List.mem_singleton.mp helem⟩⟩
  obtain ⟨scan, scan', hok, hok', -, hsame⟩ :=
    h Libs.reference _ _ ts (packetOf taggedHeaders) _ hne hts hvaries rfl
  have hscan := unpackServiceRegistrationBuffer_carries (E := Libs.reference)
    (carries_of_parse hparse)
  have hscan' := unpackServiceRegistrationBuffer_carries (E := Libs.reference)
    (show Libs.reference.Carries (packetOf taggedHeaders) taggedHeaders from rfl)
  obtain rfl := Except.ok.inj (hscan.symm.trans hok)
  obtain rfl := Except.ok.inj (hscan'.symm.trans hok')
  have hservice := hsame.services 0 (by decide)
  have hadd : (regHeaders Libs.reference
      (registrationHeaders exampleServer [.lit "add"]) .init).reg.service 0 = .str (.lit "add") :=
    rfl
  have htag : (regHeaders Libs.reference taggedHeaders .init).reg.service 0 = .str (.lit "x") := rfl
  rw [hadd, htag] at hservice
  exact absurd hservice (by decide)

/-! ### Names without NUL -/

/-- The strings of an array header have no share in the fields. -/
theorem nodup_keys_registration (server : Details) (services : List CString) :
    ((registrationHeaders server services).map Header.key).Nodup := by
  simp [registrationHeaders]

theorem afterCount_fst (hs : List Header) :
    (afterCount hs).map Prod.fst = (hs.filterMap Header.count?).getLast? := by
  induction hs using List.reverseRecOn with
  | nil => rfl
  | append_singleton hs h ih =>
      rw [afterCount_concat, List.filterMap_append, List.getLast?_append]
      cases hcount : h.count? with
      | some u => simp [hcount]
      | none => simp [hcount, ← ih, Option.map_map, Function.comp_def]

/-- **If no additional name has a NUL in it, only the arrays matter.** -/
theorem undisturbed_iff_arrays {server : Details} {services : List CString} {hs extras : List Header}
    (hlen : services.length < 0x80000000)
    (hperm : hs.Perm (registrationHeaders server services ++ extras))
    (hextras : ∀ h ∈ extras, Additional h ∧ 0 ∉ h.name) :
    Undisturbed server services hs ↔
      ArraysFit hs ∧ ∀ u after, afterCount hs = some (u, after) →
        ∀ i s, services.reverse[i]? = some s →
          ∃ bytes, lastElem after i = some (.str bytes) ∧ s = .ofBytes bytes := by
  have hunknown : ∀ h ∈ extras, ∀ k : Hdr, h.key ≠ k.text := by
    intro h hmem k hkey
    obtain ⟨hadd, hnul⟩ := hextras h hmem
    refine hadd.unknown k ?_
    rw [← hkey, Header.key, CString.chars_ofBytes hnul]
  have hvaried : Varied (fun h : Header => ∀ k : Hdr, h.key ≠ k.text)
      (registrationHeaders server services) hs :=
    (Varied.append hunknown _).trans (.perm hperm.symm)
  have hkeys := nodup_keys_registration server services
  have hstr : ∀ k : Hdr, lastStr k.text hs = lastStr k.text (registrationHeaders server services) := by
    intro k
    rw [lastStr, lastStr, hvaried.filterMap_eq hkeys (fun _ => Header.str?_of_key_ne) fun _ h => h k]
  have hfirst : (afterCount hs).map Prod.fst = some (wordOfInt (Int32.ofNat services.length)) := by
    have hcount : ∀ h : Header, h.key ≠ Hdr.servicesCount.text → h.count? = none := by
      intro h hne
      unfold Header.count?
      cases h.val with
      | positiveInteger u => exact if_neg (Ne.symm hne)
      | _ => rfl
    rw [afterCount_fst, hvaried.filterMap_eq hkeys hcount fun _ h => h .servicesCount,
      ← afterCount_fst, afterCount_registration server hlen]
    rfl
  obtain ⟨⟨u, after⟩, hafter, rfl⟩ := Option.map_eq_some_iff.mp hfirst
  constructor
  · rintro ⟨-, -, -, ⟨u', after', hafter', -, hcells⟩, harrays⟩
    refine ⟨harrays, ?_⟩
    intro u'' after'' hafter''
    obtain ⟨rfl, rfl⟩ := Prod.mk.inj (Option.some.inj (hafter'.symm.trans hafter''))
    exact hcells
  · rintro ⟨harrays, hcells⟩
    refine ⟨?_, ?_, ?_, ⟨_, after, hafter, intOfWord_wordOfInt _, hcells _ _ hafter⟩, harrays⟩
    · rw [hstr]
      simp [registrationHeaders, lastStr, List.filterMap_cons]
    · rw [hstr]
      simp [registrationHeaders, lastStr, List.filterMap_cons]
    · rw [hstr]
      simp [registrationHeaders, lastStr, List.filterMap_cons]

end RpcBroker
