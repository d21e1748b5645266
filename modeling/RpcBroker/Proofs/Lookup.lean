import RpcBroker.Lib.Varied
import RpcBroker.Proofs.Handler
import RpcBroker.Proofs.Messages
/-!
# RpcBroker.Proofs.Lookup

**Headers are found by name**, wherever they stand. `get_hdr_int` runs through the
whole packet and the string readers stop at the first match, but where no two
headers have one name all of them return what stands under it, in any order and
beside any other headers (`lookup_independent`).

Where names repeat, the string readers pick the first match. The broker reads
the operation of a request with two of them, and they pick the same one
(`readers_agree`).
-/

namespace RpcBroker

open CLib Msgpack

variable {E : Libs}

/-! ### Names of their own -/

/-- The readers see the whole name: it fits their buffer and has no NUL in it. -/
structure Header.WellNamed (h : Header) : Prop where
  short : h.name.length < maxHeaderNameSize
  nulFree : 0 ∉ h.name

theorem Header.WellNamed.key_chars {h : Header} (hnamed : h.WellNamed) : h.key.chars = h.name :=
  CString.chars_ofBytes hnamed.nulFree

theorem Header.WellNamed.key_eq_iff {h : Header} (hnamed : h.WellNamed) {look : CString} :
    h.key = look ↔ h.name = look.chars := by
  rw [← hnamed.key_chars]
  exact ⟨congrArg CString.chars, CString.ext⟩

/-- Headers with names of their own are read under names of their own. -/
theorem nodup_keys {hs : List Header} (hnamed : ∀ h ∈ hs, h.WellNamed)
    (hdistinct : (hs.map Header.name).Nodup) : (hs.map Header.key).Nodup := by
  have hmap : hs.map Header.key = (hs.map Header.name).map CString.ofBytes := by
    rw [List.map_map]
    rfl
  rw [hmap]
  refine hdistinct.map_on ?_
  intro a ha b hb heq
  obtain ⟨h, hh, rfl⟩ := List.mem_map.mp ha
  obtain ⟨g, hg, rfl⟩ := List.mem_map.mp hb
  have hkeys : h.key = g.key := heq
  rw [← (hnamed h hh).key_chars, hkeys, (hnamed g hg).key_chars]

theorem Header.int?_of_key_ne {look : CString} {h : Header} (hne : h.key ≠ look) :
    h.int? look = none := by
  unfold Header.int?
  cases h.val with
  | positiveInteger u => exact if_neg (Ne.symm hne)
  | _ => rfl

theorem Header.str?_of_key_ne {look : CString} {h : Header} (hne : h.key ≠ look) :
    h.str? look = none := by
  unfold Header.str?
  cases h.val with
  | str bytes => exact if_neg (Ne.symm hne)
  | _ => rfl

/-! ### The value under a name -/

/-- What stands under a name. -/
def valueUnder (look : CString) (hs : List Header) : Option Object :=
  (hs.find? fun h => h.name = look.chars).map Header.val

/-- The integer under a name, as an `int`; 0 if nothing stands there, or no
non-negative integer. -/
def intUnder (look : CString) (hs : List Header) : Int32 :=
  match valueUnder look hs with
  | some (.positiveInteger u) => intOfWord u
  | _ => 0

theorem find?_key {look : CString} {hs : List Header} (hnamed : ∀ h ∈ hs, h.WellNamed) :
    (hs.find? fun h => h.key = look) = hs.find? fun h => h.name = look.chars := by
  induction hs with
  | nil => rfl
  | cons h hs ih =>
      have hiff : h.key = look ↔ h.name = look.chars :=
        (hnamed h (List.mem_cons_self ..)).key_eq_iff
      have hrest := ih fun g hg => hnamed g (List.mem_cons_of_mem _ hg)
      rw [List.find?_cons, List.find?_cons, hrest]
      simp only [hiff]

section Varied

variable {look : CString} {hs hs' : List Header}

theorem lastInt_varied (hnamed : ∀ h ∈ hs, h.WellNamed) (hdistinct : (hs.map Header.name).Nodup)
    (hvaried : Varied (fun g => g.WellNamed ∧ g.name ≠ look.chars) hs hs') :
    (lastInt look hs').getD 0 = intUnder look hs := by
  have hnodup := nodup_keys hnamed hdistinct
  have hselect := hvaried.filterMap_eq hnodup (fun _ => Header.int?_of_key_ne)
    fun g hg => hg.1.key_eq_iff.not.mpr hg.2
  rw [lastInt, hselect, Varied.filterMap_eq_find? hnodup fun _ => Header.int?_of_key_ne,
    find?_key hnamed, intUnder, valueUnder]
  cases hfind : hs.find? fun h => h.name = look.chars with
  | none => rfl
  | some h =>
      have hkey : look = h.key := by
        have hname : h.name = look.chars := by simpa using List.find?_some hfind
        exact ((hnamed h (List.mem_of_find?_eq_some hfind)).key_eq_iff.mpr hname).symm
      rw [Option.bind_some, Option.map_some, Header.int?]
      cases h.val with
      | positiveInteger u =>
          dsimp only
          rw [if_pos hkey]
          rfl
      | _ => rfl

theorem firstStr_varied (hnamed : ∀ h ∈ hs, h.WellNamed) (hdistinct : (hs.map Header.name).Nodup)
    (hvaried : Varied (fun g => g.WellNamed ∧ g.name ≠ look.chars) hs hs') {bytes : List UInt8}
    (hvalue : valueUnder look hs = some (.str bytes)) :
    firstStr look hs' = some (.ofBytes bytes) := by
  have hnodup := nodup_keys hnamed hdistinct
  have hselect := hvaried.filterMap_eq hnodup (fun _ => Header.str?_of_key_ne)
    fun g hg => hg.1.key_eq_iff.not.mpr hg.2
  obtain ⟨h, hfind, hval⟩ := Option.map_eq_some_iff.mp hvalue
  have hname : h.name = look.chars := by simpa using List.find?_some hfind
  have hkey : look = h.key :=
    ((hnamed h (List.mem_of_find?_eq_some hfind)).key_eq_iff.mpr hname).symm
  rw [firstStr, ← List.head?_filterMap, hselect,
    Varied.filterMap_eq_find? hnodup fun _ => Header.str?_of_key_ne, find?_key hnamed, hfind,
    Option.bind_some, Header.str?, hval]
  dsimp only
  rw [if_pos hkey]
  rfl

end Varied

/-- **Header lookup depends on the header only.** In a packet whose headers have
names of their own, the readers return the value under the name they look for;
and they return it from every packet with these headers in any order, with
headers of other names put in anywhere or taken out. -/
theorem lookup_independent (E : Libs) {look : CString} {hs hs' : List Header}
    {packet packet' : E.Buffer} (hnamed : ∀ h ∈ hs, h.WellNamed)
    (hdistinct : (hs.map Header.name).Nodup)
    (hvaried : Varied (fun g => g.WellNamed ∧ g.name ≠ look.chars) hs hs')
    (hcarries : E.Carries packet hs) (hcarries' : E.Carries packet' hs') :
    (getHdrInt E packet look = .ok (intUnder look hs) ∧
      getHdrInt E packet' look = .ok (intUnder look hs)) ∧
    ∀ bytes, valueUnder look hs = some (.str bytes) →
      (getHdrStr E packet look = .ok (.str (.ofBytes bytes)) ∧
        getHdrStr E packet' look = .ok (.str (.ofBytes bytes))) ∧
      (look = Hdr.operation.text →
        getOpName E packet = .ok (.str (.ofBytes bytes)) ∧
        getOpName E packet' = .ok (.str (.ofBytes bytes))) := by
  have hsame : Varied (fun g => g.WellNamed ∧ g.name ≠ look.chars) hs hs := .perm (.refl _)
  refine ⟨⟨?_, ?_⟩, ?_⟩
  · rw [getHdrInt_carries hcarries, lastInt_varied hnamed hdistinct hsame]
  · rw [getHdrInt_carries hcarries', lastInt_varied hnamed hdistinct hvaried]
  · intro bytes hvalue
    have hfirst := firstStr_varied hnamed hdistinct hsame hvalue
    have hfirst' := firstStr_varied hnamed hdistinct hvaried hvalue
    refine ⟨⟨?_, ?_⟩, ?_⟩
    · rw [getHdrStr_carries hcarries, hfirst]
      rfl
    · rw [getHdrStr_carries hcarries', hfirst']
      rfl
    · rintro rfl
      rw [getOpName_carries hcarries, getOpName_carries hcarries', hfirst, hfirst']
      exact ⟨rfl, rfl⟩

/-- The header names of the protocol are read whole. -/
theorem Header.wellNamed_of_hdr {h : Header} (hname : ∃ k : Hdr, h.name = k.text.chars) :
    h.WellNamed := by
  obtain ⟨k, hk⟩ := hname
  exact ⟨hk ▸ k.text_short, hk ▸ k.text.nulFree⟩

/-- A header the protocol does not know. -/
def traceHeader : Header := ⟨(CString.lit "trace").chars, .array []⟩

/-- The id of a request for `add` whose headers come in reverse, behind another one. -/
theorem lookup_independent_reversed :
    getHdrInt Libs.reference (packetOf
      (traceHeader :: (requestHeaders exampleClient 7 (.lit "add") []).reverse))
      Hdr.messageId.text = .ok 7 := by
  have hnamed : ∀ h ∈ requestHeaders exampleClient 7 (.lit "add") [], h.WellNamed := by
    intro h hmem
    refine Header.wellNamed_of_hdr ?_
    simp only [requestHeaders, List.mem_cons, List.not_mem_nil, or_false] at hmem
    rcases hmem with rfl | rfl | rfl | rfl | rfl | rfl <;> exact ⟨_, rfl⟩
  have htrace : traceHeader.WellNamed := ⟨by decide, by decide⟩
  have hvaried : Varied (fun g => g.WellNamed ∧ g.name ≠ Hdr.messageId.text.chars)
      (requestHeaders exampleClient 7 (.lit "add") [])
      (traceHeader :: (requestHeaders exampleClient 7 (.lit "add") []).reverse) :=
    .trans (.perm (List.reverse_perm _).symm) (.insert ⟨htrace, by decide⟩ [] _)
  exact (lookup_independent Libs.reference hnamed (by decide) hvaried rfl rfl).1.2

/-! ### The operation of a request -/

/-- **The two readers of the operation agree.** If some header carries a string
under `op`, both pick the first one, whatever comes behind the headers: neither
exits, and `get_hdr_str` does not report invalid bytes. So a request is recorded
under the operation it is routed by. -/
theorem readers_agree (E : Libs) {packet : E.Buffer} {hs : List Header}
    (hobjects : (E.unpack packet).objects = hs.map Header.object)
    (hop : ∃ h ∈ hs, h.key = Hdr.operation.text ∧ ∃ bytes, h.val = .str bytes) :
    ∃ before h after bytes, hs = before ++ h :: after ∧
      h.key = Hdr.operation.text ∧ h.val = .str bytes ∧
      (∀ g ∈ before, ¬ (g.key = Hdr.operation.text ∧ ∃ bytes', g.val = .str bytes')) ∧
      getOpName E packet = .ok (.str (.ofBytes bytes)) ∧
      getHdrStr E packet Hdr.operation.text = .ok (.str (.ofBytes bytes)) ∧
      (∀ scan, getHdrStrScan E packet Hdr.operation.text = .ok scan → ¬ scan.reportsInvalid) ∧
      ∀ config config' sent, getReqType E packet = .ok RequestType.serviceRequest.code →
        readData E config packet = .ok (config', sent) →
        ∃ entry, config'.clnt_req_repo = config.clnt_req_repo ++ [entry] ∧
          entry.operation = .str (.ofBytes bytes) ∧
          sent = forwards E packet (.str (.ofBytes bytes)) config.svc_repo := by
  have hstr? : ∀ g : Header, (g.str? Hdr.operation.text).isSome ↔
      g.key = Hdr.operation.text ∧ ∃ bytes, g.val = .str bytes := by
    intro g
    unfold Header.str?
    cases g.val with
    | str bytes => by_cases hkey : Hdr.operation.text = g.key <;> simp [hkey, eq_comm]
    | _ => simp
  have hentries : Entries E (E.unpack packet).objects hs := by
    rw [hobjects]
    exact entries_headers hs
  obtain ⟨g, hg, hgop⟩ := hop
  obtain ⟨s, hs'⟩ : ∃ s, firstStr Hdr.operation.text hs = some s := by
    rw [← Option.isSome_iff_exists, firstStr, List.findSome?_isSome_iff]
    exact ⟨g, hg, (hstr? g).mpr hgop⟩
  obtain ⟨before, h, after, hsplit, hfound, hbefore⟩ := List.findSome?_eq_some_iff.mp hs'
  obtain ⟨hkey, bytes, hval⟩ := (hstr? h).mp (by simp [hfound])
  obtain rfl : s = .ofBytes bytes := by simpa [Header.str?, hval, hkey, eq_comm] using hfound
  have hname : getOpName E packet = .ok (.str (.ofBytes bytes)) := by
    rw [getOpName, getOpNameLoop_entries hentries, hs']
  have hstr : getHdrStr E packet Hdr.operation.text = .ok (.str (.ofBytes bytes)) := by
    rw [getHdrStr_entries hentries, hs']
    rfl
  refine ⟨before, h, after, bytes, hsplit, hkey, hval, ?_, hname, hstr, ?_, ?_⟩
  · intro g hg hgop
    have hnone := hbefore g hg
    have hsome := (hstr? g).mpr hgop
    rw [hnone] at hsome
    exact absurd hsome (by simp)
  · intro scan hscan
    rw [getHdrStrScan, getHdrStrLoop_entries hentries, hs'] at hscan
    obtain rfl := Except.ok.inj hscan
    simp [StrScan.reportsInvalid]
  · intro config config' sent htype hread
    cases readData_iff.mp hread with
    | @request entry op_name _ hentry hop =>
        obtain rfl := Except.ok.inj (hname.symm.trans hop)
        exact ⟨entry, rfl, Except.ok.inj (hentry.operation.symm.trans hstr), rfl⟩
    | registration htype' => exact absurd (reqType_unique htype htype') (by decide)
    | response htype' => exact absurd (reqType_unique htype htype') (by decide)
    | ignored htype' hreq => exact absurd (Except.ok.inj (htype'.symm.trans htype)) hreq

/-- Operations of two types and invalid bytes behind them. -/
def manyOperations : Libs.reference.Buffer :=
  ⟨[Header.object (.ofInt .operation 3), Header.object (.ofStr .operation (.lit "add")),
    Header.object (.ofStr .operation (.lit "subtract"))], .parseError⟩

theorem readers_agree_manyOperations :
    ∃ s, getOpName Libs.reference manyOperations = .ok s ∧
      getHdrStr Libs.reference manyOperations Hdr.operation.text = .ok s := by
  have hobjects : (Libs.reference.unpack manyOperations).objects =
      [Header.ofInt .operation 3, .ofStr .operation (.lit "add"),
        .ofStr .operation (.lit "subtract")].map Header.object := rfl
  obtain ⟨_, _, _, _, -, -, -, -, hname, hstr, -⟩ := readers_agree Libs.reference hobjects
    ⟨_, List.mem_cons_of_mem _ (List.mem_cons_self ..), Header.key_ofStr _ _, _, rfl⟩
  exact ⟨_, hname, hstr⟩

end RpcBroker
