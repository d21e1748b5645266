import RpcBroker.Proofs.Copies
import RpcBroker.Proofs.Decoders
import RpcBroker.Proofs.Messages
/-!
# RpcBroker.Proofs.Buffers

**Which of the decoders' buffers hold what is written to them.**
`decodeLoop_headers` turns a decoder's run over a sequence of headers into the
buffers of the headers it gets to, and `sitesFit` is what the lemmas of
`RpcBroker.Proofs.Copies` give for each place. `extract_header` terminates
`key_name` one byte behind it whatever the key is, so the decoders as a whole stay
inside their buffers only on a packet without headers (`decodersFit_iff`).

The strings decoded into the buffers are the ones the readers return in the models
that keep no memory (`getHdrStr_decoded` and the theorems beside it), and where a
terminator lands right behind a buffer the memory still reads as that string
(`regStr_readsBehind`).
-/

namespace RpcBroker.Buffers

open CLib CMemory Msgpack

variable {E : Libs}

/-! ### Headers the decoders get to -/

/-- An integer, a string or an array. A length on the wire has 32 bits. -/
def Payload (E : Libs) : Object → Prop
  | .positiveInteger _ => True
  | .negativeInteger _ => True
  | .str bytes => bytes.length < 0x100000000
  | .array elems => ∀ e ∈ elems, (E.viaStr e).length < 0x100000000
  | _ => False

/-- A header the decoders are made for: `header_name` has room for its name. -/
structure Decodable (E : Libs) (h : Header) : Prop where
  short : h.name.length < maxHeaderNameSize
  val : Payload E h.val

/-- The list up to the first element that ends it, this one included. -/
def through {α : Type*} (ends : α → Bool) : List α → List α
  | [] => []
  | a :: as => a :: if ends a then [] else through ends as

theorem mem_of_mem_through {α : Type*} {ends : α → Bool} {as : List α} {a : α}
    (h : a ∈ through ends as) : a ∈ as := by
  induction as with
  | nil => exact h
  | cons b as ih =>
      rw [through, List.mem_cons] at h
      rcases h with rfl | h
      · exact List.mem_cons_self
      · split at h
        · exact absurd h List.not_mem_nil
        · exact List.mem_cons_of_mem b (ih h)

theorem through_never {α : Type*} (as : List α) : through (fun _ => false) as = as := by
  induction as with
  | nil => rfl
  | cons a as ih => rw [through, ih]; rfl

theorem through_congr {α : Type*} {ends ends' : α → Bool} {as : List α}
    (h : ∀ a ∈ as, ends a = ends' a) : through ends as = through ends' as := by
  induction as with
  | nil => rfl
  | cons a as ih =>
      obtain ⟨ha, has⟩ := List.forall_mem_cons.mp h
      rw [through, through, ha, ih has]

/-- A first match is not found if no element up to it is one. -/
theorem findSome?_eq_none_iff_through {α β : Type*} (f : α → Option β) (as : List α) :
    as.findSome? f = none ↔ ∀ a ∈ through (fun a => (f a).isSome) as, f a = none := by
  induction as with
  | nil => simp [through]
  | cons a as ih =>
      rw [through, List.findSome?_cons]
      cases hf : f a with
      | none => simpa [hf] using ih
      | some b => simp [hf]

/-- A match among the elements up to the first one is the first one. -/
theorem findSome?_of_mem_through {α β : Type*} {f : α → Option β} {as : List α} {a : α} {b : β}
    (ha : a ∈ through (fun a => (f a).isSome) as) (hb : f a = some b) : as.findSome? f = some b := by
  induction as with
  | nil => exact absurd ha List.not_mem_nil
  | cons c as ih =>
      rw [through, List.mem_cons] at ha
      rw [List.findSome?_cons]
      rcases ha with rfl | ha
      · rw [hb]
      · cases hc : f c with
        | none =>
            rw [hc] at ha
            exact ih ha
        | some d =>
            rw [hc] at ha
            exact absurd ha List.not_mem_nil

/-- The buffers `extract_header` fills for a header. -/
def nameBuffers (h : Header) : List Filled :=
  [⟨.keyName, keyName h.name, some h.name⟩,
    ⟨.headerName, copyName freshHeaderName h.name, some h.name⟩]

/-- A decoder's run over a sequence of headers: what it fills for each of them up to
the one at which it leaves. -/
theorem decodeLoop_headers {round : Ptr → Object → List Filled × Bool} {hs : List Header}
    (hd : ∀ h ∈ hs, Decodable E h) :
    decodeLoop E round (hs.map Header.object) =
      (through (fun h => (round (.str h.key) h.val).2) hs).flatMap fun h =>
        nameBuffers h ++ (round (.str h.key) h.val).1 := by
  induction hs with
  | nil => rfl
  | cons h hs ih =>
      obtain ⟨hh, hhs⟩ := List.forall_mem_cons.mp hd
      have hname : (copyName freshHeaderName h.name).ptr = .str h.key :=
        Block.ptr_of_string? (copyName_whole hh.short).2
      rw [List.map_cons, decodeLoop, through, List.flatMap_cons, Header.object, extractHeader]
      simp only [Codec.viaStr_str, hname, nameBuffers, List.cons_append, List.nil_append,
        List.cons.injEq, true_and]
      split
      · rfl
      · rw [ih hhs]
        rfl

/-! ### The buffers of one place -/

/-- The buffers of one place take what is written to them. -/
def SiteFits (s : Site) (fs : List Filled) : Prop := ∀ f ∈ fs, f.site = s → f.Sound

@[simp] theorem siteFits_nil (s : Site) : SiteFits s [] := fun _ hf => absurd hf List.not_mem_nil

theorem siteFits_cons {s : Site} {f : Filled} {fs : List Filled} :
    SiteFits s (f :: fs) ↔ (f.site = s → f.Sound) ∧ SiteFits s fs := List.forall_mem_cons

theorem siteFits_append {s : Site} {fs gs : List Filled} :
    SiteFits s (fs ++ gs) ↔ SiteFits s fs ∧ SiteFits s gs := List.forall_mem_append

theorem siteFits_flatMap {α : Type*} {s : Site} {as : List α} {g : α → List Filled} :
    SiteFits s (as.flatMap g) ↔ ∀ a ∈ as, SiteFits s (g a) := by
  simp only [SiteFits, List.mem_flatMap]
  exact ⟨fun h a ha f hf => h f ⟨a, ha, hf⟩, fun h f ⟨a, ha, hf⟩ => h a ha f hf⟩

/-- Buffers of other places do not matter. -/
theorem siteFits_of_ne {s : Site} {fs : List Filled} (h : ∀ f ∈ fs, f.site ≠ s) : SiteFits s fs :=
  fun f hf hsite => absurd hsite (h f hf)

theorem sound_some_iff {s : Site} {b : Block} {bytes : List UInt8} :
    (⟨s, b, some bytes⟩ : Filled).Sound ↔ b.Holds bytes := by
  simp [Filled.Sound, Block.Holds]

theorem not_sound_of_stray {f : Filled} (h : f.block.stray = true) : ¬ f.Sound :=
  fun hsound => absurd (h.symm.trans hsound.1) (by simp)

/-- The buffers of the two names say nothing about any other place. -/
theorem siteFits_nameBuffers {s : Site} (hkey : s ≠ .keyName) (hheader : s ≠ .headerName)
    (h : Header) : SiteFits s (nameBuffers h) := by
  refine siteFits_of_ne fun f hf => ?_
  rcases List.mem_cons.mp hf with rfl | hf
  · exact hkey.symm
  · obtain rfl := List.mem_singleton.mp hf
    exact hheader.symm

/-- A place of a decoder's own over a sequence of headers. -/
theorem decodeLoop_fits_iff {round : Ptr → Object → List Filled × Bool} {hs : List Header}
    {s : Site} (hd : ∀ h ∈ hs, Decodable E h) (hkey : s ≠ .keyName) (hheader : s ≠ .headerName) :
    SiteFits s (decodeLoop E round (hs.map Header.object)) ↔
      ∀ h ∈ through (fun h => (round (.str h.key) h.val).2) hs,
        SiteFits s (round (.str h.key) h.val).1 := by
  rw [decodeLoop_headers hd, siteFits_flatMap]
  refine forall₂_congr fun h _ => ?_
  rw [siteFits_append]
  exact ⟨And.right, fun hown => ⟨siteFits_nameBuffers hkey hheader h, hown⟩⟩

/-! ### The first string under a name -/

section FirstMatch

variable {site : Site} {copy : List UInt8 → Block} {look : CString}

/-- The round of such a decoder over a header, by whether it is a match. -/
theorem firstMatchRound_match {h : Header} {bytes : List UInt8} (hval : h.val = .str bytes)
    (hkey : look = h.key) :
    firstMatchRound E site copy look (.str h.key) h.val =
      ([⟨site, copy bytes, some bytes⟩], true) := by
  simp only [firstMatchRound, hval, hkey, Stulibc.strEquals_str, decide_true, if_true]

theorem firstMatchRound_miss {h : Header} (hmiss : h.str? look = none) :
    firstMatchRound E site copy look (.str h.key) h.val = ([], false) := by
  unfold Header.str? at hmiss
  cases hval : h.val with
  | str bytes =>
      rw [hval] at hmiss
      have hkey : look ≠ h.key := by simpa using hmiss
      simp only [firstMatchRound, Stulibc.strEquals_str, decide_eq_true_eq, if_neg hkey]
  | _ => rfl

theorem exists_of_str?_eq_some {h : Header} {s : CString} (hs : h.str? look = some s) :
    ∃ bytes, h.val = .str bytes ∧ look = h.key ∧ s = .ofBytes bytes := by
  unfold Header.str? at hs
  split at hs
  next bytes hval =>
      split at hs
      next hkey => exact ⟨bytes, hval, hkey, (Option.some.inj hs).symm⟩
      next => exact absurd hs (by simp)
  next => exact absurd hs (by simp)

theorem firstMatchRound_leaves (h : Header) :
    (firstMatchRound E site copy look (.str h.key) h.val).2 = (h.str? look).isSome := by
  cases hs : h.str? look with
  | none => rw [firstMatchRound_miss hs]; rfl
  | some s =>
      obtain ⟨bytes, hval, hkey, -⟩ := exists_of_str?_eq_some hs
      rw [firstMatchRound_match hval hkey]
      rfl

/-- Where every copy strays, a header must not be a match. -/
theorem firstMatchRound_fits_iff (hstray : ∀ bytes, (copy bytes).stray = true) (h : Header) :
    SiteFits site (firstMatchRound E site copy look (.str h.key) h.val).1 ↔
      h.str? look = none := by
  cases hs : h.str? look with
  | none =>
      rw [firstMatchRound_miss hs]
      exact iff_of_true (siteFits_nil site) rfl
  | some s =>
      obtain ⟨bytes, hval, hkey, -⟩ := exists_of_str?_eq_some hs
      rw [firstMatchRound_match hval hkey, siteFits_cons]
      exact iff_of_false (fun hfits => not_sound_of_stray (hstray bytes) (hfits.1 rfl)) (by simp)

theorem firstMatch_fits_iff {hs : List Header} (hd : ∀ h ∈ hs, Decodable E h)
    (hkey : site ≠ .keyName) (hheader : site ≠ .headerName)
    (hstray : ∀ bytes, (copy bytes).stray = true) :
    SiteFits site (decodeLoop E (firstMatchRound E site copy look) (hs.map Header.object)) ↔
      firstStr look hs = none := by
  rw [decodeLoop_fits_iff hd hkey hheader, firstStr, findSome?_eq_none_iff_through]
  simp only [firstMatchRound_leaves, firstMatchRound_fits_iff hstray]

/-- The string copied is the one the reader finds. -/
theorem firstMatch_decoded {hs : List Header} {f : Filled} (hd : ∀ h ∈ hs, Decodable E h)
    (hkey : site ≠ .keyName) (hheader : site ≠ .headerName)
    (hf : f ∈ decodeLoop E (firstMatchRound E site copy look) (hs.map Header.object))
    (hsite : f.site = site) :
    ∃ bytes, f = ⟨site, copy bytes, some bytes⟩ ∧ firstStr look hs = some (.ofBytes bytes) := by
  rw [decodeLoop_headers hd, List.mem_flatMap] at hf
  obtain ⟨h, hh, hf⟩ := hf
  rcases List.mem_append.mp hf with hf | hf
  · rcases List.mem_cons.mp hf with rfl | hf
    · exact absurd hsite.symm hkey
    · obtain rfl := List.mem_singleton.mp hf
      exact absurd hsite.symm hheader
  · cases hs : h.str? look with
    | none =>
        rw [firstMatchRound_miss hs] at hf
        exact absurd hf List.not_mem_nil
    | some s =>
        obtain ⟨bytes, hval, hkey, rfl⟩ := exists_of_str?_eq_some hs
        rw [firstMatchRound_match hval hkey] at hf
        simp only [firstMatchRound_leaves] at hh
        exact ⟨bytes, List.mem_singleton.mp hf, findSome?_of_mem_through hh hs⟩

end FirstMatch

/-! ### The broker's decoder -/

/-- Does the decoder return at this header, because `malloc` failed? -/
def refuses (E : Libs) (h : Header) : Bool :=
  match h.val with
  | .array elems => elems.any fun e => refused (E.viaStr e)
  | _ => false

theorem regServicesLoop_leaves {elems : List Object}
    (h : ∀ e ∈ elems, (E.viaStr e).length < 0x100000000) :
    (regServicesLoop E elems).2 = elems.any fun e => refused (E.viaStr e) := by
  induction elems with
  | nil => rfl
  | cons e elems ih =>
      obtain ⟨he, helems⟩ := List.forall_mem_cons.mp h
      rw [regServicesLoop, List.any_cons, ← ih helems]
      cases hb : regService (E.viaStr e) with
      | none => rw [(regService_eq_none_iff he).mp hb, Bool.true_or]
      | some b =>
          have hrefused : refused (E.viaStr e) ≠ true := fun hrefused =>
            absurd ((regService_eq_none_iff he).mpr hrefused) (by simp [hb])
          rw [eq_false_of_ne_true hrefused, Bool.false_or]

theorem regServicesLoop_site {elems : List Object} {f : Filled}
    (hf : f ∈ (regServicesLoop E elems).1) : f.site = .regService := by
  induction elems with
  | nil => exact absurd hf List.not_mem_nil
  | cons e elems ih =>
      rw [regServicesLoop] at hf
      split at hf
      · exact absurd hf List.not_mem_nil
      · rcases List.mem_cons.mp hf with rfl | hf
        · rfl
        · exact ih hf

/-- The elements copied are those before the first one that is refused. -/
theorem regServicesLoop_fits_iff {elems : List Object}
    (h : ∀ e ∈ elems, (E.viaStr e).length < 0x100000000) :
    SiteFits .regService (regServicesLoop E elems).1 ↔
      ∀ e ∈ elems.takeWhile (fun e => !refused (E.viaStr e)),
        (E.viaStr e).length ≠ 0xFFFFFFFF := by
  induction elems with
  | nil => simp [regServicesLoop]
  | cons e elems ih =>
      obtain ⟨he, helems⟩ := List.forall_mem_cons.mp h
      rw [regServicesLoop, List.takeWhile_cons]
      cases hb : regService (E.viaStr e) with
      | none =>
          rw [(regService_eq_none_iff he).mp hb]
          exact iff_of_true (siteFits_nil _) (by simp)
      | some b =>
          have hrefused : refused (E.viaStr e) = false := eq_false_of_ne_true fun hrefused =>
            absurd ((regService_eq_none_iff he).mpr hrefused) (by simp [hb])
          have hsound : (⟨.regService, b, some (E.viaStr e)⟩ : Filled).Sound ↔
              (E.viaStr e).length ≠ 0xFFFFFFFF :=
            sound_some_iff.trans (regService_holds_iff he hb)
          rw [hrefused, Bool.not_false, if_pos rfl, List.forall_mem_cons, siteFits_cons,
            ih helems, ← hsound]
          exact and_congr_left' ⟨fun hs => hs rfl, fun hs _ => hs⟩

/-- What holds of the elements of an array. -/
theorem forall_array_iff {elems : List Object} {P : List Object → Prop} :
    (∀ elems', Object.array elems = .array elems' → P elems') ↔ P elems := by
  simp

theorem forall_str_iff {bytes : List UInt8} {P : List UInt8 → Prop} :
    (∀ bytes', Object.str bytes = .str bytes' → P bytes') ↔ P bytes := by
  simp

theorem registrationRound_leaves {h : Header} (hd : Decodable E h) (header_name : Ptr) :
    (unpackServiceRegistrationRound E header_name h.val).2 = refuses E h := by
  have hval := hd.val
  unfold refuses
  cases hv : h.val with
  | array elems =>
      rw [hv] at hval
      exact regServicesLoop_leaves hval
  | _ => rfl

theorem regStr_fits_iff (h : Header) (header_name : Ptr) :
    SiteFits .regStr (unpackServiceRegistrationRound E header_name h.val).1 ↔
      ∀ bytes, h.val ≠ .str bytes := by
  cases hv : h.val with
  | str bytes =>
      refine iff_of_false (fun hfits => ?_) fun hnone => hnone bytes rfl
      exact not_sound_of_stray (regStr_stray bytes) (hfits _ (List.mem_singleton_self _) rfl)
  | array elems =>
      refine iff_of_true (siteFits_of_ne fun f hf => ?_) (by simp)
      rw [regServicesLoop_site hf]
      simp
  | _ => exact iff_of_true (siteFits_nil _) (by simp)

theorem regServiceRound_fits_iff {h : Header} (hd : Decodable E h) (header_name : Ptr) :
    SiteFits .regService (unpackServiceRegistrationRound E header_name h.val).1 ↔
      ∀ elems, h.val = .array elems → ∀ e ∈ elems.takeWhile (fun e => !refused (E.viaStr e)),
        (E.viaStr e).length ≠ 0xFFFFFFFF := by
  have hval := hd.val
  cases hv : h.val with
  | array elems =>
      rw [hv] at hval
      rw [forall_array_iff]
      exact regServicesLoop_fits_iff hval
  | str bytes =>
      refine iff_of_true (siteFits_of_ne fun f hf => ?_) (by simp)
      obtain rfl := List.mem_singleton.mp hf
      simp
  | _ => exact iff_of_true (siteFits_nil _) (by simp)

/-! ### The server's decoder -/

theorem marshalRound_leaves (header_name : Ptr) (val : Object) :
    (unpackMarshalCallRound E header_name val).2 = false := by
  unfold unpackMarshalCallRound
  split
  · split <;> rfl
  · rfl
  · rfl

theorem param_site {o : Object} {f : Filled} (hf : f ∈ param o) :
    f.site = .paramStr ∨ f.site = .paramInt := by
  cases o with
  | str bytes =>
      obtain rfl := List.mem_singleton.mp hf
      exact .inl rfl
  | positiveInteger u =>
      obtain rfl := List.mem_singleton.mp hf
      exact .inr rfl
  | _ => exact absurd hf List.not_mem_nil

theorem operationRound_fits_iff {h : Header} (hd : Decodable E h) :
    SiteFits .operation (unpackMarshalCallRound E (.str h.key) h.val).1 ↔
      ∀ bytes, h.val = .str bytes → h.key = Hdr.operation.text → bytes.length < 0x80000000 := by
  have hval := hd.val
  cases hv : h.val with
  | str bytes =>
      rw [hv] at hval
      simp only [unpackMarshalCallRound, Stulibc.strEquals_str, decide_eq_true_eq]
      by_cases hkey : Hdr.operation.text = h.key
      · rw [if_pos hkey, siteFits_cons, sound_some_iff, operation_holds_iff hval]
        rw [forall_str_iff]
        exact ⟨fun hfits _ => hfits.1 rfl, fun hsmall => ⟨fun _ => hsmall hkey.symm, siteFits_nil _⟩⟩
      · rw [if_neg hkey]
        exact iff_of_true (siteFits_nil _) fun _ _ heq => absurd heq.symm hkey
  | array elems =>
      refine iff_of_true (siteFits_of_ne fun f hf => ?_) (by simp)
      obtain ⟨o, -, hf⟩ := List.mem_flatMap.mp hf
      rcases param_site hf with hs | hs <;> simp [hs]
  | _ => exact iff_of_true (siteFits_nil _) (by simp)

/-- The parameters are only the array's. -/
theorem paramRound_fits_iff {s : Site} (hs : s ≠ .operation) (h : Header) :
    SiteFits s (unpackMarshalCallRound E (.str h.key) h.val).1 ↔
      ∀ elems, h.val = .array elems → ∀ o ∈ elems, SiteFits s (param o) := by
  cases hv : h.val with
  | str bytes =>
      refine iff_of_true (siteFits_of_ne fun f hf => ?_) (by simp)
      simp only [unpackMarshalCallRound] at hf
      split at hf
      · obtain rfl := List.mem_singleton.mp hf
        exact hs.symm
      · exact absurd hf List.not_mem_nil
  | array elems =>
      rw [forall_array_iff]
      exact siteFits_flatMap
  | _ => exact iff_of_true (siteFits_nil _) (by simp)

theorem paramStr_elem_fits_iff {o : Object} (ho : (E.viaStr o).length < 0x100000000) :
    SiteFits .paramStr (param o) ↔ ∀ bytes, o = .str bytes → bytes.length + 1 < 0x80000000 := by
  cases o with
  | str bytes =>
      rw [Codec.viaStr_str] at ho
      refine siteFits_cons.trans ?_
      rw [sound_some_iff, paramStr_holds_iff ho]
      rw [forall_str_iff]
      exact ⟨fun hfits => hfits.1 rfl, fun hsmall => ⟨fun _ => hsmall, siteFits_nil _⟩⟩
  | positiveInteger u =>
      refine iff_of_true (siteFits_of_ne fun f hf => ?_) (by simp)
      obtain rfl := List.mem_singleton.mp hf
      simp
  | _ => exact iff_of_true (siteFits_nil _) (by simp)

theorem paramInt_elem_fits_iff (o : Object) :
    SiteFits .paramInt (param o) ↔ ∀ u, o ≠ .positiveInteger u := by
  cases o with
  | positiveInteger u =>
      refine iff_of_false (fun hfits => ?_) fun hnone => hnone u rfl
      exact not_sound_of_stray (paramInt_stray u) (hfits _ (List.mem_singleton_self _) rfl)
  | str bytes =>
      refine iff_of_true (siteFits_of_ne fun f hf => ?_) (by simp)
      obtain rfl := List.mem_singleton.mp hf
      simp
  | _ => exact iff_of_true (siteFits_nil _) (by simp)

/-! ### All places -/

/-- What a decoder does with a header behind `extract_header`. -/
def Decoder.round (E : Libs) : Decoder → Ptr → Object → List Filled × Bool
  | .getReqType => fun _ _ => ([], true)
  | .getHdrInt => fun _ _ => ([], false)
  | .getHdrStr look => firstMatchRound E .hdrStr hdrStr look
  | .getOpName => firstMatchRound E .opName opName (.lit "op")
  | .unpackServiceRegistrationBuffer => unpackServiceRegistrationRound E
  | .unpackMarshalCallSend => unpackMarshalCallRound E

theorem Decoder.filled_eq (d : Decoder) {packet : E.Buffer} {hs : List Header}
    (hp : E.Carries packet hs) :
    d.filled E packet = decodeLoop E (d.round E) (hs.map Header.object) := by
  rw [← hp.objects]
  cases d <;> rfl

theorem firstMatchRound_site {site : Site} {copy : List UInt8 → Block} {look : CString}
    {header_name : Ptr} {val : Object} {f : Filled}
    (hf : f ∈ (firstMatchRound E site copy look header_name val).1) : f.site = site := by
  unfold firstMatchRound at hf
  split at hf
  · split at hf
    · obtain rfl := List.mem_singleton.mp hf
      rfl
    · exact absurd hf List.not_mem_nil
  · exact absurd hf List.not_mem_nil

/-- No decoder fills a name buffer but through `extract_header`. -/
theorem Decoder.round_site (d : Decoder) {header_name : Ptr} {val : Object} {f : Filled}
    (hf : f ∈ (d.round E header_name val).1) : f.site ≠ .keyName ∧ f.site ≠ .headerName := by
  cases d with
  | getReqType => exact absurd hf List.not_mem_nil
  | getHdrInt => exact absurd hf List.not_mem_nil
  | getHdrStr look => simp [firstMatchRound_site hf]
  | getOpName => simp [firstMatchRound_site hf]
  | unpackServiceRegistrationBuffer =>
      simp only [Decoder.round, unpackServiceRegistrationRound] at hf
      split at hf
      · obtain rfl := List.mem_singleton.mp hf
        simp
      · simp [regServicesLoop_site hf]
      · exact absurd hf List.not_mem_nil
  | unpackMarshalCallSend =>
      simp only [Decoder.round, unpackMarshalCallRound] at hf
      split at hf
      · split at hf
        · obtain rfl := List.mem_singleton.mp hf
          simp
        · exact absurd hf List.not_mem_nil
      · obtain ⟨o, -, hf⟩ := List.mem_flatMap.mp hf
        rcases param_site hf with hs | hs <;> simp [hs]
      · exact absurd hf List.not_mem_nil

/-- Every decoder takes the first header apart, and `key_name` strays on it. -/
theorem keyName_fits_iff (d : Decoder) {packet : E.Buffer} {hs : List Header}
    (hp : E.Carries packet hs) (hd : ∀ h ∈ hs, Decodable E h) :
    SiteFits .keyName (d.filled E packet) ↔ hs = [] := by
  rw [d.filled_eq hp, decodeLoop_headers hd]
  cases hs with
  | nil => exact iff_of_true (siteFits_nil _) rfl
  | cons h hs =>
      refine iff_of_false (fun hfits => ?_) (by simp)
      rw [through, List.flatMap_cons, siteFits_append, siteFits_append] at hfits
      exact not_sound_of_stray (keyName_stray h.name) (hfits.1.1 _ List.mem_cons_self rfl)

theorem headerName_fits (d : Decoder) {packet : E.Buffer} {hs : List Header}
    (hp : E.Carries packet hs) (hd : ∀ h ∈ hs, Decodable E h) :
    SiteFits .headerName (d.filled E packet) := by
  rw [d.filled_eq hp, decodeLoop_headers hd, siteFits_flatMap]
  intro h hh
  refine siteFits_append.mpr ⟨?_, siteFits_of_ne fun f hf => (d.round_site hf).2⟩
  refine siteFits_cons.mpr ⟨fun hsite => absurd hsite (by simp), siteFits_cons.mpr ⟨fun _ => ?_, siteFits_nil _⟩⟩
  exact sound_some_iff.mpr (copyName_whole (hd h (mem_of_mem_through hh)).short)

/-- No write of any decoder falls outside its buffer, and every string they produce
is the decoded one up to its first NUL. -/
def DecodersFit (E : Libs) (packet : E.Buffer) : Prop :=
  ∀ d : Decoder, ∀ f ∈ d.filled E packet, f.Sound

/-- For each place, the packets on which its buffers take what is written to them. -/
structure SitesFit (E : Libs) (packet : E.Buffer) (hs : List Header) : Prop where
  keyName : ∀ d : Decoder, SiteFits .keyName (d.filled E packet) ↔ hs = []
  headerName : ∀ d : Decoder, SiteFits .headerName (d.filled E packet)
  hdrStr : ∀ look, SiteFits .hdrStr (getHdrStr E packet look) ↔ firstStr look hs = none
  opName : SiteFits .opName (getOpName E packet) ↔ firstStr Hdr.operation.text hs = none
  regStr : SiteFits .regStr (unpackServiceRegistrationBuffer E packet) ↔
    ∀ h ∈ through (refuses E) hs, ∀ bytes, h.val ≠ .str bytes
  regService : SiteFits .regService (unpackServiceRegistrationBuffer E packet) ↔
    ∀ h ∈ through (refuses E) hs, ∀ elems, h.val = .array elems →
      ∀ e ∈ elems.takeWhile (fun e => !refused (E.viaStr e)), (E.viaStr e).length ≠ 0xFFFFFFFF
  operation : SiteFits .operation (unpackMarshalCallSend E packet) ↔
    ∀ h ∈ hs, ∀ bytes, h.val = .str bytes → h.key = Hdr.operation.text → bytes.length < 0x80000000
  paramStr : SiteFits .paramStr (unpackMarshalCallSend E packet) ↔
    ∀ h ∈ hs, ∀ elems, h.val = .array elems →
      ∀ o ∈ elems, ∀ bytes, o = .str bytes → bytes.length + 1 < 0x80000000
  paramInt : SiteFits .paramInt (unpackMarshalCallSend E packet) ↔
    ∀ h ∈ hs, ∀ elems, h.val = .array elems → ∀ o ∈ elems, ∀ u, o ≠ .positiveInteger u

/-- A place of the broker's decoder, over the headers up to the one it returns at. -/
theorem registration_fits_iff {packet : E.Buffer} {hs : List Header} {s : Site}
    (hp : E.Carries packet hs) (hd : ∀ h ∈ hs, Decodable E h) (hkey : s ≠ .keyName)
    (hheader : s ≠ .headerName) :
    SiteFits s (unpackServiceRegistrationBuffer E packet) ↔
      ∀ h ∈ through (refuses E) hs,
        SiteFits s (unpackServiceRegistrationRound E (.str h.key) h.val).1 := by
  rw [unpackServiceRegistrationBuffer, hp.objects, decodeLoop_fits_iff hd hkey hheader,
    through_congr fun h hh => registrationRound_leaves (hd h hh) (.str h.key)]

/-- A place of the server's decoder, which goes through all headers. -/
theorem marshal_fits_iff {packet : E.Buffer} {hs : List Header} {s : Site}
    (hp : E.Carries packet hs) (hd : ∀ h ∈ hs, Decodable E h) (hkey : s ≠ .keyName)
    (hheader : s ≠ .headerName) :
    SiteFits s (unpackMarshalCallSend E packet) ↔
      ∀ h ∈ hs, SiteFits s (unpackMarshalCallRound E (.str h.key) h.val).1 := by
  rw [unpackMarshalCallSend, hp.objects, decodeLoop_fits_iff hd hkey hheader,
    through_congr fun h _ => marshalRound_leaves (.str h.key) h.val, through_never]

theorem sitesFit {packet : E.Buffer} {hs : List Header} (hp : E.Carries packet hs)
    (hd : ∀ h ∈ hs, Decodable E h) : SitesFit E packet hs where
  keyName d := keyName_fits_iff d hp hd
  headerName d := headerName_fits d hp hd
  hdrStr look := by
    rw [getHdrStr, hp.objects]
    exact firstMatch_fits_iff hd (by simp) (by simp) hdrStr_stray
  opName := by
    rw [getOpName, hp.objects]
    exact firstMatch_fits_iff hd (by simp) (by simp) opName_stray
  regStr := (registration_fits_iff hp hd (by simp) (by simp)).trans
    (forall₂_congr fun h _ => regStr_fits_iff h (.str h.key))
  regService := (registration_fits_iff hp hd (by simp) (by simp)).trans
    (forall₂_congr fun h hh => regServiceRound_fits_iff (hd h (mem_of_mem_through hh)) (.str h.key))
  operation := (marshal_fits_iff hp hd (by simp) (by simp)).trans
    (forall₂_congr fun h hh => operationRound_fits_iff (hd h hh))
  paramStr := by
    rw [marshal_fits_iff hp hd (by simp) (by simp)]
    refine forall₂_congr fun h hh => (paramRound_fits_iff (by simp) h).trans ?_
    refine forall₂_congr fun elems hv => forall₂_congr fun o ho => ?_
    have hval := (hd h hh).val
    rw [hv] at hval
    exact paramStr_elem_fits_iff (hval o ho)
  paramInt := by
    rw [marshal_fits_iff hp hd (by simp) (by simp)]
    refine forall₂_congr fun h _ => (paramRound_fits_iff (by simp) h).trans ?_
    exact forall₂_congr fun elems _ => forall₂_congr fun o _ => paramInt_elem_fits_iff o

/-- The decoders stay inside their buffers on a packet without headers only; place by
place, on the packets of `SitesFit`. -/
theorem decodersFit_iff {packet : E.Buffer} {hs : List Header} (hp : E.Carries packet hs)
    (hd : ∀ h ∈ hs, Decodable E h) :
    (DecodersFit E packet ↔ hs = []) ∧ SitesFit E packet hs := by
  refine ⟨⟨fun hfit => ?_, ?_⟩, sitesFit hp hd⟩
  · refine (keyName_fits_iff .getHdrInt hp hd).mp fun f hf _ => ?_
    exact hfit .getHdrInt f hf
  · rintro rfl d f hf
    rw [d.filled_eq hp] at hf
    exact absurd hf List.not_mem_nil

/-! ### The values the decoders keep -/

/-- What `get_hdr_str` copies is what it returns. -/
theorem getHdrStr_decoded {packet : E.Buffer} {hs : List Header} {look : CString} {f : Filled}
    (hp : E.Carries packet hs) (hd : ∀ h ∈ hs, Decodable E h) (hf : f ∈ getHdrStr E packet look)
    (hsite : f.site = .hdrStr) :
    ∃ bytes, f.decoded = some bytes ∧
      RpcBroker.getHdrStr E packet look = .ok (.str (.ofBytes bytes)) := by
  rw [getHdrStr, hp.objects] at hf
  obtain ⟨bytes, rfl, hfirst⟩ := firstMatch_decoded hd (by simp) (by simp) hf hsite
  refine ⟨bytes, rfl, ?_⟩
  rw [getHdrStr_carries hp, hfirst]
  rfl

/-- What `get_op_name` copies is what it returns. -/
theorem getOpName_decoded {packet : E.Buffer} {hs : List Header} {f : Filled}
    (hp : E.Carries packet hs) (hd : ∀ h ∈ hs, Decodable E h) (hf : f ∈ getOpName E packet)
    (hsite : f.site = .opName) :
    ∃ bytes, f.decoded = some bytes ∧
      RpcBroker.getOpName E packet = .ok (.str (.ofBytes bytes)) := by
  rw [getOpName, hp.objects] at hf
  obtain ⟨bytes, rfl, hfirst⟩ := firstMatch_decoded hd (by simp) (by simp) hf hsite
  have hop : firstStr Hdr.operation.text hs = some (.ofBytes bytes) := hfirst
  refine ⟨bytes, rfl, ?_⟩
  rw [getOpName_carries hp, hop]

/-- The strings copied for parameters. -/
def paramStrs (fs : List Filled) : List CString :=
  fs.filterMap fun f => if f.site = .paramStr then f.decoded.map .ofBytes else none

/-- The strings among the parameters of a call. -/
def paramString? : ParamPtr → Option CString
  | .str s => some s
  | _ => none

theorem paramStrs_flatMap {α : Type*} (as : List α) (g : α → List Filled) :
    paramStrs (as.flatMap g) = as.flatMap fun a => paramStrs (g a) := by
  rw [paramStrs, List.filterMap_flatMap]
  rfl

theorem paramStrs_append (fs gs : List Filled) :
    paramStrs (fs ++ gs) = paramStrs fs ++ paramStrs gs := List.filterMap_append

/-- An operation is no parameter. -/
theorem paramStrs_operation (header_name : Ptr) (bytes : List UInt8) :
    paramStrs (unpackMarshalCallRound E header_name (.str bytes)).1 = [] := by
  rw [unpackMarshalCallRound]
  split <;> rfl

theorem paramStrs_param (o : Object) :
    paramStrs (param o) = (paramString? (ParamPtr.ofObject o)).toList := by
  cases o <;> rfl

/-- The strings `unpack_marshal_call_send` copies for parameters are those its calls
get, in order. -/
theorem unpackMarshalCallSend_decoded {packet : E.Buffer} {hs : List Header}
    (hp : E.Carries packet hs) (hd : ∀ h ∈ hs, Decodable E h) (broker : Details) :
    ∃ calls, RpcBroker.unpackMarshalCallSend E packet broker = .ok calls ∧
      (calls.flatMap Call.params).filterMap paramString? =
        paramStrs (unpackMarshalCallSend E packet) := by
  refine ⟨_, unpackMarshalCallSend_carries hp broker, ?_⟩
  rw [unpackMarshalCallSend, hp.objects, decodeLoop_headers hd,
    through_congr fun h _ => marshalRound_leaves (.str h.key) h.val, through_never, paramStrs_flatMap]
  generalize (none : Option Int32) = id, Ptr.unassigned = op
  clear hp hd
  induction hs generalizing id op with
  | nil => rfl
  | cons h hs ih =>
      have hnames : paramStrs (nameBuffers h) = [] := rfl
      rw [List.flatMap_cons, marshalCalls, paramStrs_append, hnames, List.nil_append]
      cases hval : h.val with
      | array elems =>
          have hparams : paramStrs (elems.flatMap param) =
              (elems.map ParamPtr.ofObject).filterMap paramString? := by
            rw [paramStrs_flatMap, List.filterMap_map, List.filterMap_eq_flatMap_toList]
            exact List.flatMap_congr fun o _ => paramStrs_param o
          rw [List.flatMap_cons, List.filterMap_append, ih]
          show _ = paramStrs (elems.flatMap param) ++ _
          rw [hparams]
          rfl
      | str bytes => rw [paramStrs_operation, List.nil_append, ← ih]
      | _ => exact ih _ _

/-! ### A request -/

theorem decodable_ofInt (k : Hdr) (i : Int32) : Decodable E (.ofInt k i) where
  short := Hdr.text_short k
  val := by
    show Payload E (Object.ofInt i)
    rw [Object.ofInt]
    split <;> trivial

theorem decodable_ofStr (k : Hdr) {s : CString} (h : s.chars.length < 0x100000000) :
    Decodable E (.ofStr k s) := ⟨Hdr.text_short k, h⟩

theorem decodable_ofArray (k : Hdr) {elems : List Object}
    (h : ∀ e ∈ elems, (E.viaStr e).length < 0x100000000) : Decodable E (.ofArray k elems) :=
  ⟨Hdr.text_short k, h⟩

/-- The request for `add(20, 199)` is a packet the decoders are made for. -/
theorem decodable_addRequest :
    ∀ h ∈ requestHeaders exampleClient 7 (.lit "add") [.int 20, .int 199],
      Decodable Libs.reference h := by
  simp only [requestHeaders, List.forall_mem_cons]
  refine ⟨decodable_ofInt _ _, decodable_ofInt _ _, decodable_ofStr _ (by decide),
    decodable_ofStr _ (by decide), decodable_ofStr _ (by decide), decodable_ofArray _ ?_, by simp⟩
  simp [Arg.object, Object.ofInt, Libs.reference, Codec.ofObjects]

/-- Its operation fits; its parameters are numbers, which do not. -/
theorem sitesFit_addRequest :
    ¬ DecodersFit Libs.reference addRequest ∧
      SiteFits .operation (unpackMarshalCallSend Libs.reference addRequest) ∧
      ¬ SiteFits .paramInt (unpackMarshalCallSend Libs.reference addRequest) := by
  have hcarries : Libs.reference.Carries addRequest
      (requestHeaders exampleClient 7 (.lit "add") [.int 20, .int 199]) := rfl
  obtain ⟨hfit, hsites⟩ := decodersFit_iff hcarries decodable_addRequest
  have hsmall : ∀ h ∈ requestHeaders exampleClient 7 (.lit "add") [.int 20, .int 199],
      (Libs.reference.viaStr h.val).length < 0x80000000 := by decide
  refine ⟨fun hall => absurd (hfit.mp hall) (by simp [requestHeaders]),
    hsites.operation.mpr fun h hh bytes hval _ => ?_, fun hints => ?_⟩
  · have hbytes := hsmall h hh
    rwa [hval, Codec.viaStr_str] at hbytes
  · refine hsites.paramInt.mp hints (.ofArray .serviceParams [.ofInt 20, .ofInt 199]) ?_ _ rfl
      (.ofInt 20) List.mem_cons_self (wordOfInt 20) (Object.ofInt_nonneg (by decide))
    simp [requestHeaders, Arg.object]

/-- `key_name` is written behind its end on it. -/
theorem decodersFit_addRequest :
    ¬ ∀ (E : Libs) (packet : E.Buffer) (hs : List Header), E.Carries packet hs →
      (∀ h ∈ hs, Decodable E h) → DecodersFit E packet := by
  intro h
  have hfit := h Libs.reference addRequest _ rfl decodable_addRequest .getReqType
  exact not_sound_of_stray (keyName_stray _) (hfit _ List.mem_cons_self)

end RpcBroker.Buffers
