import RpcBroker.Proofs.Decoders
import RpcBroker.Proofs.Handler
import RpcBroker.Proofs.Messages
/-!
# RpcBroker.Proofs.Registration

What the broker's decoder makes of a **registration**, header by header.

The decoder fills one record while it walks the packet, and no header looks at
another one. `regHeader_eq` says what one header does to each field. Over a whole
packet a string field is the last string under its name. The array of services
is different: a `services-count` starts a new one and every array behind it
writes into it, so what counts is the last count and what stands after it
(`afterCount`).
-/

namespace RpcBroker

open CLib Msgpack

variable {E : Libs}

/-! ### Storing the services -/

/-- The cells after `elems` has been stored from index `i` on. -/
def storedCells (E : Libs) (cell : Nat → Ptr) (i : Nat) (elems : List Object) : Nat → Ptr :=
  fun j =>
    if i ≤ j then
      match elems[j - i]? with
      | some curr => .str (.ofBytes (E.viaStr curr))
      | none => cell j
    else cell j

theorem storedCells_nil (cell : Nat → Ptr) (i : Nat) : storedCells E cell i [] = cell := by
  funext j
  simp [storedCells]

theorem storedCells_cons (cell : Nat → Ptr) (i : Nat) (curr : Object) (elems : List Object) :
    storedCells E (Function.update cell i (.str (.ofBytes (E.viaStr curr)))) (i + 1) elems =
      storedCells E cell i (curr :: elems) := by
  funext j
  unfold storedCells
  rcases Nat.lt_trichotomy j i with hj | rfl | hj
  · rw [if_neg (by omega), if_neg (by omega), Function.update_of_ne (by omega)]
  · rw [if_neg (by omega), if_pos (Nat.le_refl _), Nat.sub_self, Function.update_self]
    rfl
  · have hsub : j - i = (j - (i + 1)) + 1 := by omega
    rw [if_pos (by omega), if_pos (by omega), hsub, List.getElem?_cons_succ,
      Function.update_of_ne (by omega)]

/-- Is some element no string? -/
def misread (elems : List Object) : Bool := elems.any fun elem => !elem.isStr

/-- Storing into an allocated array. The last store is the farthest out, so it
decides whether all were inside. -/
theorem storeServicesLoop_some {scan : RegScan} {a : ServicesArray} (i : Nat)
    (elems : List Object) (h : scan.reg.services = some a) :
    storeServicesLoop E i elems scan =
      { reg := { scan.reg with
          services := some { a with cell := storedCells E a.cell i elems } }
        stray := scan.stray || decide (elems ≠ [] ∧ a.given < i + elems.length) ||
          misread elems } := by
  induction elems generalizing i scan a with
  | nil =>
      rw [storeServicesLoop, storedCells_nil]
      simp [← h, misread]
  | cons curr elems ih =>
      -- The store to `i` is outside, or one of those after it.
      have hout : (a.given ≤ i ∨ elems ≠ [] ∧ a.given < i + 1 + elems.length) ↔
          (curr :: elems ≠ [] ∧ a.given < i + (curr :: elems).length) := by
        cases elems with
        | nil =>
            simp only [ne_eq, not_true_eq_false, false_and, or_false, reduceCtorEq,
              not_false_eq_true, true_and, List.length_cons, List.length_nil]
            omega
        | cons curr' elems =>
            simp only [ne_eq, reduceCtorEq, not_false_eq_true, true_and, List.length_cons]
            omega
      have hstray : ∀ stray bad bad' : Bool,
          (((stray || decide (a.given ≤ i)) || bad) ||
            decide (elems ≠ [] ∧ a.given < i + 1 + elems.length) || bad') =
          ((stray || decide (curr :: elems ≠ [] ∧ a.given < i + (curr :: elems).length)) ||
            (bad || bad')) := by
        intro stray bad bad'
        rw [← decide_eq_decide.mpr hout, Bool.decide_or]
        ac_rfl
      rw [storeServicesLoop, storeService, h]
      rw [ih (i + 1) rfl]
      simp only [storedCells_cons, RegScan.mk.injEq, true_and]
      exact hstray _ _ _

/-- Storing through a pointer nobody assigned. -/
theorem storeServicesLoop_none {scan : RegScan} (i : Nat) (elems : List Object)
    (h : scan.reg.services = none) :
    storeServicesLoop E i elems scan =
      { scan with stray := scan.stray || decide (elems ≠ []) } := by
  induction elems generalizing i scan with
  | nil => simp [storeServicesLoop]
  | cons curr elems ih =>
      have hstep : storeService scan i (.ofBytes (E.viaStr curr)) = { scan with stray := true } := by
        rw [storeService, h]
      simp only [storeServicesLoop, hstep, Bool.true_or]
      rw [@ih { scan with stray := true } (i + 1) h]
      simp

/-! ### One header -/

/-- The count a header carries. -/
def Header.count? (h : Header) : Option UInt64 :=
  match h.val with
  | .positiveInteger u => if Hdr.servicesCount.text = h.key then some u else none
  | _ => none

/-- The elements a header carries; the decoder does not look at its name. -/
def Header.elems (h : Header) : List Object :=
  match h.val with
  | .array elems => elems
  | _ => []

/-- The array of services after a header. -/
def nextServices (E : Libs) (services : Option ServicesArray) (h : Header) :
    Option ServicesArray :=
  match h.count? with
  | some u => some (mallocServices u)
  | none => services.map fun a => { a with cell := storedCells E a.cell 0 h.elems }

/-- Are there fewer cells than the header has elements, or is one of these no string? -/
def strays (services : Option ServicesArray) (h : Header) : Bool :=
  decide ((services.map ServicesArray.given).getD 0 < h.elems.length) || misread h.elems

/-- **The decoder on one header**, field by field. -/
theorem regHeader_eq (scan : RegScan) (h : Header) :
    regHeader E scan h.key h.val =
      { reg :=
          { address := nextStr Hdr.senderAddress.text scan.reg.address h
            port := nextStr Hdr.replyPort.text scan.reg.port h
            services := nextServices E scan.reg.services h
            service_name := nextStr Hdr.serviceName.text scan.reg.service_name h
            num_services := (h.count?.map intOfWord).getD scan.reg.num_services }
        stray := scan.stray || strays scan.reg.services h } := by
  -- A header without elements stores nothing.
  have hnone : h.elems = [] → h.count? = none →
      nextServices E scan.reg.services h = scan.reg.services ∧
        strays scan.reg.services h = false := by
    intro helems hcount
    simp [nextServices, strays, helems, hcount, storedCells_nil, misread]
  cases hval : h.val with
  | str bytes =>
      obtain ⟨hservices, hstrays⟩ := hnone (by simp [Header.elems, hval])
        (by simp [Header.count?, hval])
      have hcount : h.count? = none := by simp [Header.count?, hval]
      simp only [regHeader, hservices, hstrays, hcount, nextStr, Header.str?, hval,
        Stulibc.strEquals_str, decide_eq_true_eq, Bool.or_false, Option.map_none,
        Option.getD_none]
      by_cases haddress : Hdr.senderAddress.text = h.key
      · simp [← haddress]
      · by_cases hport : Hdr.replyPort.text = h.key
        · simp [← hport]
        · by_cases hname : Hdr.serviceName.text = h.key
          · simp [← hname]
          · simp [haddress, hport, hname]
  | positiveInteger u =>
      have hstr := nextStr_of_val (h := h) (by simp [hval])
      have hstrays : strays scan.reg.services h = false := by simp [strays, Header.elems, hval, misread]
      simp only [regHeader, hstr, hstrays, Stulibc.strEquals_str, decide_eq_true_eq,
        Bool.or_false]
      by_cases hkey : Hdr.servicesCount.text = h.key
      · have hcount : h.count? = some u := by simp [Header.count?, hval, hkey]
        simp [nextServices, hcount, hkey]
      · have hcount : h.count? = none := by simp [Header.count?, hval, hkey]
        obtain ⟨hservices, -⟩ := hnone (by simp [Header.elems, hval]) hcount
        simp [hservices, hcount, hkey]
  | array elems =>
      have hstr := nextStr_of_val (h := h) (by simp [hval])
      have hcount : h.count? = none := by simp [Header.count?, hval]
      have helems : h.elems = elems := by simp [Header.elems, hval]
      simp only [regHeader, hstr, hcount, nextServices, strays, helems, Option.map_none,
        Option.getD_none]
      obtain ⟨⟨address, port, services, service_name, num_services⟩, stray⟩ := scan
      cases services with
      | none =>
          have hmisread : (decide (0 < elems.length) || misread elems) = decide (elems ≠ []) := by
            cases elems <;> simp [misread]
          rw [storeServicesLoop_none 0 elems rfl]
          simp only [Option.map_none, Option.getD_none, hmisread]
      | some a =>
          have hlen : (elems ≠ [] ∧ a.given < 0 + elems.length) ↔ a.given < elems.length := by
            rw [Nat.zero_add, and_iff_right_iff_imp]
            intro hlt
            exact List.length_pos_iff.mp (by omega)
          rw [storeServicesLoop_some 0 elems rfl]
          simp only [hlen, Option.map_some, Option.getD_some, Bool.or_assoc]
  | _ =>
      obtain ⟨hservices, hstrays⟩ := hnone (by simp [Header.elems, hval])
        (by simp [Header.count?, hval])
      have hstr := nextStr_of_val (h := h) (by simp [hval])
      have hcount : h.count? = none := by simp [Header.count?, hval]
      simp [regHeader, hservices, hstrays, hstr, hcount]

/-! ### A whole packet -/

/-- The last count of a packet, and the headers behind it. -/
def afterCount : List Header → Option (UInt64 × List Header)
  | [] => none
  | h :: hs => (afterCount hs).or (h.count?.map fun u => (u, hs))

theorem afterCount_concat (hs : List Header) (h : Header) :
    afterCount (hs ++ [h]) =
      match h.count? with
      | some u => some (u, [])
      | none => (afterCount hs).map fun p => (p.1, p.2 ++ [h]) := by
  induction hs with
  | nil => cases hcount : h.count? <;> simp [afterCount, hcount]
  | cons g hs ih =>
      rw [List.cons_append, afterCount, ih, afterCount]
      cases h.count? with
      | some u => rfl
      | none => cases afterCount hs <;> cases g.count? <;> rfl

/-- What the cells hold after some headers without a count. -/
def storedAfter (E : Libs) (hs : List Header) : Nat → Ptr :=
  hs.foldl (fun cell h => storedCells E cell 0 h.elems) fun _ => .unassigned

/-- How many cells the array of services has after some headers. -/
def roomAfter (hs : List Header) : Nat :=
  match afterCount hs with
  | some p => (mallocServices p.1).given
  | none => 0

/-- The elements of all arrays are strings. -/
def StringArrays (hs : List Header) : Prop := ∀ h ∈ hs, ∀ elem ∈ h.elems, ∃ bytes, elem = .str bytes

theorem misread_eq_false {elems : List Object} :
    misread elems = false ↔ ∀ elem ∈ elems, ∃ bytes, elem = .str bytes := by
  simp [misread, Object.isStr_iff]

/-- No array has more elements than there are cells when it comes. -/
def ArraysFit (hs : List Header) : Prop :=
  ∀ before h after, hs = before ++ h :: after → h.elems.length ≤ roomAfter before

theorem arraysFit_concat {hs : List Header} {h : Header} :
    ArraysFit (hs ++ [h]) ↔ ArraysFit hs ∧ h.elems.length ≤ roomAfter hs := by
  constructor
  · intro hfit
    refine ⟨?_, hfit hs h [] rfl⟩
    intro before g after hsplit
    exact hfit before g (after ++ [h]) (by simp [hsplit])
  · intro hfit before g after hsplit
    obtain ⟨hhs, hlast⟩ := hfit
    rcases List.eq_nil_or_concat after with rfl | ⟨after, g', rfl⟩
    · obtain ⟨rfl, hg⟩ := List.append_inj' hsplit rfl
      obtain rfl : h = g := List.singleton_inj.mp hg
      exact hlast
    · rw [List.concat_eq_append, ← List.cons_append, ← List.append_assoc] at hsplit
      obtain ⟨rfl, -⟩ := List.append_inj' hsplit rfl
      exact hhs before g after rfl

/-- **The decoder on a packet**: the record it builds. -/
theorem regHeaders_reg (hs : List Header) :
    (regHeaders E hs .init).reg =
      { address := strResult (lastStr Hdr.senderAddress.text hs)
        port := strResult (lastStr Hdr.replyPort.text hs)
        services := (afterCount hs).map fun p => ⟨(mallocServices p.1).bytes, storedAfter E p.2⟩
        service_name := strResult (lastStr Hdr.serviceName.text hs)
        num_services := ((afterCount hs).map fun p => intOfWord p.1).getD 0 } := by
  induction hs using List.reverseRecOn with
  | nil => rfl
  | append_singleton hs h ih =>
      rw [regHeaders_concat, regHeader_eq, ih]
      simp only [nextStr_strResult, nextServices, afterCount_concat, ServiceReg.mk.injEq, true_and]
      cases h.count? with
      | some u => exact ⟨rfl, rfl⟩
      | none =>
          cases afterCount hs with
          | none => exact ⟨rfl, rfl⟩
          | some p => simp [storedAfter]

/-- The decoder stores strings inside the allocation when the arrays are of strings and
fit. -/
theorem regHeaders_stray (hs : List Header) :
    (regHeaders E hs .init).stray = false ↔ ArraysFit hs ∧ StringArrays hs := by
  -- Headers are added at the end, where the decoder's state is that before them.
  induction hs using List.reverseRecOn with
  | nil =>
      refine iff_of_true rfl ⟨?_, by simp [StringArrays]⟩
      intro before h after hsplit
      exact absurd hsplit (by simp)
  | append_singleton hs h ih =>
      have hstrings : StringArrays (hs ++ [h]) ↔
          StringArrays hs ∧ ∀ elem ∈ h.elems, ∃ bytes, elem = .str bytes := by
        simp [StringArrays, or_imp, forall_and]
      have hroom : ((Option.map ServicesArray.given ((afterCount hs).map fun p =>
          ⟨(mallocServices p.1).bytes, storedAfter E p.2⟩)).getD 0) = roomAfter hs := by
        unfold roomAfter
        cases afterCount hs <;> rfl
      rw [regHeaders_concat, regHeader_eq, arraysFit_concat, hstrings, and_and_and_comm, ← ih,
        regHeaders_reg]
      simp only [strays, hroom, Bool.or_eq_false_iff, decide_eq_false_iff_not, Nat.not_lt,
        misread_eq_false]

/-- The acknowledgement of a sequence of headers always goes out. -/
theorem sendSvcReqAck_carries {packet : E.Buffer} {hs : List Header} (h : E.Carries packet hs) :
    ∃ ack, sendSvcReqAck E packet = .ok ack := by
  simp only [sendSvcReqAck, bind_eq_ok, pure_eq_ok]
  exact ⟨_, _, getHdrInt_carries h _, _, getHdrStr_carries h _, _, getHdrStr_carries h _, rfl⟩

/-- A cell is assigned exactly when some array is long enough to reach it. -/
theorem storedAfter_assigned (hs : List Header) (i : Nat) :
    (∃ s, storedAfter E hs i = .str s) ↔ ∃ h ∈ hs, i < h.elems.length := by
  induction hs using List.reverseRecOn with
  | nil => simp [storedAfter]
  | append_singleton hs h ih =>
      have hstep : storedAfter E (hs ++ [h]) i = storedCells E (storedAfter E hs) 0 h.elems i := by
        rw [storedAfter, List.foldl_append]
        rfl
      rw [hstep, storedCells, if_pos (Nat.zero_le i), Nat.sub_zero]
      by_cases hi : i < h.elems.length
      · rw [List.getElem?_eq_getElem hi]
        exact iff_of_true ⟨_, rfl⟩ ⟨h, by simp, hi⟩
      · rw [List.getElem?_eq_none (Nat.not_lt.mp hi)]
        simp only [ih, List.mem_append, List.mem_singleton, or_and_right, exists_or,
          exists_eq_left, hi, or_false]

end RpcBroker
