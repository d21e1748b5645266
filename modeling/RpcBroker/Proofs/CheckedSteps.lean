import RpcBroker.Model.System
import RpcBroker.Proofs.Checked
import RpcBroker.Proofs.Mirrors
import RpcBroker.Proofs.Origins
/-!
# RpcBroker.Proofs.CheckedSteps

What the parts of the checked broker need: a `send` that succeeds (`sendReq_eq_ok`), texts
with a defined output (`printStatements_eq_ok`), and strings to compare with. Each says
what the part returns then, in the words of `RpcBroker.Model.Broker`.

The two searches stop at the first string that is equal to the operation, so only the
pointers they have compared until then must point at strings (`findServerLoop_eq_ok`,
`findClientLoop_eq_ok`).
-/

namespace RpcBroker.Checked

open CLib Msgpack

variable {E : Libs}

/-! ### Sending -/

/-- Both calls of `send` return a number of bytes. -/
def SendCounts.Succeed (counts : SendCounts) : Prop := ¬ counts.size < 0 ∧ ¬ counts.data < 0

instance (counts : SendCounts) : Decidable counts.Succeed :=
  inferInstanceAs (Decidable (_ ∧ _))

theorem sendReq_eq_ok {dest : Location} {counts : SendCounts} {total : Int32} :
    sendReq dest counts = .ok total ↔
      dest.details?.isSome ∧ counts.Succeed ∧ total = counts.size + counts.data := by
  obtain ⟨address, port⟩ := dest
  cases address with
  | str a =>
      cases port with
      | str p =>
          simp only [sendReq, deref, bind, Except.bind, pure, Except.pure, Location.details?,
            Option.isSome_some, true_and, SendCounts.Succeed]
          by_cases hsize : counts.size < 0
          · simp [hsize]
          · by_cases hdata : counts.data < 0
            · simp [hsize, hdata]
            · simp [hsize, hdata, eq_comm]
      | _ => simp [sendReq, deref, bind, Except.bind, Location.details?]
  | _ => simp [sendReq, deref, bind, Except.bind, Location.details?]

/-- `send_req` gives what `send_data` gives, when the calls of `send` return these counts. -/
theorem sendReq_sendData (d : Details) (packet : List UInt8) (size data : Nat) :
    sendReq d.location ⟨.ofNat size, .ofNat data⟩ =
      (sendData packet size data).2.mapError .netError := by
  simp only [sendReq, Details.location, deref, bind, Except.bind, sendData]
  split
  · rfl
  · split <;> rfl

/-- Every try that is made succeeds: the next is made if nothing was sent. -/
def Acked : List SendCounts → Prop
  | [] => True
  | counts :: tries => counts.Succeed ∧ (counts.size + counts.data = 0 → Acked tries)

theorem sendTries_eq_ok {dest : Location} {counts : SendCounts} {tries : List SendCounts} :
    sendTries dest (counts :: tries) = .ok () ↔
      dest.details?.isSome ∧ Acked (counts :: tries) := by
  induction tries generalizing counts with
  | nil =>
      rw [sendTries, bind_eq_ok, Acked]
      simp only [sendReq_eq_ok]
      constructor
      · intro h
        obtain ⟨total, ⟨hdest, hcounts, -⟩, -⟩ := h
        exact ⟨hdest, hcounts, fun _ => trivial⟩
      · intro h
        obtain ⟨hdest, hcounts, -⟩ := h
        refine ⟨_, ⟨hdest, hcounts, rfl⟩, ?_⟩
        split <;> rfl
  | cons next tries ih =>
      rw [sendTries, bind_eq_ok, Acked]
      simp only [sendReq_eq_ok]
      constructor
      · intro h
        obtain ⟨total, ⟨hdest, hcounts, rfl⟩, hrest⟩ := h
        refine ⟨hdest, hcounts, fun hnone => ?_⟩
        rw [if_pos hnone] at hrest
        exact (ih.mp hrest).2
      · intro h
        obtain ⟨hdest, hcounts, hrest⟩ := h
        refine ⟨_, ⟨hdest, hcounts, rfl⟩, ?_⟩
        by_cases hnone : counts.size + counts.data = 0
        · rw [if_pos hnone]
          exact ih.mpr ⟨hdest, hrest hnone⟩
        · rw [if_neg hnone]
          rfl

/-! ### Printing a registration -/

theorem forM_eq_ok {α ε : Type} {f : α → Except ε Unit} {as : List α} :
    as.forM f = .ok () ↔ ∀ a ∈ as, f a = .ok () := by
  induction as with
  | nil => exact iff_of_true rfl (by simp)
  | cons a as ih =>
      rw [List.forall_mem_cons, ← ih]
      show (f a >>= fun _ => as.forM f) = .ok () ↔ _
      rw [bind_eq_ok]
      constructor
      · intro h
        obtain ⟨⟨⟩, ha, has⟩ := h
        exact ⟨ha, has⟩
      · intro h
        exact ⟨(), h.1, h.2⟩

theorem forall_printedPtrs {reg : ServiceReg} {P : Ptr → Prop} :
    (∀ p ∈ printedPtrs reg, P p) ↔
      P reg.service_name ∧ P reg.address ∧ P reg.port ∧
        ∀ i ∈ List.range reg.num_services.toNatClampNeg, P (reg.service i) := by
  simp [printedPtrs, or_imp, forall_and]

/-- A string with every percent sign doubled. -/
def Printable (p : Ptr) : Prop := ∃ s, p = .str s ∧ (CLib.printed s.chars).isSome

theorem printable_iff {reg : ServiceReg} :
    HasStrings reg ∧ Doubled reg ↔ ∀ p ∈ printedPtrs reg, Printable p := by
  constructor
  · intro h p hp
    obtain ⟨s, rfl⟩ := h.1 p hp
    exact ⟨s, rfl, printed_isSome_iff.mpr (h.2 _ hp)⟩
  · intro h
    refine ⟨fun p hp => ?_, fun p hp => ?_⟩
    · obtain ⟨s, rfl, -⟩ := h p hp
      exact ⟨s, rfl⟩
    · obtain ⟨s, rfl, hs⟩ := h p hp
      exact printed_isSome_iff.mp hs

/-- The texts of a registration can be printed if its strings are strings, with every
percent sign in them doubled. -/
theorem printStatements_eq_ok {reg : ServiceReg} :
    printStatements reg = .ok () ↔ HasStrings reg ∧ Doubled reg := by
  have hservice : ∀ i : Nat, (do
      let service ← deref (reg.service i)
      printf (sprintf serviceSql [.str service] ++ literals ["\n"])) = .ok () ↔
        Printable (reg.service i) := by
    intro i
    simp only [bind_eq_ok, deref_eq_ok, printf_eq_ok, printed_serviceSql_iff, Printable]
  rw [printable_iff, forall_printedPtrs, printStatements, bind_eq_ok]
  simp only [bind_eq_ok, deref_eq_ok, printf_eq_ok, printed_registrationSql_iff, forM_eq_ok,
    hservice]
  constructor
  · intro h
    obtain ⟨name, hname, address, haddress, port, hport, _, ⟨hn, ha, hp⟩, hservices⟩ := h
    exact ⟨⟨name, hname, hn⟩, ⟨address, haddress, ha⟩, ⟨port, hport, hp⟩, hservices⟩
  · intro h
    obtain ⟨⟨name, hname, hn⟩, ⟨address, haddress, ha⟩, ⟨port, hport, hp⟩, hservices⟩ := h
    exact ⟨name, hname, address, haddress, port, hport, (), ⟨hn, ha, hp⟩, hservices⟩

/-! ### The two searches -/

/-- Comparisons end at the first that succeeds, in whichever part that is. -/
theorem comparedPairs_append (xs ys : List (Ptr × Ptr)) :
    comparedPairs E (xs ++ ys) =
      comparedPairs E xs ++
        if xs.any fun pair => E.strEquals pair.1 pair.2 then [] else comparedPairs E ys := by
  induction xs with
  | nil => rfl
  | cons pair xs ih =>
      rw [List.cons_append, comparedPairs, comparedPairs, List.any_cons]
      cases E.strEquals pair.1 pair.2 with
      | true => rfl
      | false => rw [if_neg Bool.false_ne_true, ih, Bool.false_or, if_neg Bool.false_ne_true,
          List.cons_append]

/-- The pointers compared with the operation point at strings. -/
def Comparable (pairs : List (Ptr × Ptr)) : Prop := ∀ pair ∈ pairs, ∃ s, pair.2 = .str s

theorem comparable_append {xs ys : List (Ptr × Ptr)} :
    Comparable (xs ++ ys) ↔ Comparable xs ∧ Comparable ys := List.forall_mem_append

theorem listsService_eq_ok {op : CString} {reg : ServiceReg} {is : List Nat} {found : Bool} :
    listsService (.str op) reg is = .ok found ↔
      Comparable (comparedPairs E (is.map fun i => (.str op, reg.service i))) ∧
        found = is.any fun i => E.strEquals (.str op) (reg.service i) := by
  induction is with
  | nil => simp [listsService, comparedPairs, Comparable, eq_comm]
  | cons i is ih =>
      rw [listsService, List.map_cons, comparedPairs, List.any_cons]
      cases hservice : reg.service i with
      | str t =>
          have hcompare : strEquals (.str op) (.str t) = .ok (decide (op = t)) := rfl
          simp only [hcompare, bind, Except.bind, Stulibc.strEquals_str, decide_eq_true_eq]
          by_cases heq : op = t
          · rw [if_pos heq, if_pos heq, decide_eq_true heq, Bool.true_or, pure_eq_ok]
            simp [Comparable, eq_comm]
          · rw [if_neg heq, if_neg heq, decide_eq_false heq, Bool.false_or, ih]
            simp [Comparable]
      | _ =>
          refine iff_of_false (fun h => ?_) (fun h => ?_)
          · exact absurd h (by simp [strEquals, deref, bind, Except.bind])
          · have hmem := h.1
            split at hmem <;> simp [Comparable] at hmem

/-- The search compares what the search of the model compares, and finds the same. -/
theorem findServerLoop_eq_ok {op : CString} {regs : List ServiceReg} {dest : Location} :
    findServerLoop (.str op) regs = .ok dest ↔
      Comparable (serverComparisons E (.str op) regs) ∧ dest = serverFor E (.str op) regs := by
  induction regs with
  | nil => simp [findServerLoop, serverComparisons, comparedPairs, Comparable, serverFor, eq_comm]
  | cons reg regs ih =>
      have hany : ((List.range reg.num_services.toNatClampNeg).map fun i =>
          (Ptr.str op, reg.service i)).any (fun pair => E.strEquals pair.1 pair.2) =
            RpcBroker.listsService E (.str op) reg := by
        rw [List.any_map]
        rfl
      rw [findServerLoop, bind_eq_ok, serverComparisons, List.flatMap_cons, comparedPairs_append,
        comparable_append, hany, serverFor]
      simp only [listsService_eq_ok (E := E)]
      by_cases hlists : RpcBroker.listsService E (.str op) reg = true
      · rw [List.find?_cons_of_pos hlists, if_pos hlists]
        constructor
        · intro h
          obtain ⟨found, ⟨hcompared, hfound⟩, h⟩ := h
          obtain rfl : found = true := hfound.trans hlists
          rw [if_pos rfl, pure_eq_ok] at h
          exact ⟨⟨hcompared, by simp [Comparable]⟩, h.symm⟩
        · intro h
          obtain ⟨⟨hcompared, -⟩, rfl⟩ := h
          exact ⟨true, ⟨hcompared, hlists.symm⟩, rfl⟩
      · rw [List.find?_cons_of_neg hlists, if_neg hlists]
        have hmiss : RpcBroker.listsService E (.str op) reg = false := by simpa using hlists
        constructor
        · intro h
          obtain ⟨found, ⟨hcompared, hfound⟩, h⟩ := h
          obtain rfl : found = false := hfound.trans hmiss
          rw [if_neg Bool.false_ne_true] at h
          obtain ⟨hrest, rfl⟩ := ih.mp h
          exact ⟨⟨hcompared, hrest⟩, rfl⟩
        · intro h
          obtain ⟨⟨hcompared, hrest⟩, rfl⟩ := h
          refine ⟨false, ⟨hcompared, hmiss.symm⟩, ?_⟩
          rw [if_neg Bool.false_ne_true]
          exact ih.mpr ⟨hrest, rfl⟩

/-- No operation at all is compared with nothing. -/
theorem findServerLoop_null {regs : List ServiceReg} {dest : Location}
    (h : findServerLoop .null regs = .ok dest) : dest = ⟨.null, .null⟩ := by
  induction regs with
  | nil => exact (Except.ok.inj h).symm
  | cons reg regs ih =>
      rw [findServerLoop] at h
      cases hrange : List.range reg.num_services.toNatClampNeg with
      | nil =>
          rw [hrange] at h
          exact ih h
      | cons i is =>
          rw [hrange] at h
          exact absurd h (by simp [listsService, strEquals, deref, bind, Except.bind])

/-- What `find_client_for_response` hands to `STR_Equals`: the operation and those of the
requests with this message id, until it has found one. -/
def clientComparisons (E : Libs) (id : Int32) (op : Ptr) (pending : List ClientReg) :
    List (Ptr × Ptr) :=
  comparedPairs E ((pending.filter fun entry => id = entry.message_id).map fun entry =>
    (op, entry.operation))

/-- The loop of `find_client_for_response` on a readable packet that names an operation. -/
theorem findClientLoop_eq_ok {packet : E.Buffer} (hread : Readable E packet) {op : CString}
    (hop : firstStr Hdr.operation.text (headersIn E packet) = some op) {id : Int32}
    (hid : (lastInt Hdr.messageId.text (headersIn E packet)).getD 0 = id) {dest : Location}
    {pending : List ClientReg} {r : Location × List ClientReg} :
    findClientLoop E packet dest pending = .ok r ↔
      Comparable (clientComparisons E id (.str op) pending) ∧
        r = ((pending.find? (answers E id (.str op))).elim dest fun entry =>
            ⟨entry.address, entry.port⟩,
          pending.eraseP (answers E id (.str op))) := by
  have hint := hread.getHdrInt Hdr.messageId.text
  have hstr := hread.getHdrStr Hdr.operation.text
  rw [hop, strResult_some] at hstr
  rw [hid] at hint
  induction pending generalizing r with
  | nil => simp [findClientLoop, clientComparisons, comparedPairs, Comparable, eq_comm]
  | cons entry rest ih =>
      -- The entry is passed by: the loop does with the others what it does.
      have hmiss : answers E id (.str op) entry = false →
          ((do
            let found ← findClientLoop E packet dest rest
            return (found.1, entry :: found.2)) = .ok r ↔
          Comparable (clientComparisons E id (.str op) rest) ∧
            r = (((entry :: rest).find? (answers E id (.str op))).elim dest fun entry =>
                ⟨entry.address, entry.port⟩,
              (entry :: rest).eraseP (answers E id (.str op)))) := by
        intro hanswers
        have hneg : ¬ answers E id (.str op) entry = true := by simp [hanswers]
        rw [List.find?_cons_of_neg hneg, List.eraseP_cons_of_neg hneg, bind_eq_ok]
        simp only [ih, pure_eq_ok]
        constructor
        · intro h
          obtain ⟨_, ⟨hcompared, rfl⟩, rfl⟩ := h
          exact ⟨hcompared, rfl⟩
        · intro h
          obtain ⟨hcompared, rfl⟩ := h
          exact ⟨_, ⟨hcompared, rfl⟩, rfl⟩
      rw [findClientLoop, hint, hstr]
      by_cases hsame : id = entry.message_id
      · rw [clientComparisons, List.filter_cons_of_pos (by simpa using hsame), List.map_cons,
          comparedPairs]
        cases hentry : entry.operation with
        | str t =>
            have hcompare : strEquals (.str op) (.str t) = .ok (decide (op = t)) := rfl
            simp only [bind, Except.bind, if_pos hsame, hcompare, Stulibc.strEquals_str,
              decide_eq_true_eq]
            by_cases heq : op = t
            · have hanswers : answers E id (.str op) entry = true := by
                simp [answers, hsame, hentry, heq]
              rw [if_pos heq, if_pos heq, List.find?_cons_of_pos hanswers,
                List.eraseP_cons_of_pos hanswers, pure_eq_ok]
              simp [Comparable, eq_comm]
            · have hanswers : answers E id (.str op) entry = false := by
                simp [answers, hentry, heq]
              rw [if_neg heq, if_neg heq]
              refine (hmiss hanswers).trans ?_
              simp [Comparable, clientComparisons]
        | _ =>
            refine iff_of_false (fun h => ?_) (fun h => ?_)
            · simp [hsame, strEquals, deref, bind, Except.bind] at h
            · have hmem := h.1
              split at hmem <;> simp [Comparable] at hmem
      · have hanswers : answers E id (.str op) entry = false := by simp [answers, hsame]
        rw [clientComparisons, List.filter_cons_of_neg (by simpa using hsame)]
        simp only [bind, Except.bind, if_neg hsame, Bool.false_eq_true, if_false]
        exact hmiss hanswers

/-- The loop takes the packet apart if there is a request to compare it with. -/
theorem findClientLoop_readable {packet : E.Buffer} {dest : Location} {pending : List ClientReg}
    {r : Location × List ClientReg} (h : findClientLoop E packet dest pending = .ok r)
    (hne : pending ≠ []) : Readable E packet := by
  cases pending with
  | nil => exact absurd rfl hne
  | cons entry rest =>
      rw [findClientLoop, bind_eq_ok] at h
      obtain ⟨id, hid, -⟩ := h
      exact (getHdrInt_eq_ok.mp hid).1

/-- A packet that names no operation is the answer to no request. -/
theorem findClientLoop_unnamed {packet : E.Buffer} (hread : Readable E packet)
    (hop : firstStr Hdr.operation.text (headersIn E packet) = none) {dest : Location}
    {pending : List ClientReg} {r : Location × List ClientReg}
    (h : findClientLoop E packet dest pending = .ok r) : r.1 = dest := by
  have hstr := hread.getHdrStr Hdr.operation.text
  rw [hop] at hstr
  induction pending generalizing r with
  | nil =>
      obtain rfl := Except.ok.inj h
      rfl
  | cons entry rest ih =>
      rw [findClientLoop, hread.getHdrInt, hstr] at h
      simp only [bind, Except.bind] at h
      split at h
      · exact absurd h (by simp [strEquals, strResult, deref, bind, Except.bind])
      · obtain ⟨found, hloop, hr⟩ := bind_eq_ok.mp h
        obtain rfl := pure_eq_ok.mp hr
        show found.1 = dest
        exact ih hloop

end RpcBroker.Checked
