import RpcBroker.Model.Statements
import RpcBroker.Proofs.Database
/-!
# RpcBroker.Proofs.Statements

**What becomes of the texts for the database.** The array the statements are made in is too
short for any of them: there is no registration for which the broker does not write behind
`qry`, and an array with more room holds what is meant to be executed exactly if it is
longer than every text (`statements_fit_iff`). The template array is long enough.

The texts are printed as formats, too, and the strings of a registration come from the
packet. The output is defined exactly if the registration has every percent sign doubled
(`statements_print_iff`).
-/

namespace RpcBroker

open CLib CMemory Sql

variable {H : Host} {reg : ServiceReg} {n : Nat}

/-! ### The texts -/

/-- The texts are those the model of the database prints and executes. -/
theorem storeRegistration_statements (store : Store) :
    storeRegistration H store reg =
      H.run ((statements H reg).foldl H.printAndRun store) selectSql := by
  rw [storeRegistration, statements, List.foldl_cons, List.foldl_map]
  rfl

theorem literals_nulFree (parts : List String) : 0 ∉ literals parts := by
  intro hmem
  obtain ⟨s, -, hs⟩ := List.mem_flatMap.mp hmem
  exact (CString.lit s).nulFree hs

theorem ofBytes_literals (parts : List String) :
    (CString.ofBytes (literals parts)).chars = literals parts := by
  refine List.takeWhile_eq_self_iff.mpr fun c hc => bne_iff_ne.mpr ?_
  intro heq
  obtain rfl := heq
  exact literals_nulFree parts hc

/-- The first template fits `tmp`, and what stands before its first conversion does not
fit `qry`. -/
theorem length_registrationSql :
    querySize < (registrationSql.takeWhile (· ≠ percent)).length ∧
      registrationSql.length < templateSize := by
  decide +kernel

/-- So it is with the second. -/
theorem length_serviceSql :
    querySize < (serviceSql.takeWhile (· ≠ percent)).length ∧
      serviceSql.length < templateSize := by
  decide +kernel

theorem percent_notMem_head (template : List UInt8) :
    percent ∉ template.takeWhile (· ≠ percent) := by
  intro hmem
  simpa using List.mem_takeWhile_imp hmem

theorem lt_registrationText : querySize < (registrationText H reg).length := by
  have hhead := length_registrationSql.1
  rw [registrationText, sprintf_registrationSql, List.length_append]
  omega

theorem lt_serviceText (i : Nat) : querySize < (serviceText H reg i).length := by
  have hhead := length_serviceSql.1
  rw [serviceText, sprintf_serviceSql, List.length_append]
  omega

theorem sprintf_serviceSql_nulFree (name : CString) : 0 ∉ sprintf serviceSql [.str name] := by
  intro hmem
  have hall : 0 ∈ sprintf serviceSql [.str name] ++ literals ["\n"] := List.mem_append_left _ hmem
  rw [sprintf_serviceSql, List.mem_append, List.mem_append] at hall
  rcases hall with hhead | hname | htail
  · exact literals_nulFree _ (List.takeWhile_subset _ hhead)
  · exact name.nulFree hname
  · exact absurd htail (by decide +kernel)

/-! ### The arrays -/

/-- The template array is intact, and `qry` has `n` characters. -/
structure Arrays.Intact (n : Nat) (a : Arrays) : Prop where
  stray : a.tmp.stray = false
  tmp : a.tmp.room = templateSize
  qry : a.qry.room = n

theorem registrationArrays_intact : (registrationArrays n H reg).Intact n where
  stray := Block.stray_write.mpr ⟨rfl, by rw [Block.room_zeroed]; exact length_registrationSql.2⟩
  tmp := by
    rw [registrationArrays, Arrays.sprintf, Block.literal, Block.room_write, Block.room_zeroed]
  qry := by rw [registrationArrays, Arrays.sprintf, Block.room_write, Block.room_fresh]

theorem serviceArrays_intact {a : Arrays} (h : a.Intact n) (i : Nat) :
    (serviceArrays H reg a i).Intact n where
  stray := Block.stray_write.mpr ⟨h.stray, by rw [h.tmp]; exact length_serviceSql.2⟩
  tmp := Block.room_write.trans h.tmp
  qry := by
    rw [serviceArrays, Block.room_strcat, Arrays.sprintf, Block.room_write]
    exact h.qry

/-- The template is what was written to `tmp`. -/
theorem template_write {tmp qry : Block} {parts : List String}
    (h : (literals parts).length < tmp.room) :
    Arrays.template ⟨tmp.write (literals parts), qry⟩ = literals parts := by
  rw [Arrays.template]
  simp only [Block.string?_write h]
  exact ofBytes_literals parts

theorem registrationArrays_qry :
    (registrationArrays n H reg).qry = (Block.fresh n).write (registrationText H reg) := by
  have htemplate : Arrays.template ⟨.literal templateSize registrationSql, .fresh n⟩ =
      registrationSql := by
    refine template_write ?_
    rw [Block.room_zeroed]
    exact length_registrationSql.2
  rw [registrationArrays, Arrays.sprintf, htemplate]
  rfl

theorem registrationArrays_holds_iff :
    (registrationArrays n H reg).qry.Holds (registrationText H reg) ↔
      (registrationText H reg).length < n := by
  rw [registrationArrays_qry, Block.holds_write_iff, Block.room_fresh]
  exact and_iff_right rfl

theorem serviceArrays_holds_iff {a : Arrays} (h : a.Intact n) (i : Nat) :
    (serviceArrays H reg a i).qry.Holds (serviceText H reg i) ↔
      a.qry.stray = false ∧ (serviceText H reg i).length < n := by
  have htemplate : Arrays.template ⟨a.tmp.write serviceSql, a.qry⟩ = serviceSql := by
    refine template_write ?_
    rw [h.tmp]
    exact length_serviceSql.2
  rw [serviceArrays, Arrays.sprintf, htemplate, serviceText,
    Block.holds_strcat_iff (sprintf_serviceSql_nulFree _), h.qry]

/-- A write outside `qry` stays on record. -/
theorem serviceArrays_stray {a : Arrays} (h : a.qry.stray = true) (i : Nat) :
    (serviceArrays H reg a i).qry.stray = true :=
  Block.stray_strcat (Block.stray_write_of_stray h)

/-! ### Every round -/

/-- What every round preserves holds after each. -/
theorem forall_mem_scanl {α β : Type*} {P : α → Prop} {f : α → β → α}
    (hstep : ∀ a i, P a → P (f a i)) {a : α} (h : P a) (is : List β) :
    ∀ b ∈ is.scanl f a, P b := by
  induction is generalizing a with
  | nil =>
      intro b hb
      exact List.mem_singleton.mp hb ▸ h
  | cons i is ih =>
      rw [List.scanl_cons]
      exact List.forall_mem_cons.mpr ⟨h, ih (hstep a i h)⟩

theorem executions_intact : ∀ a ∈ executions n H reg, a.Intact n :=
  forall_mem_scanl (P := Arrays.Intact n) (fun _ i h => serviceArrays_intact h i)
    registrationArrays_intact _

/-- **The rounds from one statement on.** -/
theorem scanl_holds_iff {a : Arrays} (h : a.Intact n) {text : List UInt8} (is : List Nat) :
    List.Forall₂ (fun (b : Arrays) text => b.qry.Holds text) (is.scanl (serviceArrays H reg) a)
        (text :: is.map (serviceText H reg)) ↔
      a.qry.Holds text ∧ ∀ i ∈ is, (serviceText H reg i).length < n := by
  induction is generalizing a text with
  | nil => simp
  | cons i is ih =>
      rw [List.scanl_cons, List.map_cons, List.forall₂_cons, ih (serviceArrays_intact h i),
        serviceArrays_holds_iff h, List.forall_mem_cons]
      constructor
      · intro h
        obtain ⟨hholds, ⟨-, hfits⟩, hrest⟩ := h
        exact ⟨hholds, hfits, hrest⟩
      · intro h
        obtain ⟨hholds, hfits, hrest⟩ := h
        exact ⟨hholds, ⟨hholds.1, hfits⟩, hrest⟩

/-- **No registration fits.** The texts that are printed and executed are these. The template
array takes every template. An array of `n` characters holds each text when it is executed
exactly if it is longer than all of them. In the source it is longer than none, and from
the first on something has been written outside. -/
theorem statements_fit_iff (H : Host) (reg : ServiceReg) (n : Nat) :
    (∀ store, storeRegistration H store reg =
        H.run ((statements H reg).foldl H.printAndRun store) selectSql) ∧
      (∀ a ∈ executions n H reg, a.tmp.stray = false) ∧
      (List.Forall₂ (fun (a : Arrays) text => a.qry.Holds text) (executions n H reg)
          (statements H reg) ↔ ∀ text ∈ statements H reg, text.length < n) ∧
      (∀ text ∈ statements H reg, querySize < text.length) ∧
      ∀ a ∈ executions querySize H reg, a.qry.stray = true := by
  refine ⟨storeRegistration_statements, fun a ha => (executions_intact a ha).stray, ?_, ?_,
    forall_mem_scanl (fun a i h => serviceArrays_stray h i) ?_ _⟩
  · rw [executions, statements, scanl_holds_iff registrationArrays_intact,
      registrationArrays_holds_iff, List.forall_mem_cons, List.forall_mem_map]
  · rw [statements, List.forall_mem_cons, List.forall_mem_map]
    exact ⟨lt_registrationText, fun i _ => lt_serviceText i⟩
  · rw [registrationArrays_qry, ← Bool.not_eq_false, Block.stray_write, Block.room_fresh]
    exact fun hfits => Nat.lt_asymm hfits.2 lt_registrationText

/-! ### Printing -/

theorem decimal_percent (i : Int32) : percent ∉ decimal i := by
  have hdigits : percent ∉ (Nat.toDigits 10 i.toInt.natAbs).map fun c => UInt8.ofNat c.toNat :=
    fun hmem => absurd (isDigit_digits hmem) (by decide)
  unfold decimal
  split
  next => exact List.not_mem_cons_of_ne_of_not_mem (by decide) hdigits
  next => exact hdigits

theorem printed_registrationSql_iff (name address port : CString) (count : Int32) :
    (printed (sprintf registrationSql [.str name, .str address, .str port, .int count])).isSome ↔
      (printed name.chars).isSome ∧ (printed address.chars).isSome ∧
        (printed port.chars).isSome := by
  have hcount : percent ∉ decimal count := decimal_percent _
  have htail : (printed [41, 59, 10]).isSome := by decide
  rw [sprintf_registrationSql, printed_append_of_notMem (percent_notMem_head _),
    printed_append_isSome_iff (by simp [quote]), printed_append_of_notMem (by decide),
    printed_append_isSome_iff (by simp [quote]), printed_append_of_notMem (by decide),
    printed_append_isSome_iff (by simp [quote]), printed_append_of_notMem (by decide),
    printed_append_of_notMem hcount]
  exact and_congr_right fun _ => and_congr_right fun _ => and_iff_left htail

theorem printed_serviceSql_iff (name : CString) :
    (printed (sprintf serviceSql [.str name] ++ literals ["\n"])).isSome ↔
      (printed name.chars).isSome := by
  have htail : (printed (quote :: 41 :: literals [";\nDROP TABLE Variables;\n\n"])).isSome := by
    decide +kernel
  rw [sprintf_serviceSql, printed_append_of_notMem (percent_notMem_head _),
    printed_append_isSome_iff (by decide)]
  exact and_iff_left htail

/-- **Printing a registration.** The texts have a defined output as formats exactly if in
each of the strings the registration puts into them every percent sign is doubled. -/
theorem statements_print_iff (H : Host) (reg : ServiceReg) :
    (∀ text ∈ statements H reg, (printed text).isSome) ↔
      ∀ s ∈ statementStrings H reg, ∃ out, s.chars = escape out := by
  simp only [← printed_isSome_iff]
  rw [statements, statementStrings, List.forall_mem_cons, List.forall_mem_map,
    List.forall_mem_cons, List.forall_mem_cons, List.forall_mem_cons, List.forall_mem_map,
    registrationText, printed_registrationSql_iff, and_assoc, and_assoc]
  simp only [serviceText, printed_serviceSql_iff]

theorem foldl_printAndRun_misprinted (texts : List (List UInt8)) (store : Store) :
    (texts.foldl H.printAndRun store).misprinted = false ↔
      store.misprinted = false ∧ ∀ text ∈ texts, (printed text).isSome := by
  induction texts generalizing store with
  | nil => simp
  | cons text texts ih =>
      have hround : (H.printAndRun store text).misprinted =
          (store.misprinted || (printed text).isNone) := rfl
      rw [List.foldl_cons, ih, hround, List.forall_mem_cons, Bool.or_eq_false_iff,
        Option.isNone_eq_false_iff, and_assoc]

/-- Storing a registration prints what has a defined output exactly if its texts do. -/
theorem storeRegistration_misprinted (store : Store) :
    (storeRegistration H store reg).misprinted = false ↔
      store.misprinted = false ∧ ∀ text ∈ statements H reg, (printed text).isSome := by
  rw [storeRegistration_statements]
  exact foldl_printAndRun_misprinted _ _

end RpcBroker
