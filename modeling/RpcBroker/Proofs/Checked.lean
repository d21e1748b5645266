import RpcBroker.Model.Checked
import RpcBroker.Proofs.Buffers
import RpcBroker.Proofs.Exits
/-!
# RpcBroker.Proofs.Checked

What the readers of `RpcBroker.Model.Checked` need of a packet, and that they return what
the readers of `RpcBroker.Model.Common` return.

A loop takes a packet apart up to the object at which it is left. Each of these objects
must be a header, `IsHeader`: a map of one entry from a string that fits the buffer for
names. `get_hdr_int` goes through all of them and stops at invalid bytes, so a handler
that calls it needs the packet to be `Readable`; on such packets all other readers return.
-/

namespace RpcBroker.Checked

open CLib Msgpack

variable {E : Libs}

/-! ### Pointers and formats -/

theorem deref_eq_ok {p : Ptr} {s : CString} : deref p = .ok s ↔ p = .str s := by
  cases p <;> simp [deref]

theorem printf_eq_ok {text : List UInt8} {u : Unit} :
    printf text = .ok u ↔ (CLib.printed text).isSome := by
  rw [printf]
  split
  next h => exact iff_of_true rfl h
  next h => exact iff_of_false (by simp) h

/-! ### Headers -/

/-- A map of one entry from a string that fits the buffer for names. -/
def IsHeader (obj : Object) : Prop := ∃ name val, obj = .map [(.str name, val)] ∧ NameFits name

theorem extractHeader_eq_ok {obj val : Object} {header_name : CString} :
    extractHeader obj = .ok (header_name, val) ↔
      ∃ name, obj = .map [(.str name, val)] ∧ NameFits name ∧ header_name = .ofBytes name := by
  constructor
  · intro h
    unfold extractHeader at h
    split at h
    next name val' =>
        by_cases hfits : NameFits name
        · rw [if_pos hfits] at h
          obtain ⟨rfl, rfl⟩ := Prod.mk.inj (Except.ok.inj h)
          exact ⟨name, rfl, hfits, rfl⟩
        · rw [if_neg hfits] at h
          exact absurd h (by simp)
    next => exact absurd h (by simp)
    next => exact absurd h (by simp)
    next => exact absurd h (by simp)
  · rintro ⟨name, rfl, hfits, rfl⟩
    rw [extractHeader, if_pos hfits]

/-- The headers of the protocol are taken apart. -/
theorem isHeader_hdr (h : Hdr) (val : Object) : IsHeader (Header.object ⟨h.text.chars, val⟩) := by
  refine ⟨h.text.chars, val, rfl, h.text_short.le, ?_⟩
  exact Nat.lt_of_le_of_lt (List.takeWhile_sublist _).length_le h.text_short

theorem IsHeader.headerOf {obj : Object} (h : IsHeader obj) :
    ∃ hd, headerOf E obj = some hd ∧ obj = hd.object ∧ NameFits hd.name := by
  obtain ⟨name, val, rfl, hfits⟩ := h
  exact ⟨⟨name, val⟩, headerOf_object ⟨name, val⟩, rfl, hfits⟩

/-! ### Names in their buffer -/

open CMemory Buffers in
/-- The buffer `extract_header` copies a name to holds it exactly if the name fits. -/
theorem copyName_holds_iff {name : List UInt8} (hlength : name.length < 0x100000000) :
    (copyName freshHeaderName name).Holds name ↔ NameFits name := by
  have hsize : (strSize name).toNat = name.length := toNat_strSize hlength
  have hroom : freshHeaderName.room = maxHeaderNameSize := by
    rw [freshHeaderName, Block.room_memset, Block.room_fresh]
  have hstrlen : (CString.ofBytes name).strlen = (name.takeWhile (· != 0)).length := rfl
  have hle : (name.takeWhile (· != 0)).length ≤ name.length :=
    (List.takeWhile_sublist _).length_le
  rcases Nat.lt_trichotomy name.length maxHeaderNameSize with hshort | hfull | hlong
  · refine iff_of_true (copyName_whole hshort) ⟨hshort.le, ?_⟩
    rw [hstrlen]
    exact Nat.lt_of_le_of_lt hle hshort
  · -- The name fills the buffer, so a NUL must be among its own characters.
    have hcells : (copyName freshHeaderName name).cells =
        Block.padded (name.map some) name.length := by
      have hfresh : freshHeaderName.cells = List.replicate maxHeaderNameSize (some 0) := rfl
      rw [copyName, hsize, keyName_cells hfull.le, Block.strncpy, Block.padded_padded,
        Block.cells_put (by rw [Block.length_padded, hroom]; exact hfull.le), Block.length_padded,
        hfresh, List.drop_replicate, hfull, Nat.sub_self, List.replicate_zero, List.append_nil]
    have hstray : (copyName freshHeaderName name).stray = false :=
      Block.stray_strncpy.mpr ⟨rfl, by rw [hsize, hroom]; exact hfull.le⟩
    rw [Block.Holds, and_iff_right hstray, Block.string?, hcells, Block.padded_whole, NameFits,
      and_iff_right hfull.le, hstrlen, ← hfull]
    rcases Nat.lt_or_eq_of_le hle with hnul | hwhole
    · refine iff_of_true ?_ hnul
      obtain ⟨k, hk⟩ := Nat.exists_eq_add_of_lt hnul
      have hpad : name.length - (name.takeWhile (· != 0)).length = k + 1 := by omega
      rw [hpad, List.replicate_succ, Block.chars?_terminated, List.takeWhile_idem]
      exact congrArg some (CString.ext List.takeWhile_idem)
    · have hnul : 0 ∉ name := by
        have heq : name.takeWhile (· != 0) = name :=
          (List.takeWhile_sublist _).eq_of_length hwhole
        exact fun hmem => by simpa using List.takeWhile_eq_self_iff.mp heq 0 hmem
      rw [hwhole, Nat.sub_self, List.replicate_zero, List.append_nil,
        Block.chars?_unterminated fun hmem => hnul ((List.takeWhile_sublist _).mem hmem)]
      exact iff_of_false (by simp) (Nat.lt_irrefl _)
  · have hstray : ¬ (copyName freshHeaderName name).stray = false := by
      rw [copyName, Block.stray_strncpy, hsize, hroom]
      exact fun h => absurd h.2 (Nat.not_le.mpr hlong)
    exact iff_of_false (fun h => hstray h.1) fun h => absurd h.1 (Nat.not_le.mpr hlong)

/-! ### Taking a packet apart -/

/-- Does a loop stop at this object? -/
def stopsAt (E : Libs) (leaves : CString → Object → Bool) (obj : Object) : Bool :=
  (headerOf E obj).any fun hd => leaves hd.key hd.val

/-- A loop needs the objects up to the one it stops at to be headers. -/
theorem takeApart_eq_ok {leaves : CString → Object → Bool} {objs : List Object} :
    takeApart leaves objs = .ok () ↔
      ∀ obj ∈ Buffers.through (stopsAt E leaves) objs, IsHeader obj := by
  induction objs with
  | nil => simp [takeApart, Buffers.through]
  | cons obj objs ih =>
      rw [takeApart, Buffers.through, List.forall_mem_cons, bind_eq_ok]
      by_cases hobj : IsHeader obj
      · obtain ⟨name, val, rfl, hfits⟩ := hobj
        have hextract : extractHeader (.map [(.str name, val)]) = .ok (.ofBytes name, val) :=
          extractHeader_eq_ok.mpr ⟨name, rfl, hfits, rfl⟩
        have hstops : stopsAt E leaves (.map [(.str name, val)]) = leaves (.ofBytes name) val := by
          rw [stopsAt, show headerOf E (.map [(.str name, val)]) = some ⟨name, val⟩ from
            headerOf_object ⟨name, val⟩]
          rfl
        rw [hextract, hstops, and_iff_right ⟨name, val, rfl, hfits⟩]
        simp only [Except.ok.injEq, exists_eq_left']
        cases leaves (.ofBytes name) val with
        | true => simp [pure, Except.pure]
        | false => simpa using ih
      · refine iff_of_false (fun h => hobj ?_) (fun h => hobj h.1)
        obtain ⟨⟨header_name, val⟩, hextract, -⟩ := h
        obtain ⟨name, rfl, hfits, -⟩ := extractHeader_eq_ok.mp hextract
        exact ⟨name, val, rfl, hfits⟩

theorem stopsAt_goesThrough : stopsAt E goesThrough = fun _ => false := by
  funext obj
  rw [stopsAt]
  cases headerOf E obj <;> rfl

/-- A reader leaves its loop at the first string under the name. -/
theorem stopsAt_leavesAt (look : CString) (obj : Object) :
    stopsAt E (leavesAt E look) obj = ((headerOf E obj).bind (Header.str? look)).isSome := by
  rw [stopsAt]
  cases headerOf E obj with
  | none => rfl
  | some hd =>
      rw [Option.any_some, Option.bind_some]
      cases hval : hd.val with
      | str bytes =>
          simp only [leavesAt, Header.str?, hval, Stulibc.strEquals_str]
          by_cases hkey : look = hd.key
          · rw [if_pos hkey, decide_eq_true hkey, Option.isSome_some]
          · rw [if_neg hkey, decide_eq_false hkey, Option.isSome_none]
      | _ => simp [leavesAt, Header.str?, hval]

theorem reading_eq_ok {α : Type} {leaves : CString → Object → Bool} {packet : E.Buffer}
    {result : Except Exit α} {a : α} :
    reading E leaves packet result = .ok a ↔
      takeApart leaves (E.unpack packet).objects = .ok () ∧ result = .ok a := by
  rw [reading, bind_eq_ok]
  constructor
  · intro h
    obtain ⟨⟨⟩, htaken, hresult⟩ := h
    exact ⟨htaken, mapError_eq_ok.mp hresult⟩
  · intro h
    exact ⟨(), h.1, mapError_eq_ok.mpr h.2⟩

/-! ### Readable packets -/

/-- The packet is a sequence of headers, and no invalid bytes follow. -/
structure Readable (E : Libs) (packet : E.Buffer) : Prop where
  status : (E.unpack packet).status ≠ .parseError
  headers : ∀ obj ∈ (E.unpack packet).objects, IsHeader obj

theorem Readable.parsable {packet : E.Buffer} (h : Readable E packet) : Parsable E packet := by
  refine ⟨h.status, fun obj hobj => ?_⟩
  obtain ⟨name, val, rfl, -⟩ := h.headers obj hobj
  exact ⟨.str name, val, rfl⟩

/-- A packet of headers is taken apart by every loop. -/
theorem takeApart_of_headers {leaves : CString → Object → Bool} {packet : E.Buffer}
    (h : ∀ obj ∈ (E.unpack packet).objects, IsHeader obj) :
    takeApart leaves (E.unpack packet).objects = .ok () :=
  (takeApart_eq_ok (E := E)).mpr fun obj hobj => h obj (Buffers.mem_of_mem_through hobj)

theorem takeApart_goesThrough {objs : List Object} :
    takeApart goesThrough objs = .ok () ↔ ∀ obj ∈ objs, IsHeader obj := by
  rw [takeApart_eq_ok (E := Libs.reference), stopsAt_goesThrough, Buffers.through_never]

/-- `get_hdr_int` returns on readable packets only. -/
theorem getHdrInt_eq_ok {packet : E.Buffer} {look : CString} {i : Int32} :
    getHdrInt E packet look = .ok i ↔
      Readable E packet ∧ i = (lastInt look (headersIn E packet)).getD 0 := by
  rw [getHdrInt, reading_eq_ok, takeApart_goesThrough]
  constructor
  · intro h
    obtain ⟨hheaders, hint⟩ := h
    have hread : Readable E packet := ⟨(parsable_of_getHdrInt hint).1, hheaders⟩
    exact ⟨hread, Except.ok.inj (hint.symm.trans (hread.parsable.getHdrInt look))⟩
  · intro h
    obtain ⟨hread, rfl⟩ := h
    exact ⟨hread.headers, hread.parsable.getHdrInt look⟩

theorem Readable.getHdrInt {packet : E.Buffer} (h : Readable E packet) (look : CString) :
    Checked.getHdrInt E packet look = .ok ((lastInt look (headersIn E packet)).getD 0) :=
  getHdrInt_eq_ok.mpr ⟨h, rfl⟩

theorem Readable.getHdrStr {packet : E.Buffer} (h : Readable E packet) (look : CString) :
    Checked.getHdrStr E packet look = .ok (strResult (firstStr look (headersIn E packet))) :=
  reading_eq_ok.mpr ⟨takeApart_of_headers h.headers, h.parsable.getHdrStr look⟩

/-- The operation, NULL if there is none. -/
theorem Readable.getOpName {packet : E.Buffer} (h : Readable E packet) :
    Checked.getOpName E packet =
      .ok (match firstStr Hdr.operation.text (headersIn E packet) with
        | some s => .str s
        | none => .null) := by
  refine reading_eq_ok.mpr ⟨takeApart_of_headers h.headers, ?_⟩
  rw [RpcBroker.getOpName, getOpNameLoop_entries h.parsable.entries, if_neg h.status]
  cases firstStr Hdr.operation.text (headersIn E packet) <;> rfl

/-- `get_req_type` takes the first object apart. -/
theorem getReqType_eq_ok {packet : E.Buffer} {t : Int32} :
    getReqType E packet = .ok t ↔
      (∀ obj ∈ (E.unpack packet).objects.head?, IsHeader obj) ∧
        RpcBroker.getReqType E packet = .ok t := by
  rw [getReqType, reading_eq_ok, takeApart_eq_ok (E := E)]
  refine and_congr_left fun htype => ?_
  cases hobjs : (E.unpack packet).objects with
  | nil => simp [Buffers.through]
  | cons obj objs =>
      simp only [Buffers.through, List.forall_mem_cons, List.head?_cons, Option.mem_def,
        Option.some.injEq, forall_eq']
      refine and_iff_left_of_imp fun hobj => ?_
      obtain ⟨hd, hheader, -, -⟩ := hobj.headerOf (E := E)
      simp [stopsAt, hheader]

end RpcBroker.Checked
