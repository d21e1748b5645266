import RpcBroker.Model.Common
/-!
# RpcBroker.Proofs.Headers

What the readers of `RpcBroker.Model.Common` return on a **sequence of
headers**, the packets the protocol speaks of: one-entry maps with string keys.

On such packets a reader is a lookup in a list. `get_hdr_int` finds the last
integer under a name (`lastInt`), `get_hdr_str` and `get_op_name` find the first
string (`firstStr`); `extractHeader` cannot fail. Everything else in this
development reads packets through these equations and never unfolds a loop.
-/

namespace RpcBroker

open CLib Msgpack

variable {E : Libs}

/-! ### Header sequences -/

/-- A header: the bytes of its name, and its value. -/
structure Header where
  name : List UInt8
  val : Object

namespace Header

/-- The one-entry map a header is on the wire. -/
def object (h : Header) : Object := .map [(.str h.name, h.val)]

/-- The name as the readers see it. -/
def key (h : Header) : CString := .ofBytes h.name

/-- The integer the header carries under a name. -/
def int? (look : CString) (h : Header) : Option Int32 :=
  match h.val with
  | .positiveInteger u => if look = h.key then some (intOfWord u) else none
  | _ => none

/-- The string the header carries under a name. -/
def str? (look : CString) (h : Header) : Option CString :=
  match h.val with
  | .str bytes => if look = h.key then some (.ofBytes bytes) else none
  | _ => none

end Header

/-- The last integer under a name. -/
def lastInt (look : CString) (hs : List Header) : Option Int32 :=
  (hs.filterMap (Header.int? look)).getLast?

/-- The first string under a name. -/
def firstStr (look : CString) (hs : List Header) : Option CString :=
  hs.findSome? (Header.str? look)

/-- The last string under a name. -/
def lastStr (look : CString) (hs : List Header) : Option CString :=
  (hs.filterMap (Header.str? look)).getLast?

/-- The packet is the sequence of headers `hs`, with nothing behind it. -/
def Libs.Carries (E : Libs) (packet : E.Buffer) (hs : List Header) : Prop :=
  E.unpack packet = ⟨hs.map Header.object, .«continue»⟩

theorem Libs.Carries.objects {packet : E.Buffer} {hs : List Header} (h : E.Carries packet hs) :
    (E.unpack packet).objects = hs.map Header.object := by
  rw [h]

theorem Libs.Carries.status {packet : E.Buffer} {hs : List Header} (h : E.Carries packet hs) :
    (E.unpack packet).status = .«continue» := by
  rw [h]

/-- The header an object is, if it is a one-entry map. -/
def headerOf (E : Libs) : Object → Option Header
  | .map [(key, val)] => some ⟨E.viaStr key, val⟩
  | _ => none

/-- The objects are one-entry maps, and `hs` is what their entries are read as. -/
def Entries (E : Libs) (objs : List Object) (hs : List Header) : Prop :=
  List.Forall₂ (fun obj h => headerOf E obj = some h) objs hs

theorem extractHeader_headerOf {obj : Object} {h : Header} (hobj : headerOf E obj = some h) :
    extractHeader E obj = .ok (h.key, h.val) := by
  unfold headerOf at hobj
  split at hobj
  next key val =>
      obtain rfl := Option.some.inj hobj
      rfl
  next => exact absurd hobj (by simp)

/-- On anything but a one-entry map the process ends. -/
theorem extractHeader_error {obj : Object} (hobj : headerOf E obj = none) :
    ∃ e, extractHeader E obj = .error e := by
  unfold extractHeader
  split
  next key val => exact absurd hobj (by simp [headerOf])
  next pairs _ => exact ⟨_, rfl⟩
  next => exact ⟨_, rfl⟩

@[simp] theorem headerOf_object (h : Header) : headerOf E h.object = some h := by
  simp [headerOf, Header.object]

@[simp] theorem extractHeader_object (h : Header) :
    extractHeader E h.object = .ok (h.key, h.val) :=
  extractHeader_headerOf (headerOf_object h)

theorem entries_headers (hs : List Header) : Entries E (hs.map Header.object) hs := by
  induction hs with
  | nil => exact .nil
  | cons h hs ih => exact .cons (headerOf_object h) ih

theorem Libs.Carries.entries {packet : E.Buffer} {hs : List Header} (h : E.Carries packet hs) :
    Entries E (E.unpack packet).objects hs := by
  rw [h.objects]
  exact entries_headers hs

@[simp] theorem lastInt_nil (look : CString) : lastInt look [] = none := rfl

theorem lastInt_cons (look : CString) (h : Header) (hs : List Header) :
    lastInt look (h :: hs) = (lastInt look hs).or (h.int? look) := by
  unfold lastInt
  cases hint : h.int? look with
  | none => rw [List.filterMap_cons_none hint, Option.or_none]
  | some i =>
      rw [List.filterMap_cons_some hint, List.getLast?_cons]
      cases (hs.filterMap (Header.int? look)).getLast? <;> rfl

theorem firstStr_cons (look : CString) (h : Header) (hs : List Header) :
    firstStr look (h :: hs) = (h.str? look).or (firstStr look hs) := by
  unfold firstStr
  cases hstr : h.str? look with
  | none => rw [List.findSome?_cons_of_isNone (by rw [hstr]; rfl), Option.none_or]
  | some s => rw [List.findSome?_cons_of_isSome (by rw [hstr]; rfl), hstr, Option.some_or]

theorem lastInt_concat (look : CString) (hs : List Header) (h : Header) :
    lastInt look (hs ++ [h]) = (h.int? look).or (lastInt look hs) := by
  unfold lastInt
  rw [List.filterMap_append, List.getLast?_append]
  cases hint : h.int? look <;> simp [hint]

theorem lastStr_concat (look : CString) (hs : List Header) (h : Header) :
    lastStr look (hs ++ [h]) = (h.str? look).or (lastStr look hs) := by
  unfold lastStr
  rw [List.filterMap_append, List.getLast?_append]
  cases hstr : h.str? look <;> simp [hstr]

/-! ### The loops as lookups -/

/-- The loop of `get_hdr_int` over entries keeps the last match. -/
theorem getHdrIntLoop_entries {objs : List Object} {hs : List Header} (h : Entries E objs hs)
    (look : CString) (status : UnpackEnd) (r : Int32) :
    getHdrIntLoop E look status objs r =
      if status = .parseError then .error .invalidFormat
      else .ok ((lastInt look hs).getD r) := by
  induction h generalizing r with
  | nil => rfl
  | @cons obj h objs hs hobj _ ih =>
      rw [getHdrIntLoop, extractHeader_headerOf hobj, lastInt_cons]
      have hmiss : h.int? look = none →
          getHdrIntLoop E look status objs r =
            if status = .parseError then .error .invalidFormat
            else .ok (((lastInt look hs).or (h.int? look)).getD r) := by
        intro hnone
        rw [ih, hnone, Option.or_none]
      cases hval : h.val with
      | positiveInteger u =>
          simp only [bind, Except.bind]
          by_cases hkey : look = h.key
          · have hint : h.int? look = some (intOfWord u) := by simp [Header.int?, hval, hkey]
            rw [if_pos hkey, ih, hint]
            cases lastInt look hs <;> rfl
          · have hint : h.int? look = none := by simp [Header.int?, hval, hkey]
            rw [if_neg hkey]
            exact hmiss hint
      | _ => exact hmiss (by simp [Header.int?, hval])

/-- The loop of `get_hdr_str` over entries stops at the first match. -/
theorem getHdrStrLoop_entries {objs : List Object} {hs : List Header} (h : Entries E objs hs)
    (look : CString) (status : UnpackEnd) :
    getHdrStrLoop E look status objs =
      .ok (match firstStr look hs with
        | some s => ⟨.str s, none⟩
        | none => ⟨.unassigned, some status⟩) := by
  induction h with
  | nil => rfl
  | @cons obj h objs hs hobj _ ih =>
      rw [getHdrStrLoop, extractHeader_headerOf hobj, firstStr_cons]
      cases hval : h.val with
      | str bytes =>
          simp only [bind, Except.bind, Header.str?, hval, Stulibc.strEquals_str,
            decide_eq_true_eq]
          by_cases hkey : look = h.key
          · rw [if_pos hkey, if_pos hkey, Option.some_or]
          · rw [if_neg hkey, if_neg hkey, Option.none_or, ih]
      | _ => simpa only [bind, Except.bind, Header.str?, hval, Option.none_or] using ih

/-- The loop of `get_op_name` over entries stops at the first match. -/
theorem getOpNameLoop_entries {objs : List Object} {hs : List Header} (h : Entries E objs hs)
    (status : UnpackEnd) :
    getOpNameLoop E status objs =
      match firstStr Hdr.operation.text hs with
      | some s => .ok (.str s)
      | none => if status = .parseError then .error .invalidFormat else .ok .null := by
  induction h with
  | nil => rfl
  | @cons obj h objs hs hobj _ ih =>
      rw [getOpNameLoop, extractHeader_headerOf hobj, firstStr_cons]
      cases hval : h.val with
      | str bytes =>
          simp only [bind, Except.bind, Header.str?, hval, Stulibc.strEquals_str,
            decide_eq_true_eq]
          by_cases hkey : Hdr.operation.text = h.key
          · have hop : CString.lit "op" = h.key := hkey
            rw [if_pos hkey, if_pos hop, Option.some_or]
          · have hop : ¬ CString.lit "op" = h.key := hkey
            rw [if_neg hkey, if_neg hop, Option.none_or, ih]
      | _ => simpa only [bind, Except.bind, Header.str?, hval, Option.none_or] using ih

/-- The loop of `get_hdr_int` gets to the end only over entries: it takes every
object apart. -/
theorem getHdrIntLoop_eq_ok {objs : List Object} {look : CString} {status : UnpackEnd}
    {r i : Int32} (h : getHdrIntLoop E look status objs r = .ok i) :
    status ≠ .parseError ∧ ∃ hs, Entries E objs hs := by
  induction objs generalizing r with
  | nil =>
      refine ⟨?_, [], .nil⟩
      rintro rfl
      exact absurd h (by simp [getHdrIntLoop])
  | cons obj objs ih =>
      cases hobj : headerOf E obj with
      | none =>
          obtain ⟨e, he⟩ := extractHeader_error hobj
          rw [getHdrIntLoop, he] at h
          exact absurd h (by simp [bind, Except.bind])
      | some hd =>
          have hrest : ∃ r, getHdrIntLoop E look status objs r = .ok i := by
            rw [getHdrIntLoop, extractHeader_headerOf hobj] at h
            simp only [bind, Except.bind] at h
            split at h <;> exact ⟨_, h⟩
          obtain ⟨r', hr'⟩ := hrest
          obtain ⟨hstatus, hs, hentries⟩ := ih hr'
          exact ⟨hstatus, hd :: hs, .cons hobj hentries⟩

/-! ### The readers on a packet of headers -/

/-- What `get_hdr_str` returns when its lookup found `found`. -/
def strResult : Option CString → Ptr
  | some s => .str s
  | none => .unassigned

@[simp] theorem strResult_some (s : CString) : strResult (some s) = .str s := rfl

/-- The headers found in a packet, whatever else it holds. -/
def headersIn (E : Libs) (packet : E.Buffer) : List Header :=
  (E.unpack packet).objects.filterMap (headerOf E)

theorem Entries.headersIn {packet : E.Buffer} {hs : List Header}
    (h : Entries E (E.unpack packet).objects hs) : headersIn E packet = hs := by
  unfold RpcBroker.headersIn
  generalize (E.unpack packet).objects = objs at h
  induction h with
  | nil => rfl
  | cons hobj _ ih => rw [List.filterMap_cons_some hobj, ih]

/-- `get_hdr_int` returns only on entries that do not end in invalid bytes, and
then it is the lookup. -/
theorem getHdrInt_eq_ok {packet : E.Buffer} {look : CString} {i : Int32} :
    getHdrInt E packet look = .ok i ↔
      (E.unpack packet).status ≠ .parseError ∧
        Entries E (E.unpack packet).objects (headersIn E packet) ∧
        i = (lastInt look (headersIn E packet)).getD 0 := by
  constructor
  · intro h
    obtain ⟨hstatus, hs, hentries⟩ := getHdrIntLoop_eq_ok h
    rw [getHdrInt, getHdrIntLoop_entries hentries, if_neg hstatus] at h
    rw [hentries.headersIn]
    exact ⟨hstatus, hentries, (Except.ok.inj h).symm⟩
  · rintro ⟨hstatus, hentries, rfl⟩
    rw [getHdrInt, getHdrIntLoop_entries hentries, if_neg hstatus]

theorem getHdrStr_entries {packet : E.Buffer} {hs : List Header}
    (h : Entries E (E.unpack packet).objects hs) (look : CString) :
    getHdrStr E packet look = .ok (strResult (firstStr look hs)) := by
  rw [getHdrStr, getHdrStrScan, getHdrStrLoop_entries h]
  cases firstStr look hs <;> rfl

theorem getHdrInt_carries {packet : E.Buffer} {hs : List Header} (h : E.Carries packet hs)
    (look : CString) : getHdrInt E packet look = .ok ((lastInt look hs).getD 0) := by
  rw [getHdrInt, h.status, getHdrIntLoop_entries h.entries]
  rfl

theorem getHdrStrScan_carries {packet : E.Buffer} {hs : List Header} (h : E.Carries packet hs)
    (look : CString) :
    getHdrStrScan E packet look =
      .ok (match firstStr look hs with
        | some s => ⟨.str s, none⟩
        | none => ⟨.unassigned, some .«continue»⟩) := by
  rw [getHdrStrScan, h.status, getHdrStrLoop_entries h.entries]

theorem getHdrStr_carries {packet : E.Buffer} {hs : List Header} (h : E.Carries packet hs)
    (look : CString) : getHdrStr E packet look = .ok (strResult (firstStr look hs)) :=
  getHdrStr_entries h.entries look

theorem getOpName_carries {packet : E.Buffer} {hs : List Header} (h : E.Carries packet hs) :
    getOpName E packet =
      .ok (match firstStr Hdr.operation.text hs with
        | some s => .str s
        | none => .null) := by
  rw [getOpName, h.status, getOpNameLoop_entries h.entries]
  cases firstStr Hdr.operation.text hs <;> rfl

/-- The request type of a packet whose first header carries it. -/
theorem getReqType_carries {packet : E.Buffer} {h : Header} {hs : List Header} {t : Int32}
    (hc : E.Carries packet (h :: hs)) (ht : h.int? Hdr.requestType.text = some t) :
    getReqType E packet = .ok t := by
  rw [getReqType, hc.objects, List.map_cons]
  simp only [extractHeader_object, bind, Except.bind]
  cases hval : h.val with
  | positiveInteger u =>
      simp only [Header.int?, hval] at ht
      by_cases hkey : Hdr.requestType.text = h.key
      · rw [if_pos hkey] at ht
        simp only [hkey, if_true]
        exact congrArg Except.ok (Option.some.inj ht)
      · rw [if_neg hkey] at ht
        exact absurd ht (by simp)
  | _ => simp [Header.int?, hval] at ht

end RpcBroker
