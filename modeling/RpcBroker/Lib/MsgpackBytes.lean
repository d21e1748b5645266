import Mathlib.Data.Nat.Cast.Order.Basic
import RpcBroker.Lib.BigEndian
import RpcBroker.Lib.Msgpack
import RpcBroker.Lib.Reader
/-!
# RpcBroker.Lib.MsgpackBytes

**MessagePack at the level of bytes.** Where a result depends on the place a
message is cut, the buffers of the codec are byte strings. `ByteCodec` says what a
program can rely on then: the packer appends, the reader finds what was packed
whatever comes behind it, and an object that is not complete at the end is no
object and no error.

`ByteCodec.messagePack` is the format for lengths below `0xffffffff`. An item is a tag
byte and fields of fixed width behind it (`format`), so the reader is put together from
the readers of `RpcBroker.Lib.Reader`, and lawful for that reason. Lengths from there on
are continued behind the widest field in unary. That is not the format, which has no bytes
for a length of `2 ^ 32` and more: the laws then hold without a bound.
-/

namespace Msgpack

open CLib Bytes Reader

/-! ### What a program relies on -/

/-- A codec whose buffers are byte strings. -/
structure ByteCodec where
  unpack : List UInt8 → Unpacked
  pack : List Token → List UInt8
  viaStr : Object → List UInt8
  viaStr_str : ∀ bytes, viaStr (.str bytes) = bytes
  /-- The reader decodes what the packer packed. -/
  unpack_pack : ∀ {ts : List Token} {os : List Object},
    parse ts = some os → unpack (pack ts) = ⟨os, .«continue»⟩
  /-- The packer appends to its buffer. -/
  pack_append : ∀ ts us, pack (ts ++ us) = pack ts ++ pack us
  /-- Packed objects are read, and then what is behind them. -/
  unpack_append : ∀ {ts : List Token} {os : List Object} (rest : List UInt8),
    parse ts = some os → unpack (pack ts ++ rest) = ⟨os ++ (unpack rest).objects, (unpack rest).status⟩
  /-- The end of the input, or of an object before it is complete. -/
  unpack_cut : ∀ {ts : List Token} {o : Object} {bytes missing : List UInt8},
    parse ts = some [o] → bytes ++ missing = pack ts → missing ≠ [] →
    unpack bytes = ⟨[], .«continue»⟩

/-- The codec it is, apart from the bytes. -/
def ByteCodec.toCodec (C : ByteCodec) : Codec where
  Buffer := List UInt8
  unpack := C.unpack
  pack := C.pack
  viaStr := C.viaStr
  unpack_pack := C.unpack_pack
  viaStr_str := C.viaStr_str

variable {C : ByteCodec}

/-- **Cut short**, packed objects still give those that are complete. -/
theorem ByteCodec.unpack_take {tss : List (List Token)} {os : List Object}
    (h : List.Forall₂ (fun ts o => parse ts = some [o]) tss os) {bytes missing : List UInt8}
    (hcut : bytes ++ missing = C.pack tss.flatten) (hne : missing ≠ []) :
    ∃ n, C.unpack bytes = ⟨os.take n, .«continue»⟩ := by
  induction h generalizing bytes with
  | nil =>
      have hnil : C.pack [] = [] := by simpa using C.pack_append [] []
      rw [List.flatten_nil, hnil] at hcut
      exact absurd (List.append_eq_nil_iff.mp hcut).2 hne
  | @cons ts o tss os hts _ ih =>
      rw [List.flatten_cons, C.pack_append] at hcut
      rcases List.append_eq_append_iff.mp hcut with ⟨c, hc, hc'⟩ | ⟨c, rfl, hc⟩
      · cases c with
        | nil =>
            -- The cut is behind the first object: all others are missing.
            rw [List.append_nil] at hc
            rw [List.nil_append] at hc'
            have hrest : [] ++ missing = C.pack tss.flatten := hc'
            obtain ⟨n, hn⟩ := ih hrest
            refine ⟨n + 1, ?_⟩
            have hread := C.unpack_append [] hts
            rw [List.append_nil] at hread
            rw [← hc, hread, hn, List.take_succ_cons]
            rfl
        | cons b c => exact ⟨0, C.unpack_cut hts hc.symm (by simp)⟩
      · obtain ⟨n, hn⟩ := ih hc.symm
        refine ⟨n + 1, ?_⟩
        rw [C.unpack_append _ hts, hn, List.take_succ_cons]
        rfl

/-! ### Tags -/

/-- Where a length stands: in the tag, or in a field behind it. -/
inductive Size
  | imm (n : Nat)
  | field (width : Nat)
  /-- Four bytes, and what does not fit them. -/
  | long

/-- What a tag byte announces. -/
inductive Format
  | object (o : Object)
  | number (width : Nat) (make : Nat → Object)
  /-- A body of some length and `extra` bytes. -/
  | blob (size : Size) (extra : Nat) (make : List UInt8 → Object)
  | array (size : Size)
  | map (size : Size)
  | unused

def unsigned (v : Nat) : Object := .positiveInteger (UInt64.ofNat v)

/-- A number in two's complement below `bound`; the reader tags it by its sign. -/
def signed (bound v : Nat) : Object :=
  if 2 * v < bound then unsigned v else .negativeInteger (Int64.ofInt (v - bound))

def extension : List UInt8 → Object
  | [] => .ext 0 []
  | type :: bytes => .ext type bytes

/-- The tags that are no short form. -/
def longFormat : Nat → Format
  | 0xc0 => .object .nil
  | 0xc2 => .object (.boolean false)
  | 0xc3 => .object (.boolean true)
  | 0xc4 => .blob (.field 1) 0 .bin
  | 0xc5 => .blob (.field 2) 0 .bin
  | 0xc6 => .blob .long 0 .bin
  | 0xc7 => .blob (.field 1) 1 extension
  | 0xc8 => .blob (.field 2) 1 extension
  | 0xc9 => .blob .long 1 extension
  | 0xca => .number 4 fun v => .float (UInt64.ofNat v)
  | 0xcb => .number 8 fun v => .float (UInt64.ofNat v)
  | 0xcc => .number 1 unsigned
  | 0xcd => .number 2 unsigned
  | 0xce => .number 4 unsigned
  | 0xcf => .number 8 unsigned
  | 0xd0 => .number 1 (signed 0x100)
  | 0xd1 => .number 2 (signed 0x10000)
  | 0xd2 => .number 4 (signed 0x100000000)
  | 0xd3 => .number 8 (signed 0x10000000000000000)
  | 0xd4 => .blob (.imm 1) 1 extension
  | 0xd5 => .blob (.imm 2) 1 extension
  | 0xd6 => .blob (.imm 4) 1 extension
  | 0xd7 => .blob (.imm 8) 1 extension
  | 0xd8 => .blob (.imm 16) 1 extension
  | 0xd9 => .blob (.field 1) 0 .str
  | 0xda => .blob (.field 2) 0 .str
  | 0xdb => .blob .long 0 .str
  | 0xdc => .array (.field 2)
  | 0xdd => .array .long
  | 0xde => .map (.field 2)
  | 0xdf => .map .long
  | _ => .unused

/-- The tags, by ranges. -/
def format (tag : UInt8) : Format :=
  if tag.toNat < 0x80 then .object (unsigned tag.toNat)
  else if tag.toNat < 0x90 then .map (.imm (tag.toNat - 0x80))
  else if tag.toNat < 0xa0 then .array (.imm (tag.toNat - 0x90))
  else if tag.toNat < 0xc0 then .blob (.imm (tag.toNat - 0xa0)) 0 .str
  else if tag.toNat < 0xe0 then longFormat tag.toNat
  else .object (signed 0x100 tag.toNat)

/-! ### Reading -/

def readNumber (width : Nat) : Reader Nat := (take width).bind fun bytes => pure (ofBE bytes)

/-- A number in unary, closed by any byte but 1. -/
def readUnary : Reader Nat
  | [] => .incomplete
  | b :: rest =>
      if b = 1 then
        match readUnary rest with
        | .done n rest => .done (n + 1) rest
        | .incomplete => .incomplete
        | .invalid => .invalid
      else .done 0 rest

def Size.read : Size → Reader Nat
  | .imm n => pure n
  | .field width => readNumber width
  | .long => (readNumber 4).bind fun n =>
      if n < 0xffffffff then pure n else bind readUnary fun more => pure (n + more)

def Format.read : Format → Reader Item
  | .object o => pure (.object o)
  | .number width make => (readNumber width).bind fun v => pure (.object (make v))
  | .blob size extra make => size.read.bind fun n =>
      (take (n + extra)).bind fun bytes => pure (.object (make bytes))
  | .array size => size.read.bind fun n => pure (.array n)
  | .map size => size.read.bind fun n => pure (.map n)
  | .unused => fail

/-- An item: a tag, and what it announces. -/
def readItem : Reader Item := byte.bind fun tag => (format tag).read

theorem lawful_readNumber (width : Nat) : Lawful (readNumber width) :=
  (Lawful.take width).bind fun _ => .pure _

theorem lawful_readUnary : Lawful readUnary where
  done_append {bytes n rest} more h := by
    induction bytes generalizing n with
    | nil => cases h
    | cons b bytes ih =>
        rw [List.cons_append]
        unfold readUnary at h ⊢
        split at h
        next hb =>
            rw [if_pos hb]
            cases hread : readUnary bytes with
            | done m mid =>
                rw [hread] at h
                cases h
                rw [ih hread]
            | incomplete => rw [hread] at h; cases h
            | invalid => rw [hread] at h; cases h
        next hb =>
            rw [if_neg hb]
            cases h
            rfl
  invalid_append {bytes} more h := by
    induction bytes with
    | nil => cases h
    | cons b bytes ih =>
        rw [List.cons_append]
        unfold readUnary at h ⊢
        split at h
        next hb =>
            rw [if_pos hb]
            cases hread : readUnary bytes with
            | done m mid => rw [hread] at h; cases h
            | incomplete => rw [hread] at h; cases h
            | invalid => rw [ih hread]
        next hb => cases h
  length_le {bytes n rest} h := by
    induction bytes generalizing n with
    | nil => cases h
    | cons b bytes ih =>
        unfold readUnary at h
        split at h
        next hb =>
            cases hread : readUnary bytes with
            | done m mid =>
                rw [hread] at h
                cases h
                exact Nat.le_succ_of_le (ih hread)
            | incomplete => rw [hread] at h; cases h
            | invalid => rw [hread] at h; cases h
        next hb =>
            cases h
            exact Nat.le_succ _

theorem Size.lawful_read (size : Size) : Lawful size.read := by
  cases size with
  | imm n => exact .pure n
  | field width => exact lawful_readNumber width
  | long =>
      refine (lawful_readNumber 4).bind fun n => ?_
      split
      · exact .pure n
      · exact lawful_readUnary.bind fun _ => .pure _

theorem Format.lawful_read (f : Format) : Lawful f.read := by
  cases f with
  | object o => exact .pure _
  | number width make => exact (lawful_readNumber width).bind fun _ => .pure _
  | blob size extra make =>
      exact size.lawful_read.bind fun n => (Lawful.take _).bind fun _ => .pure _
  | array size => exact size.lawful_read.bind fun _ => .pure _
  | map size => exact size.lawful_read.bind fun _ => .pure _
  | unused => exact .fail

theorem lawful_readItem : Lawful readItem := Lawful.byte.bind fun tag => (format tag).lawful_read

/-- An item takes at least its tag. -/
theorem progress_readItem : Progress readItem := by
  intro bytes it rest h
  cases bytes with
  | nil => cases h
  | cons tag bytes => exact Nat.lt_succ_of_le ((format tag).lawful_read.length_le h)

/-! ### Writing -/

/-- A length in four bytes, and what does not fit them. -/
def packLong (n : Nat) : List UInt8 :=
  if n < 0xffffffff then toBE 4 n
  else toBE 4 0xffffffff ++ (List.replicate (n - 0xffffffff) 1 ++ [0])

/-- The header of a string: the shortest that holds the length. -/
def packStrHeader (n : Nat) : List UInt8 :=
  if n < 32 then [UInt8.ofNat (0xa0 + n)]
  else if n < 0x100 then 0xd9 :: toBE 1 n
  else if n < 0x10000 then 0xda :: toBE 2 n
  else 0xdb :: packLong n

def packArrayHeader (n : Nat) : List UInt8 :=
  if n < 16 then [UInt8.ofNat (0x90 + n)]
  else if n < 0x10000 then 0xdc :: toBE 2 n
  else 0xdd :: packLong n

def packMapHeader (n : Nat) : List UInt8 :=
  if n < 16 then [UInt8.ofNat (0x80 + n)]
  else if n < 0x10000 then 0xde :: toBE 2 n
  else 0xdf :: packLong n

/-- An `int`: the shortest form that holds it. -/
def packInt (n : Int) : List UInt8 :=
  if n < 0 then
    if -0x20 ≤ n then [UInt8.ofNat (n + 0x100).toNat]
    else if -0x80 ≤ n then 0xd0 :: toBE 1 (n + 0x100).toNat
    else if -0x8000 ≤ n then 0xd1 :: toBE 2 (n + 0x10000).toNat
    else 0xd2 :: toBE 4 (n + 0x100000000).toNat
  else
    if n < 0x80 then [UInt8.ofNat n.toNat]
    else if n < 0x100 then 0xcc :: toBE 1 n.toNat
    else if n < 0x10000 then 0xcd :: toBE 2 n.toNat
    else 0xce :: toBE 4 n.toNat

def packToken : Token → List UInt8
  | .packMap n => packMapHeader n
  | .packArray n => packArrayHeader n
  | .packStr n => packStrHeader n
  | .packStrBody bytes => bytes
  | .packInt i => packInt i.toInt

/-- The packer appends what its calls write. -/
def packBytes (ts : List Token) : List UInt8 := ts.flatMap packToken

theorem reads_number {width n : Nat} (bound : Nat) (hbound : 256 ^ width = bound) (h : n < bound) :
    Reads (readNumber width) (toBE width n) n := by
  have htake := Reads.take (toBE width n)
  rw [length_toBE] at htake
  have hread := htake.bind (f := fun bytes => pure (ofBE bytes)) (.pure _)
  rwa [List.append_nil, ofBE_toBE (hbound ▸ h)] at hread

theorem reads_unary (n : Nat) : Reads readUnary (List.replicate n 1 ++ [0]) n := by
  intro rest
  induction n with
  | zero => rfl
  | succ n ih =>
      rw [List.replicate_succ, List.cons_append, List.cons_append, readUnary, if_pos rfl, ih]

theorem reads_long (n : Nat) : Reads Size.long.read (packLong n) n := by
  show Reads ((readNumber 4).bind fun n =>
    if n < 0xffffffff then pure n else bind readUnary fun more => pure (n + more)) (packLong n) n
  have hfield : ∀ m, m < 0x100000000 → Reads (readNumber 4) (toBE 4 m) m :=
    fun m hm => reads_number 0x100000000 rfl hm
  unfold packLong
  by_cases h : n < 0xffffffff
  · rw [if_pos h]
    have hshort : Reads (if n < 0xffffffff then pure n
        else bind readUnary fun more => pure (n + more)) [] n := by
      rw [if_pos h]
      exact .pure n
    have hread := (hfield n (by omega)).bind
      (f := fun n => if n < 0xffffffff then pure n else bind readUnary fun more => pure (n + more))
      hshort
    rwa [List.append_nil] at hread
  · rw [if_neg h]
    have hmore := (reads_unary (n - 0xffffffff)).bind (f := fun more => pure (0xffffffff + more))
      (.pure _)
    rw [List.append_nil, show 0xffffffff + (n - 0xffffffff) = n by omega] at hmore
    exact (hfield 0xffffffff (by decide)).bind
      (f := fun n => if n < 0xffffffff then pure n else bind readUnary fun more => pure (n + more))
      (by rw [if_neg (by decide)]; exact hmore)

/-- A tag, and what it announces. -/
theorem reads_tag {tag : UInt8} {f : Format} {bytes : List UInt8} {it : Item}
    (hformat : format tag = f) (h : Reads f.read bytes it) : Reads readItem (tag :: bytes) it :=
  (Reads.byte tag).bind (by rw [hformat]; exact h)

/-- The tag of a short form is the number it was made from. -/
theorem toNat_tag {base n : Nat} (h : base + n < 0x100) : (UInt8.ofNat (base + n)).toNat = base + n := by
  rw [UInt8.toNat_ofNat']
  omega

/-! ### What is written is read -/

/-- What is in the tag itself. -/
theorem reads_tag_object {tag : UInt8} {o : Object} (hformat : format tag = .object o) :
    Reads readItem [tag] (.object o) := reads_tag hformat (.pure _)

/-- A number behind its tag. -/
theorem reads_tag_number {tag : UInt8} {width n : Nat} {make : Nat → Object} (bound : Nat)
    (hformat : format tag = .number width make) (hbound : 256 ^ width = bound) (h : n < bound) :
    Reads readItem (tag :: toBE width n) (.object (make n)) := by
  refine reads_tag hformat ?_
  have hread := (reads_number bound hbound h).bind (f := fun v => pure (Item.object (make v))) (.pure _)
  rwa [List.append_nil] at hread

/-- A string's body behind its length. -/
theorem reads_strBody {size : Size} {header bytes : List UInt8}
    (h : Reads size.read header bytes.length) :
    Reads (Format.read (.blob size 0 .str)) (header ++ bytes) (.object (.str bytes)) := by
  have hbody := (Reads.take bytes).bind (f := fun bytes => pure (Item.object (.str bytes))) (.pure _)
  rw [List.append_nil] at hbody
  exact h.bind hbody

theorem reads_str (bytes : List UInt8) :
    Reads readItem (packStrHeader bytes.length ++ bytes) (.object (.str bytes)) := by
  unfold packStrHeader
  by_cases htag : bytes.length < 32
  · rw [if_pos htag]
    refine reads_tag (f := .blob (.imm bytes.length) 0 .str) ?_ (reads_strBody (.pure _))
    have hnat : (UInt8.ofNat (0xa0 + bytes.length)).toNat = 0xa0 + bytes.length :=
      toNat_tag (by omega)
    rw [format, hnat, if_neg (by omega), if_neg (by omega), if_neg (by omega), if_pos (by omega),
      Nat.add_sub_cancel_left]
  rw [if_neg htag]
  by_cases hbyte : bytes.length < 0x100
  · rw [if_pos hbyte]
    exact reads_tag (f := .blob (.field 1) 0 .str) rfl (reads_strBody (reads_number 0x100 rfl hbyte))
  rw [if_neg hbyte]
  by_cases hword : bytes.length < 0x10000
  · rw [if_pos hword]
    exact reads_tag (f := .blob (.field 2) 0 .str) rfl (reads_strBody (reads_number 0x10000 rfl hword))
  rw [if_neg hword]
  exact reads_tag (f := .blob .long 0 .str) rfl (reads_strBody (reads_long _))

theorem reads_arrayLength {size : Size} {bytes : List UInt8} {n : Nat}
    (h : Reads size.read bytes n) : Reads (Format.read (.array size)) bytes (.array n) := by
  have hread := h.bind (f := fun n => pure (Item.array n)) (.pure _)
  rwa [List.append_nil] at hread

theorem reads_array (n : Nat) : Reads readItem (packArrayHeader n) (.array n) := by
  unfold packArrayHeader
  by_cases htag : n < 16
  · rw [if_pos htag]
    refine reads_tag (f := .array (.imm n)) ?_ (reads_arrayLength (.pure _))
    have hnat : (UInt8.ofNat (0x90 + n)).toNat = 0x90 + n := toNat_tag (by omega)
    rw [format, hnat, if_neg (by omega), if_neg (by omega), if_pos (by omega),
      Nat.add_sub_cancel_left]
  rw [if_neg htag]
  by_cases hword : n < 0x10000
  · rw [if_pos hword]
    exact reads_tag (f := .array (.field 2)) rfl (reads_arrayLength (reads_number 0x10000 rfl hword))
  rw [if_neg hword]
  exact reads_tag (f := .array .long) rfl (reads_arrayLength (reads_long n))

theorem reads_mapLength {size : Size} {bytes : List UInt8} {n : Nat}
    (h : Reads size.read bytes n) : Reads (Format.read (.map size)) bytes (.map n) := by
  have hread := h.bind (f := fun n => pure (Item.map n)) (.pure _)
  rwa [List.append_nil] at hread

theorem reads_map (n : Nat) : Reads readItem (packMapHeader n) (.map n) := by
  unfold packMapHeader
  by_cases htag : n < 16
  · rw [if_pos htag]
    refine reads_tag (f := .map (.imm n)) ?_ (reads_mapLength (.pure _))
    have hnat : (UInt8.ofNat (0x80 + n)).toNat = 0x80 + n := toNat_tag (by omega)
    rw [format, hnat, if_neg (by omega), if_pos (by omega), Nat.add_sub_cancel_left]
  rw [if_neg htag]
  by_cases hword : n < 0x10000
  · rw [if_pos hword]
    exact reads_tag (f := .map (.field 2)) rfl (reads_mapLength (reads_number 0x10000 rfl hword))
  rw [if_neg hword]
  exact reads_tag (f := .map .long) rfl (reads_mapLength (reads_long n))

/-- A negative number comes back from its two's complement. -/
theorem signed_neg (bound : Nat) {n : Int} (h : -bound ≤ 2 * n) :
    signed bound (n + bound).toNat = .negativeInteger (Int64.ofInt n) := by
  have hcast : (((n + bound).toNat : Nat) : Int) = n + bound := Int.toNat_of_nonneg (by omega)
  rw [signed, if_neg (by omega), hcast, Int.add_sub_cancel]

/-- The object of an `int`, as the number it is. -/
theorem ofInt_eq (i : Int32) :
    Object.ofInt i =
      if i.toInt < 0 then .negativeInteger (Int64.ofInt i.toInt) else unsigned i.toInt.toNat := by
  by_cases h : 0 ≤ i
  · have hnonneg : 0 ≤ i.toInt := Int32.le_iff_toInt_le.mp h
    have hword : UInt64.ofNat i.toInt.toNat = wordOfInt i := by
      rw [← UInt64.toNat_inj, toNat_wordOfInt h, UInt64.toNat_ofNat']
      have hlt := i.toInt_lt
      rw [Nat.mod_eq_of_lt (by omega)]
      rfl
    rw [Object.ofInt_nonneg h, if_neg (by omega), unsigned, hword]
  · have hneg : i.toInt < 0 := by
      rw [Int32.le_iff_toInt_le, show (0 : Int32).toInt = 0 from rfl] at h
      omega
    rw [Object.ofInt_neg h, if_pos hneg, ← Int32.toInt_toInt64, Int64.ofInt_toInt]

theorem reads_int (i : Int32) : Reads readItem (packInt i.toInt) (.object (.ofInt i)) := by
  have hlo := i.le_toInt
  have hhi := i.toInt_lt
  rw [ofInt_eq]
  generalize i.toInt = n at hlo hhi
  unfold packInt
  by_cases hneg : n < 0
  · rw [if_pos hneg, if_pos hneg]
    by_cases htag : -0x20 ≤ n
    · rw [if_pos htag]
      refine reads_tag_object ?_
      have hnat : (UInt8.ofNat (n + 0x100).toNat).toNat = (n + 0x100).toNat := by
        rw [UInt8.toNat_ofNat']
        omega
      rw [format, hnat, if_neg (by omega), if_neg (by omega), if_neg (by omega), if_neg (by omega),
        if_neg (by omega)]
      exact congrArg Format.object (signed_neg 0x100 (by omega))
    rw [if_neg htag]
    by_cases hbyte : -0x80 ≤ n
    · rw [if_pos hbyte, ← signed_neg 0x100 (by omega)]
      exact reads_tag_number 0x100 rfl rfl (by omega)
    rw [if_neg hbyte]
    by_cases hword : -0x8000 ≤ n
    · rw [if_pos hword, ← signed_neg 0x10000 (by omega)]
      exact reads_tag_number 0x10000 rfl rfl (by omega)
    rw [if_neg hword, ← signed_neg 0x100000000 (by omega)]
    exact reads_tag_number 0x100000000 rfl rfl (by omega)
  · rw [if_neg hneg, if_neg hneg]
    by_cases htag : n < 0x80
    · rw [if_pos htag]
      refine reads_tag_object ?_
      have hnat : (UInt8.ofNat n.toNat).toNat = n.toNat := by
        rw [UInt8.toNat_ofNat']
        omega
      rw [format, hnat, if_pos (by omega)]
    rw [if_neg htag]
    by_cases hbyte : n < 0x100
    · rw [if_pos hbyte]
      exact reads_tag_number 0x100 rfl rfl (by omega)
    rw [if_neg hbyte]
    by_cases hword : n < 0x10000
    · rw [if_pos hword]
      exact reads_tag_number 0x10000 rfl rfl (by omega)
    rw [if_neg hword]
    exact reads_tag_number 0x100000000 rfl rfl (by omega)

/-- What the packer writes for an item is read as that item. -/
theorem reads_writes {ts : List Token} {it : Item} (h : Writes ts it) :
    Reads readItem (packBytes ts) it := by
  cases h with
  | int i => simpa [packBytes, packToken] using reads_int i
  | str bytes => simpa [packBytes, packToken] using reads_str bytes
  | array n => simpa [packBytes, packToken] using reads_array n
  | map n => simpa [packBytes, packToken] using reads_map n

/-- Packed items are chunks of bytes, each read as its item. -/
theorem chunks_writesAll {ts : List Token} {its : List Item} (h : WritesAll ts its) :
    ∃ chunks, packBytes ts = chunks.flatten ∧ List.Forall₂ (Reads readItem) chunks its := by
  induction h with
  | nil => exact ⟨[], rfl, .nil⟩
  | @cons ts us it its hit _ ih =>
      obtain ⟨chunks, hflat, hchunks⟩ := ih
      refine ⟨packBytes ts :: chunks, ?_, .cons (reads_writes hit) hchunks⟩
      rw [List.flatten_cons, ← hflat, packBytes, packBytes, packBytes, List.flatMap_append]

/-! ### The format as a codec -/

/-- Read items to the end of the bytes, and put them together. -/
def unpackBytes (bytes : List UInt8) : Unpacked where
  objects := (pushAll [] (all readItem bytes).1).2
  status := if (all readItem bytes).2 then .«continue» else .parseError

/-- Packed items are read, and then what is behind them. -/
theorem all_packBytes {ts : List Token} {its : List Item} (h : WritesAll ts its)
    (rest : List UInt8) :
    all readItem (packBytes ts ++ rest) =
      (its ++ (all readItem rest).1, (all readItem rest).2) := by
  obtain ⟨chunks, hflat, hchunks⟩ := chunks_writesAll h
  rw [hflat, all_flatten progress_readItem hchunks]

theorem unpackBytes_append {ts : List Token} {os : List Object} (rest : List UInt8)
    (h : parse ts = some os) :
    unpackBytes (packBytes ts ++ rest) =
      ⟨os ++ (unpackBytes rest).objects, (unpackBytes rest).status⟩ := by
  obtain ⟨its, hits, hpush⟩ := writesAll_of_run h
  rw [unpackBytes, all_packBytes hits, pushAll_append, hpush]
  rfl

theorem unpackBytes_pack {ts : List Token} {os : List Object} (h : parse ts = some os) :
    unpackBytes (packBytes ts) = ⟨os, .«continue»⟩ := by
  have hread := unpackBytes_append [] h
  rw [List.append_nil] at hread
  rw [hread]
  exact congrArg (fun os => Unpacked.mk os .«continue») (List.append_nil os)

/-- The beginning of an object is no object. -/
theorem unpackBytes_cut {ts : List Token} {o : Object} {bytes missing : List UInt8}
    (h : parse ts = some [o]) (hcut : bytes ++ missing = packBytes ts) (hne : missing ≠ []) :
    unpackBytes bytes = ⟨[], .«continue»⟩ := by
  obtain ⟨its, hits, hpush⟩ := writesAll_of_run h
  obtain ⟨chunks, hflat, hchunks⟩ := chunks_writesAll hits
  obtain ⟨first, last, rfl, hlast, hall⟩ :=
    all_cut lawful_readItem progress_readItem hchunks (hcut.trans hflat) hne
  -- The object is emitted by the last items, or these would have nothing to emit.
  rw [pushAll_append, Prod.mk.injEq] at hpush
  obtain ⟨hopen, hemit⟩ := hpush
  have hnothing : (pushAll [] first).2 = [] := by
    rcases List.append_eq_singleton_iff.mp hemit with ⟨h, -⟩ | ⟨-, h⟩
    · exact h
    · exact absurd (eq_nil_of_pushAll (Prod.ext hopen h)) hlast
  rw [unpackBytes, hall, hnothing]
  rfl

/-- **MessagePack.** -/
def ByteCodec.messagePack : ByteCodec where
  unpack := unpackBytes
  pack := packBytes
  viaStr := Codec.ofObjects.viaStr
  viaStr_str := Codec.ofObjects.viaStr_str
  unpack_pack := unpackBytes_pack
  pack_append _ _ := List.flatMap_append
  unpack_append := unpackBytes_append
  unpack_cut := unpackBytes_cut

end Msgpack
