import RpcBroker.Model.Buffers
/-!
# RpcBroker.Proofs.Copies

**What the decoders copy, place by place.** Each place computes its size, the index
of its terminator and the length it copies in its own way, so each has its own
lemma: `copyString_whole` is the rule for a buffer with room for the terminator, and
`stray_store_length` for one whose terminator is stored at its length.

A length is a 32-bit number that goes through an `int` in most places. The copies
with room for the terminator fit exactly as long as the `int` takes what is computed
from it (`operation_holds_iff`, `paramStr_holds_iff`, `regService_holds_iff`).
-/

namespace RpcBroker.Buffers

open CLib CMemory Msgpack

/-! ### Copies of strings -/

theorem toNat_strSize {bytes : List UInt8} (h : bytes.length < 0x100000000) :
    (strSize bytes).toNat = bytes.length := UInt32.toNat_ofNat_of_lt' h

/-- A buffer not longer than a length has no room for a terminator at it. -/
theorem stray_store_length {b : Block} {size : UInt32} {c : UInt8} (h : b.room ≤ size.toNat) :
    (b.store (intOfSize size).toInt c).stray = true := by
  refine eq_true_of_ne_false fun hstray => ?_
  obtain ⟨-, hnonneg, hroom⟩ := Block.stray_store.mp hstray
  have hint := toInt_intOfSize size
  have hlt : size.toNat < 0x100000000 := size.toNat_lt
  split at hint <;> omega

/-- A write outside is not made good by what is copied afterwards. -/
theorem stray_strncpy_of_stray {b : Block} {src : List Cell} {n : Nat} (h : b.stray = true) :
    (b.strncpy src n).stray = true := by
  refine eq_true_of_ne_false fun hstray => ?_
  exact absurd (Block.stray_strncpy.mp hstray).1 (by simp [h])

/-- A length below 2³¹ is itself as an `int`, and as a `size_t` made of one. -/
theorem toInt_strSize {bytes : List UInt8} (h : bytes.length < 0x80000000) :
    (intOfSize (strSize bytes)).toInt = bytes.length := by
  rw [toInt_intOfSize, toNat_strSize (by omega), if_pos h]

theorem toNat_word_strSize {bytes : List UInt8} (h : bytes.length < 0x80000000) :
    (wordOfInt (intOfSize (strSize bytes))).toNat = bytes.length := by
  rw [toNat_wordOfInt_intOfSize, toNat_strSize (by omega), if_pos h]

/-- `copyString` into a buffer with one byte more than the string. -/
theorem copyString_whole {bytes : List UInt8} (h : bytes.length < 0x80000000) :
    (copyString (intOfSize (strSize bytes)) bytes (.fresh (bytes.length + 1))).Holds bytes := by
  rw [copyString, toNat_word_strSize h, toInt_strSize h]
  exact Block.copied_whole bytes

/-- `copyString` into a buffer not longer than the string. -/
theorem stray_copyString_short {size : UInt32} {src : List UInt8} {b : Block}
    (h : b.room ≤ size.toNat) : (copyString (intOfSize size) src b).stray = true := by
  refine stray_strncpy_of_stray (stray_store_length ?_)
  rwa [Block.room_memset]

/-- `copyString` with a length that is negative as an `int`. -/
theorem stray_copyString_negative {size : UInt32} {src : List UInt8} {b : Block}
    (h : 0x80000000 ≤ size.toNat) : (copyString (intOfSize size) src b).stray = true := by
  refine stray_strncpy_of_stray (eq_true_of_ne_false fun hstray => ?_)
  obtain ⟨-, hnonneg, -⟩ := Block.stray_store.mp hstray
  have hint := toInt_intOfSize size
  have hlt : size.toNat < 0x100000000 := size.toNat_lt
  rw [if_neg (by omega)] at hint
  omega

/-! ### One place after the other -/

/-- `key_name` is terminated behind its end, whatever the key is. -/
theorem keyName_stray (key : List UInt8) : (keyName key).stray = true := by
  refine stray_store_length ?_
  have hint := toInt_intOfSize (strSize key + 1)
  rw [Block.room_strncpy, Block.room_fresh, Int32.toNatClampNeg]
  split at hint <;> omega

/-- The characters of `key_name` are copied to it before that. -/
theorem keyName_cells {key : List UInt8} (h : key.length ≤ maxHeaderNameSize) :
    (keyName key).cells = Block.padded (key.map some) key.length ++ [none] := by
  have hshort : key.length ≤ 20 := h
  have hsize : (strSize key).toNat = key.length := toNat_strSize (by omega)
  have hnext : (strSize key + 1).toNat = key.length + 1 := by
    rw [UInt32.toNat_add, hsize]
    show (key.length + 1) % 4294967296 = _
    omega
  have hindex : (intOfSize (strSize key + 1)).toInt = (key.length + 1 : Nat) := by
    rw [toInt_intOfSize, hnext, if_pos (by omega)]
  have hclamp : (intOfSize (strSize key + 1)).toNatClampNeg = key.length + 1 := by
    rw [Int32.toNatClampNeg, hindex]
    rfl
  rw [keyName, Block.cells_store_outside, hclamp, hsize, Block.strncpy, Block.cells_put,
    Block.length_padded, Block.fresh, List.drop_replicate, Nat.add_sub_cancel_left]
  · rfl
  · rw [Block.length_padded, Block.room_fresh]
    exact Nat.le_succ _
  · rw [hindex, hclamp, Block.room_strncpy, Block.room_fresh]
    omega

/-- The caller's `header_name` takes every name the protocol allows. -/
theorem copyName_whole {key : List UInt8} (h : key.length < maxHeaderNameSize) :
    (copyName freshHeaderName key).Holds key := by
  have hshort : key.length < 20 := h
  have hsize : (strSize key).toNat = key.length := toNat_strSize (by omega)
  have hroom : freshHeaderName.room = maxHeaderNameSize := by
    rw [freshHeaderName, Block.room_memset, Block.room_fresh]
  have hfresh : freshHeaderName.cells = List.replicate maxHeaderNameSize (some 0) := rfl
  have hcells : (copyName freshHeaderName key).cells =
      Block.padded (key.map some) key.length ++
        some 0 :: List.replicate (maxHeaderNameSize - key.length - 1) (some 0) := by
    rw [copyName, hsize, keyName_cells h.le, Block.strncpy, Block.padded_padded, Block.cells_put,
      Block.length_padded, hfresh, List.drop_replicate, ← List.replicate_succ, Nat.sub_add_cancel]
    · omega
    · rw [Block.length_padded, hroom]
      exact h.le
  refine ⟨Block.stray_strncpy.mpr ⟨rfl, ?_⟩, Block.string?_copied hcells⟩
  rw [hsize, hroom]
  exact h.le

/-- An allocation of a string's length, asked for by way of an `int`. -/
theorem room_malloc_length (size : UInt32) :
    (pointee (malloc (wordOfInt (intOfSize size)))).room ≤ size.toNat := by
  have hword := toNat_wordOfInt_intOfSize size
  by_cases hsmall : size.toNat < 0x80000000
  · rw [if_pos hsmall] at hword
    exact (room_pointee_malloc_le _).trans hword.le
  · rw [if_neg hsmall] at hword
    rw [malloc_of_ge (by omega)]
    exact Nat.zero_le _

/-- A string header of a registration gets a buffer of its length, which leaves no
room for the terminator. -/
theorem regStr_stray (bytes : List UInt8) : (regStr bytes).stray = true :=
  stray_copyString_short (room_malloc_length _)

/-- The terminator lands right behind the buffer, so the memory from its start on reads
as the string. -/
theorem regStr_readsBehind {bytes : List UInt8} (h : bytes.length < 0x80000000) (cs : List Cell)
    (stray : Bool) :
    (⟨(regStr bytes).cells ++ some 0 :: cs, stray⟩ : Block).string? = some (.ofBytes bytes) := by
  have hword := toNat_word_strSize h
  have hcells : (regStr bytes).cells = Block.padded (bytes.map some) bytes.length := by
    rw [regStr, copyString, malloc_of_lt (by omega), hword, toInt_strSize h, Block.strncpy, Block.cells_put,
      Block.cells_store_outside, Block.memset, Block.cells_put, Block.length_padded, pointee,
      Block.fresh]
    · simp
    · simp [pointee]
    · simp [pointee]
    · simp [pointee]
  rw [hcells]
  exact Block.string?_copied rfl

/-- `get_hdr_str` makes the same copy. -/
theorem hdrStr_stray (bytes : List UInt8) : (hdrStr bytes).stray = true := regStr_stray bytes

/-- `get_op_name` asks for one byte more, and terminates one byte further. -/
theorem opName_stray (bytes : List UInt8) : (opName bytes).stray = true := by
  have hnext : intOfSize (strSize bytes) + 1 = intOfSize (strSize bytes + 1) :=
    (UInt32.toInt32_add _ _).symm
  rw [opName, hnext]
  refine stray_strncpy_of_stray (stray_store_length ?_)
  rw [Block.room_memset]
  exact (room_pointee_malloc_le _).trans (UInt32.toNat_toUInt64 _).le

/-- An integer parameter is eight bytes, its buffer four. -/
theorem paramInt_stray (u : UInt64) : (paramInt u).stray = true := by
  refine eq_true_of_ne_false fun hstray => ?_
  have hfits := (Block.stray_put.mp hstray).2
  exact absurd hfits (by simp [int64Cells, pointee, malloc])

/-- The operation's buffer takes it if its length is no negative `int`. -/
theorem operation_holds_iff {bytes : List UInt8} (h : bytes.length < 0x100000000) :
    (operation bytes).Holds bytes ↔ bytes.length < 0x80000000 := by
  have hsize : (strSize bytes).toNat = bytes.length := toNat_strSize h
  constructor
  · intro hholds
    by_contra hlong
    have hneg : (operation bytes).stray = true :=
      stray_copyString_negative (hsize.symm ▸ Nat.not_lt.mp hlong)
    exact Block.not_holds_of_stray hneg hholds
  · intro hsmall
    have hbytes : ((strSize bytes).toUInt64 + 1).toNat = bytes.length + 1 := by
      rw [UInt64.toNat_add, UInt32.toNat_toUInt64, hsize]
      show (bytes.length + 1) % 18446744073709551616 = _
      omega
    rw [operation, malloc_of_lt (by omega), hbytes]
    exact copyString_whole hsmall

/-- A string parameter's buffer takes it if its length and one more is no negative
`int`. -/
theorem paramStr_holds_iff {bytes : List UInt8} (h : bytes.length < 0x100000000) :
    (paramStr bytes).Holds bytes ↔ bytes.length + 1 < 0x80000000 := by
  have hsize : (strSize bytes).toNat = bytes.length := toNat_strSize h
  have hnext : (strSize bytes + 1).toNat = (bytes.length + 1) % 0x100000000 := by
    rw [UInt32.toNat_add, hsize]
    rfl
  have hword := toNat_wordOfInt_intOfSize (strSize bytes + 1)
  constructor
  · intro hholds
    by_contra hlong
    have hshort : (paramStr bytes).stray = true := by
      by_cases hneg : 0x80000000 ≤ bytes.length
      · exact stray_copyString_negative (hsize.symm ▸ hneg)
      · -- The length is `INT_MAX`: `malloc` is asked for `INT_MIN` bytes and fails.
        rw [if_neg (by omega)] at hword
        refine stray_copyString_short ?_
        rw [malloc_of_ge (by omega)]
        exact Nat.zero_le _
    exact Block.not_holds_of_stray hshort hholds
  · intro hsmall
    rw [if_pos (by omega), hnext, Nat.mod_eq_of_lt (by omega)] at hword
    rw [paramStr, malloc_of_lt (by omega), hword]
    exact copyString_whole (by omega)

/-- Is an element of the array one `malloc` fails for? -/
def refused (bytes : List UInt8) : Bool :=
  decide (0x80000000 ≤ bytes.length ∧ bytes.length ≠ 0xFFFFFFFF)

/-- The size `malloc` is asked for wraps to 0 where the length is -1 as an `int`. -/
theorem toNat_regService_size {bytes : List UInt8} (h : bytes.length < 0x100000000) :
    (wordOfInt (intOfSize (strSize bytes)) + 1).toNat =
      if bytes.length < 0x80000000 then bytes.length + 1
      else (bytes.length + 0xFFFFFFFF00000001) % 0x10000000000000000 := by
  have hword := toNat_wordOfInt_intOfSize (strSize bytes)
  rw [toNat_strSize h] at hword
  rw [UInt64.toNat_add, hword]
  show (_ + 1) % 0x10000000000000000 = _
  split <;> omega

theorem regService_eq_none_iff {bytes : List UInt8} (h : bytes.length < 0x100000000) :
    regService bytes = none ↔ refused bytes = true := by
  have hsize := toNat_regService_size h
  rw [regService, Option.map_eq_none_iff, refused, decide_eq_true_eq]
  constructor
  · intro hnone
    by_contra hallowed
    rw [malloc_of_lt] at hnone
    · exact absurd hnone (by simp)
    · split at hsize <;> omega
  · rintro ⟨hlong, hlast⟩
    refine malloc_of_ge ?_
    rw [if_neg (by omega)] at hsize
    omega

/-- An element that is not refused fits, unless its length is -1 as an `int`. -/
theorem regService_holds_iff {bytes : List UInt8} {b : Block} (h : bytes.length < 0x100000000)
    (hb : regService bytes = some b) : b.Holds bytes ↔ bytes.length ≠ 0xFFFFFFFF := by
  have hsize := toNat_regService_size h
  obtain ⟨room, hroom, rfl⟩ := Option.map_eq_some_iff.mp hb
  constructor
  · intro hholds hlast
    have hneg : (copyString (intOfSize (strSize bytes)) bytes room).stray = true := by
      refine stray_copyString_negative ?_
      rw [toNat_strSize h]
      omega
    exact Block.not_holds_of_stray hneg hholds
  · intro hlast
    have hallowed : refused bytes ≠ true := fun hrefused =>
      absurd ((regService_eq_none_iff h).mpr hrefused) (by simp [hb])
    have hsmall : bytes.length < 0x80000000 := by
      rw [refused, ne_eq, decide_eq_true_eq] at hallowed
      omega
    rw [if_pos hsmall] at hsize
    rw [malloc_of_lt (by omega), hsize] at hroom
    obtain rfl := Option.some.inj hroom
    exact copyString_whole hsmall

end RpcBroker.Buffers
