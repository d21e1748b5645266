import RpcBroker.Lib.CValue
/-!
# RpcBroker.Lib.Memory

**Character buffers with checked bounds.** A `Block` is what an array of `char`
or a result of `malloc` amounts to: its cells, and whether some write made so far
fell outside them. A write that does is recorded and stores only what is inside,
so a program goes on and is judged at the end.

The writes are the ones string code is made of, `p[i] = c`, `memset` and
`strncpy`. `string?` reads a block back as a C program does, from its start to
the first NUL, and finds no string in one that has no NUL or holds a cell nobody
stored to before it. The rule copying code rests on is `string?_copied`; `stray`
has one equation for each write.

The length of a buffer read off the wire has 32 bits, an index is often an `int`
and a size a `size_t`. `toInt_intOfSize` and `toNat_wordOfInt_neg` are the
conversions among them.
-/

namespace CMemory

open CLib

/-! ### Lengths -/

/-- A 32-bit length assigned to an `int`. -/
def intOfSize (size : UInt32) : Int32 := size.toInt32

theorem toInt_intOfSize (size : UInt32) :
    (intOfSize size).toInt =
      if size.toNat < 0x80000000 then (size.toNat : Int) else (size.toNat : Int) - 0x100000000 := by
  have hsize : size.toNat < 0x100000000 := size.toNat_lt
  have hbits : (intOfSize size).toInt = (size.toNat : Int).bmod 0x100000000 :=
    BitVec.toInt_eq_toNat_bmod _
  rw [hbits, Int.bmod_def]
  split <;> split <;> omega

/-- A negative `int` is a huge `size_t`. -/
theorem toNat_wordOfInt_neg {i : Int32} (h : i < 0) :
    ((wordOfInt i).toNat : Int) = 0x10000000000000000 + i.toInt := by
  have hneg : i.toInt < 0 := Int32.lt_iff_toInt_lt.mp h
  have hlow : -0x80000000 ≤ i.toInt := Int32.le_toInt i
  have hword : (wordOfInt i).toInt64 = i.toInt64 := rfl
  have hbits : (wordOfInt i).toInt64.toInt = ((wordOfInt i).toNat : Int).bmod 0x10000000000000000 :=
    BitVec.toInt_eq_toNat_bmod _
  rw [hword, Int32.toInt_toInt64, Int.bmod_def] at hbits
  have hlt : (wordOfInt i).toNat < 0x10000000000000000 := (wordOfInt i).toNat_lt
  split at hbits <;> omega

/-- A length that went through an `int` is huge as a `size_t` from 2³¹ on. -/
theorem toNat_wordOfInt_intOfSize (size : UInt32) :
    (wordOfInt (intOfSize size)).toNat =
      if size.toNat < 0x80000000 then size.toNat else size.toNat + 0xFFFFFFFF00000000 := by
  have hint := toInt_intOfSize size
  have hlt : size.toNat < 0x100000000 := size.toNat_lt
  by_cases hsmall : size.toNat < 0x80000000
  · rw [if_pos hsmall] at hint ⊢
    have hnonneg : 0 ≤ intOfSize size := by
      rw [Int32.le_iff_toInt_le, hint]
      exact Int.natCast_nonneg _
    rw [toNat_wordOfInt hnonneg, Int32.toNatClampNeg, hint]
    rfl
  · rw [if_neg hsmall] at hint ⊢
    have hneg : intOfSize size < 0 := by
      rw [Int32.lt_iff_toInt_lt, hint]
      show (size.toNat : Int) - 0x100000000 < 0
      omega
    have hword := toNat_wordOfInt_neg hneg
    omega

/-! ### Blocks and writes -/

/-- One `char` of memory, `none` before anybody stored to it. -/
abbrev Cell := Option UInt8

/-- A buffer; `stray` records that some write to it fell outside. -/
structure Block where
  cells : List Cell
  stray : Bool
  deriving DecidableEq

namespace Block

variable {b : Block} {cs : List Cell} {i : Int} {c : UInt8} {n : Nat}

/-- How many characters a block has room for. -/
def room (b : Block) : Nat := b.cells.length

/-- A block of `n` characters nobody stored to. -/
def fresh (n : Nat) : Block := ⟨List.replicate n none, false⟩

/-- What a null pointer points at: no character may be written there. -/
def null : Block := ⟨[], false⟩

/-- Write `cs` from the start of the block on. -/
def put (b : Block) (cs : List Cell) : Block :=
  ⟨cs.take b.room ++ b.cells.drop cs.length, b.stray || decide (b.room < cs.length)⟩

/-- `p[i] = c`. -/
def store (b : Block) (i : Int) (c : UInt8) : Block :=
  if 0 ≤ i ∧ i < b.room then { b with cells := b.cells.set i.toNat (some c) }
  else { b with stray := true }

/-- `memset(p, c, n)`. -/
def memset (b : Block) (c : UInt8) (n : Nat) : Block := b.put (List.replicate n (some c))

/-- The `n` characters `strncpy` writes: the source up to its first NUL, and NULs
behind it. -/
def padded (src : List Cell) (n : Nat) : List Cell :=
  let chars := (src.take n).takeWhile (· ≠ some 0)
  chars ++ List.replicate (n - chars.length) (some 0)

/-- `strncpy(p, src, n)`. -/
def strncpy (b : Block) (src : List Cell) (n : Nat) : Block := b.put (padded src n)

@[simp] theorem room_fresh : (fresh n).room = n := List.length_replicate

@[simp] theorem room_put : (b.put cs).room = b.room := by
  simp only [room, put, List.length_append, List.length_take, List.length_drop]
  omega

@[simp] theorem room_store : (b.store i c).room = b.room := by
  rw [store]
  split
  · exact List.length_set
  · rfl

@[simp] theorem length_padded (src : List Cell) (n : Nat) : (padded src n).length = n := by
  have hchars : ((src.take n).takeWhile (· ≠ some 0)).length ≤ (src.take n).length :=
    (List.takeWhile_prefix _).length_le
  have htake : (src.take n).length ≤ n := List.length_take_le _ _
  simp only [padded, List.length_append, List.length_replicate]
  omega

@[simp] theorem room_memset : (b.memset c n).room = b.room := room_put

@[simp] theorem room_strncpy {src : List Cell} : (b.strncpy src n).room = b.room := room_put

@[simp] theorem stray_fresh : (fresh n).stray = false := rfl

@[simp] theorem stray_put :
    (b.put cs).stray = false ↔ b.stray = false ∧ cs.length ≤ b.room := by
  simp [put]

@[simp] theorem stray_memset :
    (b.memset c n).stray = false ↔ b.stray = false ∧ n ≤ b.room := by
  rw [memset, stray_put, List.length_replicate]

@[simp] theorem stray_strncpy {src : List Cell} :
    (b.strncpy src n).stray = false ↔ b.stray = false ∧ n ≤ b.room := by
  rw [strncpy, stray_put, length_padded]

@[simp] theorem stray_store :
    (b.store i c).stray = false ↔ b.stray = false ∧ 0 ≤ i ∧ i < b.room := by
  rw [store]
  split
  · rename_i hin
    simp [hin]
  · rename_i hout
    simp [hout]

/-- A write that fits replaces the first cells. -/
theorem cells_put (h : cs.length ≤ b.room) : (b.put cs).cells = cs ++ b.cells.drop cs.length := by
  rw [put, List.take_of_length_le h]

/-- A store inside replaces one cell. -/
theorem cells_store (h : n < b.room) : (b.store n c).cells = b.cells.set n (some c) := by
  rw [store, if_pos ⟨by omega, by omega⟩]
  rfl

/-- A store outside changes no cell. -/
theorem cells_store_outside (h : ¬ (0 ≤ i ∧ i < b.room)) : (b.store i c).cells = b.cells := by
  rw [store, if_neg h]

/-! ### Reading a string back -/

/-- The characters before the first NUL. -/
def chars? : List Cell → Option (List UInt8)
  | [] => none
  | none :: _ => none
  | some c :: cs => if c = 0 then some [] else (chars? cs).map (c :: ·)

/-- The string a block holds, if it is terminated inside the block. -/
def string? (b : Block) : Option CString := (chars? b.cells).map .ofBytes

/-- What a `char*` to the block points at. -/
def ptr (b : Block) : Ptr :=
  match b.string? with
  | some s => .str s
  | none => .unassigned

theorem ptr_of_string? {s : CString} (h : b.string? = some s) : b.ptr = .str s := by
  rw [ptr, h]

/-- No write to the block fell outside, and it holds the string of the bytes. -/
def Holds (b : Block) (bytes : List UInt8) : Prop :=
  b.stray = false ∧ b.string? = some (.ofBytes bytes)

theorem not_holds_of_stray {bytes : List UInt8} (h : b.stray = true) : ¬ b.Holds bytes :=
  fun hholds => absurd (h.symm.trans hholds.1) (by simp)

/-- Characters and a NUL behind them are read up to their own first NUL. -/
theorem chars?_terminated (bytes : List UInt8) (cs : List Cell) :
    chars? (bytes.map some ++ some 0 :: cs) = some (bytes.takeWhile (· != 0)) := by
  induction bytes with
  | nil => rfl
  | cons c bytes ih =>
      rw [List.map_cons, List.cons_append, chars?, ih, List.takeWhile_cons]
      by_cases hc : c = 0
      · simp [hc]
      · simp [hc]

/-- What `strncpy` takes from a source it reads whole. -/
theorem padded_whole (bytes : List UInt8) :
    padded (bytes.map some) bytes.length =
      (bytes.takeWhile (· != 0)).map some ++
        List.replicate (bytes.length - (bytes.takeWhile (· != 0)).length) (some 0) := by
  have hchars : (bytes.map some).takeWhile (fun c : Cell => decide (c ≠ some 0)) =
      (bytes.takeWhile (· != 0)).map some := by
    rw [List.takeWhile_map]
    congr 2
    funext c
    simp [bne, Bool.beq_eq_decide_eq]
  rw [padded, List.take_of_length_le (by simp), hchars, List.length_map]

/-- Copying what `strncpy` wrote gives the same characters again. -/
theorem padded_padded (src cs : List Cell) (n : Nat) :
    padded (padded src n ++ cs) n = padded src n := by
  have htake : (padded src n ++ cs).take n = padded src n := by
    rw [List.take_append_of_le_length (by rw [length_padded]), List.take_of_length_le (by simp)]
  have hchars : (padded src n).takeWhile (fun c : Cell => decide (c ≠ some 0)) =
      (src.take n).takeWhile (fun c : Cell => decide (c ≠ some 0)) := by
    have hkept : ∀ c ∈ (src.take n).takeWhile (fun c : Cell => decide (c ≠ some 0)),
        decide (c ≠ some 0) = true := by
      intro c hc
      exact List.mem_takeWhile_imp (p := fun c : Cell => decide (c ≠ some 0)) hc
    rw [padded, List.takeWhile_append_of_pos hkept, List.takeWhile_replicate, if_neg (by simp),
      List.append_nil]
  rw [padded, htake, hchars]
  rfl

/-- A string copied in front of a NUL is read back up to its own first NUL. -/
theorem string?_copied {bytes : List UInt8} {cs : List Cell}
    (h : b.cells = padded (bytes.map some) bytes.length ++ some 0 :: cs) :
    b.string? = some (.ofBytes bytes) := by
  have hreplicate (k : Nat) : List.replicate k (some 0 : Cell) ++ some 0 :: cs =
      some 0 :: (List.replicate k (some 0) ++ cs) := by
    induction k with
    | zero => rfl
    | succ k ih => rw [List.replicate_succ, List.cons_append, ih, List.cons_append]
  have hchars : chars? b.cells = some (bytes.takeWhile (· != 0)) := by
    rw [h, padded_whole, List.append_assoc, hreplicate, chars?_terminated, List.takeWhile_idem]
  have hbytes : CString.ofBytes (bytes.takeWhile (· != 0)) = CString.ofBytes bytes :=
    CString.ext List.takeWhile_idem
  rw [string?, hchars, Option.map_some, hbytes]

/-- A string copied to a block with room for it and its terminator, which is stored
first. -/
theorem copied_whole (bytes : List UInt8) :
    ((((fresh (bytes.length + 1)).memset 0 bytes.length).store bytes.length 0).strncpy
      (bytes.map some) bytes.length).Holds bytes := by
  have hzeroed : ((fresh (bytes.length + 1)).memset 0 bytes.length).cells =
      List.replicate bytes.length (some 0) ++ [none] := by
    rw [memset, cells_put (by simp), List.length_replicate, fresh, List.drop_replicate,
      Nat.add_sub_cancel_left]
    rfl
  have hterminated :
      (((fresh (bytes.length + 1)).memset 0 bytes.length).store bytes.length 0).cells =
        List.replicate bytes.length (some 0) ++ [some 0] := by
    rw [cells_store (by simp), hzeroed, List.set_append_right _ _ (by simp)]
    simp
  have hcells : ((((fresh (bytes.length + 1)).memset 0 bytes.length).store bytes.length 0).strncpy
      (bytes.map some) bytes.length).cells = padded (bytes.map some) bytes.length ++ [some 0] := by
    rw [strncpy, cells_put (by simp), hterminated, length_padded,
      List.drop_append_of_le_length (by simp)]
    simp
  have hin : bytes.length ≤ (fresh (bytes.length + 1)).room ∧
      (bytes.length : Int) < (fresh (bytes.length + 1)).room := by
    rw [room_fresh]
    omega
  refine ⟨stray_strncpy.mpr ⟨stray_store.mpr ⟨stray_memset.mpr ⟨stray_fresh, hin.1⟩, ?_⟩, ?_⟩,
    string?_copied hcells⟩
  · rw [room_memset]
    exact ⟨Int.natCast_nonneg _, hin.2⟩
  · rw [room_store, room_memset]
    exact hin.1

end Block

/-! ### Allocation -/

/-- `malloc`. A request for more than `PTRDIFF_MAX` bytes fails; memory does not run
out. -/
def malloc (size : UInt64) : Option Block :=
  if size.toNat < 0x8000000000000000 then some (.fresh size.toNat) else none

/-- The block behind the pointer `malloc` returned, for code that does not test it. -/
def pointee (p : Option Block) : Block := p.getD .null

theorem malloc_of_lt {size : UInt64} (h : size.toNat < 0x8000000000000000) :
    malloc size = some (.fresh size.toNat) := if_pos h

theorem malloc_of_ge {size : UInt64} (h : 0x8000000000000000 ≤ size.toNat) : malloc size = none :=
  if_neg (Nat.not_lt.mpr h)

/-- A block has no more room than was asked for. -/
theorem room_pointee_malloc_le (size : UInt64) : (pointee (malloc size)).room ≤ size.toNat := by
  rw [malloc]
  split
  · exact (Block.room_fresh).le
  · exact Nat.zero_le _

end CMemory
