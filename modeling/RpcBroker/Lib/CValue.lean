import Mathlib.Data.List.TakeWhile
/-!
# RpcBroker.Lib.CValue

The **C values** a network program written in C passes around, as far as a
shallow embedding needs them: NUL-terminated strings, the `char*` variables
that may or may not point at one, and the conversions of a 64-bit wire integer
to an `int`.

A `CString` carries the absence of NUL bytes as a field, so a string with a
terminator in its middle cannot be built; `CString.ofBytes` is the only way from
raw bytes, and it stops at the first NUL as every `str*` function does. A `Ptr`
keeps the two ways of pointing at no string apart: `null` is the constant a
program can test for, `unassigned` is whatever the variable or the allocation
held before anybody stored to it.

Lengths are natural numbers: the narrowing of a `strlen` to an `int`, which
only strings of two gigabytes and more would see, is not modelled.
-/

namespace CLib

/-- What a `char*` denotes up to its terminator: a run of non-NUL bytes. -/
structure CString where
  chars : List UInt8
  nulFree : 0 ∉ chars
  deriving DecidableEq

namespace CString

@[ext] theorem ext {s t : CString} (h : s.chars = t.chars) : s = t := by
  cases s
  cases t
  simpa using h

/-- The string found at the start of a byte buffer: the bytes before the first
NUL (a terminator follows the buffer if none is inside it). -/
def ofBytes (bs : List UInt8) : CString :=
  ⟨bs.takeWhile (· != 0), fun h => by simpa using List.mem_takeWhile_imp h⟩

/-- A string literal. -/
def lit (s : String) : CString :=
  ofBytes (s.toList.map fun c => c.toNat.toUInt8)

/-- `strlen`. -/
def strlen (s : CString) : Nat := s.chars.length

/-- The empty string `""`. -/
def empty : CString := ⟨[], by simp⟩

/-- Bytes without a NUL are read back whole. -/
theorem chars_ofBytes {bs : List UInt8} (h : 0 ∉ bs) : (ofBytes bs).chars = bs := by
  refine List.takeWhile_eq_self_iff.mpr ?_
  intro c hc
  have hne : c ≠ 0 := fun h0 => h (h0 ▸ hc)
  simpa using hne

@[simp] theorem ofBytes_chars (s : CString) : ofBytes s.chars = s :=
  CString.ext (chars_ofBytes s.nulFree)

end CString

/-- A `char*`: the null pointer, a pointer nobody assigned, or one to a string. -/
inductive Ptr
  /-- The null pointer constant. -/
  | null
  /-- The content of a variable or of allocated memory before the first store. -/
  | unassigned
  /-- A pointer to a terminated string. -/
  | str (s : CString)
  deriving DecidableEq

/-- The string a pointer points at, if it points at one. -/
def Ptr.string? : Ptr → Option CString
  | .str s => some s
  | _ => none

/-! ### Integers -/

/-- `(int) via.i64` for a 64-bit word read off the wire: the low 32 bits, as a
signed number. -/
def intOfWord (u : UInt64) : Int32 := u.toInt64.toInt32

/-- The 64-bit word that carries an `int`, by sign extension. -/
def wordOfInt (i : Int32) : UInt64 := i.toInt64.toUInt64

/-- An `int` comes back from its sign extension. -/
@[simp] theorem intOfWord_wordOfInt (i : Int32) : intOfWord (wordOfInt i) = i := by
  simp [intOfWord, wordOfInt]

/-- A non-negative `int` is carried as the number it is. -/
theorem toNat_wordOfInt {i : Int32} (h : 0 ≤ i) : (wordOfInt i).toNat = i.toNatClampNeg := by
  have hnonneg : (0 : Int64) ≤ i.toInt64 := by
    rw [← show (0 : Int32).toInt64 = 0 from rfl, Int32.toInt64_le]
    exact h
  rw [wordOfInt, Int64.toNat_toUInt64_of_le hnonneg, Int32.toNatClampNeg_toInt64]

/-- The narrowing keeps the residue modulo 2³². -/
theorem toInt_intOfWord (u : UInt64) : (intOfWord u).toInt = (u.toNat : Int).bmod 0x100000000 := by
  have hword : u.toInt64.toInt = (u.toNat : Int).bmod 0x10000000000000000 := by
    rw [← Int64.toInt_toBitVec, UInt64.toBitVec_toInt64, BitVec.toInt_eq_toNat_bmod]
    rfl
  rw [intOfWord, Int64.toInt_toInt32, hword]
  exact Int.bmod_bmod_of_dvd (by decide)

/-- Two words narrow to one `int` when their low 32 bits are the same. -/
theorem intOfWord_eq_iff {u v : UInt64} :
    intOfWord u = intOfWord v ↔ u.toNat % 0x100000000 = v.toNat % 0x100000000 := by
  rw [← Int32.toInt_inj, toInt_intOfWord, toInt_intOfWord, Int.bmod_def, Int.bmod_def]
  split <;> split <;> omega

/-- The `int` is not negative when bit 31 of the word is clear. -/
theorem intOfWord_nonneg_iff {u : UInt64} :
    0 ≤ intOfWord u ↔ u.toNat % 0x100000000 < 0x80000000 := by
  have hzero : (0 : Int32).toInt = 0 := rfl
  rw [Int32.le_iff_toInt_le, hzero, toInt_intOfWord, Int.bmod_def]
  split <;> omega

end CLib
