import Mathlib.Algebra.Group.Nat.Defs
/-!
# RpcBroker.Lib.BigEndian

**Numbers as bytes**, most significant first, in a field of fixed width: the
network order of integers. `ofBE` reads what `toBE` wrote, whatever the width.
-/

namespace Bytes

/-- The low `width` bytes of a number, most significant first. -/
def toBE : Nat → Nat → List UInt8
  | 0, _ => []
  | width + 1, n => toBE width (n / 256) ++ [UInt8.ofNat n]

/-- The number in a field. -/
def ofBE (bytes : List UInt8) : Nat := bytes.foldl (fun acc b => acc * 256 + b.toNat) 0

@[simp] theorem length_toBE (width n : Nat) : (toBE width n).length = width := by
  induction width generalizing n with
  | zero => rfl
  | succ width ih => rw [toBE, List.length_append, ih, List.length_singleton]

theorem ofBE_concat (bytes : List UInt8) (b : UInt8) :
    ofBE (bytes ++ [b]) = ofBE bytes * 256 + b.toNat := by
  rw [ofBE, List.foldl_append]
  rfl

/-- A field holds less than the power of its width. -/
theorem ofBE_lt (bytes : List UInt8) : ofBE bytes < 256 ^ bytes.length := by
  have hfold : ∀ acc, bytes.foldl (fun acc b => acc * 256 + b.toNat) acc <
      (acc + 1) * 256 ^ bytes.length := by
    induction bytes with
    | nil =>
        intro acc
        rw [List.foldl_nil, List.length_nil, pow_zero, Nat.mul_one]
        exact Nat.lt_succ_self acc
    | cons b bytes ih =>
        intro acc
        have hb := b.toNat_lt
        have hle : acc * 256 + b.toNat + 1 ≤ (acc + 1) * 256 := by omega
        calc bytes.foldl (fun acc b => acc * 256 + b.toNat) (acc * 256 + b.toNat)
            _ < (acc * 256 + b.toNat + 1) * 256 ^ bytes.length := ih _
            _ ≤ (acc + 1) * 256 * 256 ^ bytes.length := Nat.mul_le_mul_right _ hle
            _ = (acc + 1) * 256 ^ (b :: bytes).length := by
              rw [List.length_cons, pow_succ', Nat.mul_assoc]
  have hzero := hfold 0
  rwa [Nat.zero_add, Nat.one_mul] at hzero

/-- A number that fits its field is read back. -/
theorem ofBE_toBE {width n : Nat} (h : n < 256 ^ width) : ofBE (toBE width n) = n := by
  induction width generalizing n with
  | zero =>
      obtain rfl : n = 0 := by simpa using h
      rfl
  | succ width ih =>
      have hdiv : n / 256 < 256 ^ width := by
        rw [Nat.div_lt_iff_lt_mul (by decide), ← pow_succ]
        exact h
      rw [toBE, ofBE_concat, ih hdiv, UInt8.toNat_ofNat']
      omega

end Bytes
