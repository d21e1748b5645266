import Mathlib.Tactic.IntervalCases
import RpcBroker.Proofs.Registering
/-!
# RpcBroker.Proofs.Allocation

**The allocation for the services**, and the count the loops over it go by.

Both come from one number on the wire, each narrowed in its own way: the size
`8 * n + n` modulo 2⁶⁴, the count to an `int`. For almost all numbers the size is
enough. It is not where the product has just wrapped while the low half of `n`
is a positive `int`, which is so in four ranges (`servicesCovered_iff`).
-/

namespace RpcBroker

open CLib Msgpack

variable {E : Libs}

/-- The allocation has room for the services counted: its size is enough, and every
index the loops use lies inside. -/
def ServicesCovered (reg : ServiceReg) : Prop :=
  0 < reg.num_services → ∃ a, reg.services = some a ∧
    8 * reg.num_services.toNatClampNeg ≤ a.bytes.toNat ∧
    ∀ i < reg.num_services.toNatClampNeg, i < a.room

/-- The counts whose allocation is too small, as ranges. -/
def wrappedCounts : List (Nat × Nat) :=
  [(0x1C71C71C71C71C72, 0x1C71C71C7FFFFFFF), (0x5555555555555556, 0x555555557FFFFFFF),
    (0x8E38E38E38E38E39, 0x8E38E38E7FFFFFFF), (0xC71C71C71C71C71D, 0xC71C71C77FFFFFFF)]

/-- The count is in one of them. -/
def Wraps (u : UInt64) : Prop :=
  ∃ range ∈ wrappedCounts, range.1 ≤ u.toNat ∧ u.toNat ≤ range.2

instance (u : UInt64) : Decidable (Wraps u) :=
  inferInstanceAs (Decidable (∃ range ∈ wrappedCounts, range.1 ≤ u.toNat ∧ u.toNat ≤ range.2))

/-- The product with 9 falls below 8 times the low half only when it has wrapped, and
then the number of wraps leaves the high half no choice. -/
theorem wraps_iff {u : UInt64} (hpos : 0 < u.toNat % 0x100000000)
    (hint : u.toNat % 0x100000000 < 0x80000000) :
    Wraps u ↔ 9 * u.toNat % 0x10000000000000000 < 8 * (u.toNat % 0x100000000) := by
  have hlt := u.toNat_lt
  unfold Wraps wrappedCounts
  simp only [List.exists_mem_cons_iff, List.not_mem_nil, false_and, exists_false, or_false]
  generalize u.toNat = n at *
  obtain ⟨high, low, hlow, rfl⟩ : ∃ high low, low < 0x100000000 ∧ n = 0x100000000 * high + low :=
    ⟨n / 0x100000000, n % 0x100000000, Nat.mod_lt _ (by decide), (Nat.div_add_mod n _).symm⟩
  have hmod : (0x100000000 * high + low) % 0x100000000 = low := by omega
  rw [hmod] at hpos hint ⊢
  obtain ⟨wraps, rest, hrest, hproduct⟩ : ∃ wraps rest, rest < 0x10000000000000000 ∧
      9 * (0x100000000 * high + low) = 0x10000000000000000 * wraps + rest :=
    ⟨_, _, Nat.mod_lt _ (by decide), (Nat.div_add_mod _ 0x10000000000000000).symm⟩
  have hproductMod : 9 * (0x100000000 * high + low) % 0x10000000000000000 = rest := by omega
  have hwraps : wraps ≤ 8 := by omega
  rw [hproductMod]
  interval_cases wraps <;> omega

/-- The size that is allocated for a count. -/
theorem toNat_bytes_mallocServices (u : UInt64) :
    (mallocServices u).bytes.toNat = 9 * u.toNat % 0x10000000000000000 := by
  have hlt := u.toNat_lt
  rw [mallocServices, UInt64.toNat_add, UInt64.toNat_mul]
  simp only [UInt64.reduceToNat]
  omega

/-- A positive `int` is the low half of the word. -/
theorem toNatClampNeg_intOfWord {u : UInt64} (hpos : 0 < intOfWord u) :
    (intOfWord u).toNatClampNeg = u.toNat % 0x100000000 ∧ 0 < u.toNat % 0x100000000 ∧
      u.toNat % 0x100000000 < 0x80000000 := by
  have hzero : (0 : Int32).toInt = 0 := rfl
  rw [Int32.lt_iff_toInt_lt, hzero, toInt_intOfWord, Int.bmod_def] at hpos
  rw [Int32.toNatClampNeg, toInt_intOfWord, Int.bmod_def]
  split at hpos <;> omega

/-- A count that is no positive `int` is never in the ranges. -/
theorem not_wraps_of_nonpos {u : UInt64} (hpos : ¬ 0 < intOfWord u) : ¬ Wraps u := by
  have hzero : (0 : Int32).toInt = 0 := rfl
  rw [Int32.lt_iff_toInt_lt, hzero, toInt_intOfWord, Int.bmod_def] at hpos
  unfold Wraps wrappedCounts
  simp only [List.exists_mem_cons_iff, List.not_mem_nil, false_and, exists_false, or_false]
  split at hpos <;> omega

/-- **The allocation covers the count exactly outside the four ranges**, for the
last count of every packet. -/
theorem servicesCovered_iff (E : Libs) {packet : E.Buffer} {hs after : List Header} {u : UInt64}
    (hcarries : E.Carries packet hs) (hcount : afterCount hs = some (u, after)) :
    (∃ scan, unpackServiceRegistrationBuffer E packet = .ok scan ∧ ServicesCovered scan.reg) ↔
      ¬ Wraps u := by
  have hscan := unpackServiceRegistrationBuffer_carries hcarries
  have hreg := regHeaders_reg (E := E) hs
  have hnum : (regHeaders E hs .init).reg.num_services = intOfWord u := by
    rw [hreg, hcount]
    rfl
  have hservices : (regHeaders E hs .init).reg.services =
      some ⟨(mallocServices u).bytes, storedAfter E after⟩ := by
    rw [hreg, hcount]
    rfl
  have hcovered : ServicesCovered (regHeaders E hs .init).reg ↔ ¬ Wraps u := by
    unfold ServicesCovered
    rw [hnum, hservices]
    by_cases hpos : 0 < intOfWord u
    · obtain ⟨hlow, hlowpos, hint⟩ := toNatClampNeg_intOfWord hpos
      rw [wraps_iff hlowpos hint, Nat.not_lt, hlow, ← toNat_bytes_mallocServices]
      constructor
      · intro h
        obtain ⟨a, ha, hbytes, -⟩ := h hpos
        obtain rfl := Option.some.inj ha
        exact hbytes
      · intro hbytes _
        refine ⟨_, rfl, hbytes, ?_⟩
        intro i hi
        show i < (mallocServices u).bytes.toNat / 8
        omega
    · exact iff_of_true (fun h => absurd h hpos) (not_wraps_of_nonpos hpos)
  rw [← hcovered]
  constructor
  · intro h
    obtain ⟨scan, hok, hcov⟩ := h
    obtain rfl := Except.ok.inj (hscan.symm.trans hok)
    exact hcov
  · exact fun hcov => ⟨_, hscan, hcov⟩

/-- The registration of a server with one service. -/
theorem servicesCovered_add :
    ∃ scan, unpackServiceRegistrationBuffer Libs.reference addRegistration = .ok scan ∧
      ServicesCovered scan.reg :=
  (servicesCovered_iff Libs.reference rfl
    (afterCount_registration exampleServer (by decide))).mpr (by decide)

/-- The smallest of the counts: 2 bytes are allocated for it. -/
theorem servicesCovered_wrapped :
    ¬ ∀ (E : Libs) (packet : E.Buffer) (hs after : List Header) (u : UInt64),
      E.Carries packet hs → afterCount hs = some (u, after) →
      ∃ scan, unpackServiceRegistrationBuffer E packet = .ok scan ∧ ServicesCovered scan.reg := by
  intro h
  have hscan : unpackServiceRegistrationBuffer Libs.reference
      (packetOf [⟨Hdr.servicesCount.text.chars, .positiveInteger 0x1C71C71C71C71C72⟩]) =
      .ok ⟨⟨.unassigned, .unassigned, some ⟨2, fun _ => .unassigned⟩, .unassigned, 0x71C71C72⟩,
        false⟩ := rfl
  obtain ⟨scan, hok, hcov⟩ := h Libs.reference _
    [⟨Hdr.servicesCount.text.chars, .positiveInteger 0x1C71C71C71C71C72⟩] [] _ rfl rfl
  obtain rfl := Except.ok.inj (hscan.symm.trans hok)
  obtain ⟨a, ha, hbytes, -⟩ := hcov (by decide)
  obtain rfl := Option.some.inj ha
  exact absurd hbytes (by decide)

end RpcBroker
