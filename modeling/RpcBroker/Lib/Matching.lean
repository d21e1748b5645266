import Mathlib.Data.List.Enum
import Mathlib.Data.List.Nodup
/-!
# RpcBroker.Lib.Matching

**Matching answers to questions, oldest first.** A `Ledger` is the history of a
matching: everything that arrived, in order, and the positions that have been
taken. Entries are told apart by their position, so equal entries are no
problem. That a position is taken at most once, and only after something arrived
there, is part of the type.

What is still pending is derived (`Ledger.pending`). A program that keeps only
a list of pending entries, appends what arrives and erases the first entry that
matches, keeps exactly that list: `pending_arrive` and `pending_take`.
-/

namespace Matching

variable {α : Type*}

/-- Everything that arrived, and the positions taken so far. -/
structure Ledger (α : Type*) where
  arrived : List α
  taken : List Nat
  once : taken.Nodup
  known : ∀ i ∈ taken, i < arrived.length

namespace Ledger

/-- Nothing has arrived. -/
def empty : Ledger α := ⟨[], [], List.nodup_nil, by simp⟩

/-- The entries not taken, each with its position. -/
def waiting (L : Ledger α) : List (α × Nat) :=
  L.arrived.zipIdx.filter fun e => decide (e.2 ∉ L.taken)

/-- The entries not taken, oldest first. -/
def pending (L : Ledger α) : List α := L.waiting.map Prod.fst

/-- The oldest pending entry that satisfies `p`. -/
def oldest (L : Ledger α) (p : α → Bool) : Option (α × Nat) :=
  L.waiting.find? fun e => p e.1

theorem mem_waiting {L : Ledger α} {a : α} {i : Nat} :
    (a, i) ∈ L.waiting ↔ L.arrived[i]? = some a ∧ i ∉ L.taken := by
  simp [waiting, List.mem_zipIdx_iff_getElem?]

theorem mem_waiting_of_oldest {L : Ledger α} {p : α → Bool} {e : α × Nat}
    (h : L.oldest p = some e) : e ∈ L.waiting := List.mem_of_find?_eq_some h

/-- An entry arrives. -/
def arrive (L : Ledger α) (a : α) : Ledger α where
  arrived := L.arrived ++ [a]
  taken := L.taken
  once := L.once
  known i hi := by
    have hlt := L.known i hi
    rw [List.length_append]
    omega

/-- Take an entry that is waiting. -/
def takeEntry (L : Ledger α) (e : α × Nat) (h : e ∈ L.waiting) : Ledger α where
  arrived := L.arrived
  taken := L.taken ++ [e.2]
  once := by
    have hfresh := (mem_waiting.mp h).2
    rw [List.nodup_append]
    refine ⟨L.once, List.nodup_singleton _, ?_⟩
    intro i hi j hj hij
    rw [List.mem_singleton] at hj
    exact hfresh (hj ▸ hij ▸ hi)
  known i hi := by
    rcases List.mem_append.mp hi with hi | hi
    · exact L.known i hi
    · rw [List.mem_singleton] at hi
      obtain ⟨hlt, -⟩ := List.getElem?_eq_some_iff.mp (mem_waiting.mp h).1
      exact hi ▸ hlt

/-- Take the oldest pending entry that satisfies `p`, if there is one. -/
def take (L : Ledger α) (p : α → Bool) : Ledger α :=
  match h : L.oldest p with
  | some e => L.takeEntry e (mem_waiting_of_oldest h)
  | none => L

/-! ### Taking -/

theorem take_some {L : Ledger α} {p : α → Bool} {e : α × Nat} (h : L.oldest p = some e) :
    (L.take p).arrived = L.arrived ∧ (L.take p).taken = L.taken ++ [e.2] := by
  unfold take
  split
  next e' h' =>
      obtain rfl : e = e' := Option.some.inj (h.symm.trans h')
      exact ⟨rfl, rfl⟩
  next h' => exact absurd (h.symm.trans h') (by simp)

theorem take_none {L : Ledger α} {p : α → Bool} (h : L.oldest p = none) : L.take p = L := by
  unfold take
  split
  next e h' => exact absurd (h.symm.trans h') (by simp)
  next => rfl

@[simp] theorem take_arrived (L : Ledger α) (p : α → Bool) :
    (L.take p).arrived = L.arrived := by
  cases h : L.oldest p with
  | some e => exact (take_some h).1
  | none => rw [take_none h]

/-- What `oldest` finds: an entry at a position not taken, with none like it at
an earlier one. -/
theorem oldest_eq_some {L : Ledger α} {p : α → Bool} {a : α} {i : Nat}
    (h : L.oldest p = some (a, i)) :
    L.arrived[i]? = some a ∧ i ∉ L.taken ∧ p a = true ∧
      ∀ j b, j < i → L.arrived[j]? = some b → j ∉ L.taken → p b = false := by
  obtain ⟨hi, hfresh⟩ := mem_waiting.mp (mem_waiting_of_oldest h)
  obtain ⟨hp, before, after, hsplit, hbefore⟩ := List.find?_eq_some_iff_append.mp h
  refine ⟨hi, hfresh, hp, ?_⟩
  intro j b hj hb hjfree
  -- Positions grow along `waiting`, so an earlier one stands before the match.
  have hsorted : (L.waiting.map Prod.snd).Pairwise (· < ·) := by
    have hzip : (L.arrived.zipIdx.map Prod.snd).Pairwise (· < ·) := by
      rw [List.zipIdx_map_snd]
      exact List.pairwise_lt_range' 1
    exact hzip.sublist ((List.filter_sublist ..).map _)
  have hmem : (b, j) ∈ L.waiting := mem_waiting.mpr ⟨hb, hjfree⟩
  rw [hsplit] at hmem hsorted
  rcases List.mem_append.mp hmem with hmem | hmem
  · simpa using hbefore (b, j) hmem
  · exfalso
    simp only [List.map_append, List.map_cons, List.pairwise_append, List.pairwise_cons] at hsorted
    rcases List.mem_cons.mp hmem with heq | hmem
    · have hji : j = i := congrArg Prod.snd heq
      omega
    · have hlt := hsorted.2.1.1 j (List.mem_map.mpr ⟨_, hmem, rfl⟩)
      omega

theorem oldest_eq_none {L : Ledger α} {p : α → Bool} :
    L.oldest p = none ↔ ∀ a ∈ L.pending, p a = false := by
  simp only [oldest, pending, List.find?_eq_none, List.mem_map, Bool.not_eq_true]
  constructor
  · intro h a ha
    obtain ⟨e, he, rfl⟩ := ha
    exact h e he
  · intro h e he
    exact h e.1 ⟨e, he, rfl⟩

/-- The first pending entry that satisfies `p` is the oldest one. -/
theorem find?_pending (L : Ledger α) (p : α → Bool) :
    L.pending.find? p = (L.oldest p).map Prod.fst := by
  rw [pending, List.find?_map]
  rfl

/-! ### The pending list -/

/-- What arrives is appended to the pending entries. -/
@[simp] theorem pending_arrive (L : Ledger α) (a : α) :
    (L.arrive a).pending = L.pending ++ [a] := by
  have hfresh : L.arrived.length ∉ L.taken := fun h => Nat.lt_irrefl _ (L.known _ h)
  have hwaiting : (L.arrive a).waiting = L.waiting ++ [(a, L.arrived.length)] := by
    unfold waiting arrive
    rw [List.zipIdx_append, List.filter_append]
    simp [hfresh]
  rw [pending, hwaiting, List.map_append]
  rfl

/-- In a list of entries at different positions, dropping the position of the
first match is erasing the first match. -/
theorem filter_ne_eq_eraseP {q : α × Nat → Bool} {l : List (α × Nat)} {e : α × Nat}
    (hnodup : (l.map Prod.snd).Nodup) (h : l.find? q = some e) :
    l.filter (fun x => decide (x.2 ≠ e.2)) = l.eraseP q := by
  induction l with
  | nil => exact absurd h (by simp)
  | cons x xs ih =>
      rw [List.map_cons, List.nodup_cons] at hnodup
      cases hq : q x with
      | true =>
          rw [List.find?_cons_of_pos hq] at h
          obtain rfl : x = e := Option.some.inj h
          rw [List.eraseP_cons_of_pos hq, List.filter_cons_of_neg (by simp), List.filter_eq_self]
          intro y hy
          have hne : y.2 ≠ x.2 := fun heq => hnodup.1 (List.mem_map.mpr ⟨y, hy, heq⟩)
          simpa using hne
      | false =>
          have hneg : ¬ q x = true := by simp [hq]
          rw [List.find?_cons_of_neg hneg] at h
          have hmem : e ∈ xs := List.mem_of_find?_eq_some h
          have hne : x.2 ≠ e.2 := fun heq => hnodup.1 (List.mem_map.mpr ⟨e, hmem, heq.symm⟩)
          rw [List.eraseP_cons_of_neg hneg, List.filter_cons_of_pos (by simpa using hne),
            ih hnodup.2 h]

/-- **Taking erases the first match** from the pending entries. -/
@[simp] theorem pending_take (L : Ledger α) (p : α → Bool) :
    (L.take p).pending = L.pending.eraseP p := by
  cases h : L.oldest p with
  | none =>
      have hnone := oldest_eq_none.mp h
      rw [take_none h, List.eraseP_of_forall_not (fun a ha => by simp [hnone a ha])]
  | some e =>
      obtain ⟨harrived, htaken⟩ := take_some h
      have hwaiting : (L.take p).waiting = L.waiting.filter fun x => decide (x.2 ≠ e.2) := by
        rw [waiting, harrived, htaken, waiting, List.filter_filter]
        refine List.filter_congr fun x _ => ?_
        simp [and_comm]
      have hnodup : (L.waiting.map Prod.snd).Nodup := by
        have hzip : (L.arrived.zipIdx.map Prod.snd).Nodup := by
          rw [List.zipIdx_map_snd]
          exact List.nodup_range'
        exact hzip.sublist ((List.filter_sublist ..).map _)
      rw [pending, hwaiting, filter_ne_eq_eraseP hnodup h, pending, List.eraseP_map]
      rfl

end Ledger

/-- Erasing the first match of `p` does not touch entries that are no match. -/
theorem filter_eraseP {p q : α → Bool} (h : ∀ a, p a = true → q a = false) (l : List α) :
    (l.eraseP p).filter q = l.filter q := by
  induction l with
  | nil => rfl
  | cons a l ih =>
      cases hp : p a with
      | true => rw [List.eraseP_cons_of_pos hp, List.filter_cons_of_neg (by simp [h a hp])]
      | false => rw [List.eraseP_cons_of_neg (by simp [hp]), List.filter_cons, List.filter_cons, ih]

end Matching
