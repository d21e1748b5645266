import Mathlib.Data.List.Forall2
/-!
# RpcBroker.Lib.Reader

**Reading bytes that may not all be there yet.** A `Reader` takes something off
the front of a byte string, or says that the bytes end too early, or that they
are no beginning of anything.

A `Lawful` reader decides by the bytes it takes: what it reads, and what it
rejects, does not change when more bytes come behind. So once a reader is known to
read an encoding (`Reads`), every proper beginning of the encoding is incomplete
(`Lawful.cut`), and nothing has to be said about beginnings format by format.

`all` reads one thing after the other to the end of the bytes.
-/

namespace Bytes

/-- What a reader makes of a byte string. -/
inductive Read (α : Type)
  | done (a : α) (rest : List UInt8)
  | incomplete
  | invalid

/-- Takes something off the front of a byte string. -/
def Reader (α : Type) : Type := List UInt8 → Read α

namespace Reader

variable {α β : Type}

/-! ### Readers -/

/-- Read nothing. -/
def pure (a : α) : Reader α := fun bytes => .done a bytes

/-- Reject. -/
def fail : Reader α := fun _ => .invalid

/-- Read, and go on by what was read. -/
def bind (r : Reader α) (f : α → Reader β) : Reader β := fun bytes =>
  match r bytes with
  | .done a rest => f a rest
  | .incomplete => .incomplete
  | .invalid => .invalid

/-- One byte. -/
def byte : Reader UInt8
  | [] => .incomplete
  | b :: rest => .done b rest

/-- So many bytes. -/
def take (n : Nat) : Reader (List UInt8) := fun bytes =>
  if n ≤ bytes.length then .done (bytes.take n) (bytes.drop n) else .incomplete

/-! ### Lawful readers -/

/-- The reader decides by the bytes it takes, and gives none back. -/
structure Lawful (r : Reader α) : Prop where
  done_append : ∀ {bytes a rest} more, r bytes = .done a rest →
    r (bytes ++ more) = .done a (rest ++ more)
  invalid_append : ∀ {bytes} more, r bytes = .invalid → r (bytes ++ more) = .invalid
  length_le : ∀ {bytes a rest}, r bytes = .done a rest → rest.length ≤ bytes.length

theorem Lawful.pure (a : α) : Lawful (Reader.pure a) where
  done_append more h := by
    cases h
    rfl
  invalid_append more h := by cases h
  length_le h := by
    cases h
    exact Nat.le_refl _

theorem Lawful.fail : Lawful (Reader.fail : Reader α) where
  done_append more h := by cases h
  invalid_append more h := rfl
  length_le h := by cases h

theorem Lawful.bind {r : Reader α} {f : α → Reader β} (hr : Lawful r)
    (hf : ∀ a, Lawful (f a)) : Lawful (r.bind f) where
  done_append {bytes b rest} more h := by
    unfold Reader.bind at h ⊢
    cases hread : r bytes with
    | done a mid =>
        rw [hread] at h
        rw [hr.done_append more hread]
        exact (hf a).done_append more h
    | incomplete => rw [hread] at h; cases h
    | invalid => rw [hread] at h; cases h
  invalid_append {bytes} more h := by
    unfold Reader.bind at h ⊢
    cases hread : r bytes with
    | done a mid =>
        rw [hread] at h
        rw [hr.done_append more hread]
        exact (hf a).invalid_append more h
    | incomplete => rw [hread] at h; cases h
    | invalid => rw [hr.invalid_append more hread]
  length_le {bytes b rest} h := by
    unfold Reader.bind at h
    cases hread : r bytes with
    | done a mid =>
        rw [hread] at h
        exact Nat.le_trans ((hf a).length_le h) (hr.length_le hread)
    | incomplete => rw [hread] at h; cases h
    | invalid => rw [hread] at h; cases h

theorem Lawful.byte : Lawful Reader.byte where
  done_append {bytes b rest} more h := by
    cases bytes with
    | nil => cases h
    | cons c cs => cases h; rfl
  invalid_append {bytes} more h := by cases bytes <;> cases h
  length_le {bytes b rest} h := by
    cases bytes with
    | nil => cases h
    | cons c cs => cases h; exact Nat.le_succ _

theorem Lawful.take (n : Nat) : Lawful (Reader.take n) where
  done_append {bytes a rest} more h := by
    unfold Reader.take at h ⊢
    by_cases hn : n ≤ bytes.length
    · rw [if_pos hn] at h
      cases h
      rw [if_pos (by rw [List.length_append]; omega), List.take_append_of_le_length hn,
        List.drop_append_of_le_length hn]
    · rw [if_neg hn] at h
      cases h
  invalid_append {bytes} more h := by
    unfold Reader.take at h
    split at h <;> cases h
  length_le {bytes a rest} h := by
    unfold Reader.take at h
    by_cases hn : n ≤ bytes.length
    · rw [if_pos hn] at h
      cases h
      rw [List.length_drop]
      exact Nat.sub_le _ _
    · rw [if_neg hn] at h
      cases h

/-! ### What a reader reads -/

/-- The reader takes exactly these bytes for `a`, whatever comes behind. -/
def Reads (r : Reader α) (bytes : List UInt8) (a : α) : Prop :=
  ∀ rest, r (bytes ++ rest) = .done a rest

theorem Reads.pure (a : α) : Reads (Reader.pure a) [] a := fun _ => rfl

theorem Reads.byte (b : UInt8) : Reads Reader.byte [b] b := fun _ => rfl

theorem Reads.take (bytes : List UInt8) : Reads (Reader.take bytes.length) bytes bytes := by
  intro rest
  unfold Reader.take
  rw [if_pos (by rw [List.length_append]; omega), List.take_left, List.drop_left]

theorem Reads.bind {r : Reader α} {f : α → Reader β} {bytes bytes' : List UInt8} {a : α} {b : β}
    (hr : Reads r bytes a) (hf : Reads (f a) bytes' b) : Reads (r.bind f) (bytes ++ bytes') b := by
  intro rest
  unfold Reader.bind
  rw [List.append_assoc, hr]
  exact hf rest

/-- **A proper beginning is incomplete**: it is neither something else nor
nothing. -/
theorem Lawful.cut {r : Reader α} (hr : Lawful r) {bytes missing : List UInt8} {a : α}
    (h : Reads r (bytes ++ missing) a) (hne : missing ≠ []) : r bytes = .incomplete := by
  have hwhole := h []
  rw [List.append_nil] at hwhole
  cases hread : r bytes with
  | done b rest =>
      rw [hr.done_append missing hread] at hwhole
      injection hwhole with _ hrest
      exact absurd (List.append_eq_nil_iff.mp hrest).2 hne
  | incomplete => rfl
  | invalid =>
      rw [hr.invalid_append missing hread] at hwhole
      cases hwhole

/-! ### Reading to the end -/

/-- Read one thing after the other, at most `fuel` of them. The flag tells whether
the bytes were not rejected. -/
def allLoop (r : Reader α) : Nat → List UInt8 → List α × Bool
  | 0, _ => ([], true)
  | fuel + 1, bytes =>
      match r bytes with
      | .done a rest => (a :: (allLoop r fuel rest).1, (allLoop r fuel rest).2)
      | .incomplete => ([], true)
      | .invalid => ([], false)

/-- Read one thing after the other, to the end. -/
def all (r : Reader α) (bytes : List UInt8) : List α × Bool := allLoop r (bytes.length + 1) bytes

/-- The reader takes at least a byte of everything it reads. -/
def Progress (r : Reader α) : Prop :=
  ∀ {bytes a rest}, r bytes = .done a rest → rest.length < bytes.length

/-- A byte of fuel for a byte of input is enough. -/
theorem allLoop_fuel {r : Reader α} (hr : Progress r) {fuel fuel' : Nat} {bytes : List UInt8}
    (h : bytes.length < fuel) (h' : bytes.length < fuel') :
    allLoop r fuel bytes = allLoop r fuel' bytes := by
  induction fuel generalizing fuel' bytes with
  | zero => omega
  | succ fuel ih =>
      cases fuel' with
      | zero => omega
      | succ fuel' =>
          unfold allLoop
          cases hread : r bytes with
          | done a rest =>
              have hlt := hr hread
              simp only [ih (show rest.length < fuel by omega) (show rest.length < fuel' by omega)]
          | incomplete => rfl
          | invalid => rfl

/-- Something that is read, before the rest. -/
theorem all_reads {r : Reader α} (hr : Progress r) {bytes : List UInt8} {a : α}
    (h : Reads r bytes a) (rest : List UInt8) :
    all r (bytes ++ rest) = (a :: (all r rest).1, (all r rest).2) := by
  have hlt := hr (h rest)
  rw [all, allLoop, h rest]
  simp only [all, allLoop_fuel hr hlt (Nat.lt_succ_self rest.length)]

theorem all_incomplete {r : Reader α} {bytes : List UInt8} (h : r bytes = .incomplete) :
    all r bytes = ([], true) := by
  rw [all, allLoop, h]

/-- Everything that is read, before the rest. -/
theorem all_flatten {r : Reader α} (hr : Progress r) {chunks : List (List UInt8)} {as : List α}
    (h : List.Forall₂ (Reads r) chunks as) (rest : List UInt8) :
    all r (chunks.flatten ++ rest) = (as ++ (all r rest).1, (all r rest).2) := by
  induction h with
  | nil => rfl
  | cons hchunk _ ih =>
      rw [List.flatten_cons, List.append_assoc, all_reads hr hchunk, ih]
      rfl

/-- Cut short, the bytes still give what is complete, and are not rejected. -/
theorem all_cut {r : Reader α} (hr : Lawful r) (hprogress : Progress r)
    {chunks : List (List UInt8)} {as : List α} (h : List.Forall₂ (Reads r) chunks as)
    {bytes missing : List UInt8} (hcut : bytes ++ missing = chunks.flatten) (hne : missing ≠ []) :
    ∃ as' as'', as = as' ++ as'' ∧ as'' ≠ [] ∧ all r bytes = (as', true) := by
  induction h generalizing bytes with
  | nil => exact absurd (List.append_eq_nil_iff.mp hcut).2 hne
  | @cons chunk a chunks as hchunk _ ih =>
      rw [List.flatten_cons] at hcut
      rcases List.append_eq_append_iff.mp hcut with ⟨c, rfl, hc⟩ | ⟨c, rfl, hc⟩
      · cases c with
        | nil =>
            -- The cut is behind the first chunk: all others are missing.
            rw [List.append_nil] at hchunk
            rw [List.nil_append] at hc
            have hrest : [] ++ missing = chunks.flatten := hc
            obtain ⟨as', as'', rfl, hne', hall⟩ := ih hrest
            refine ⟨a :: as', as'', rfl, hne', ?_⟩
            have hread := all_reads hprogress hchunk []
            rw [List.append_nil] at hread
            rw [hread, hall]
        | cons b c =>
            -- The cut is inside the first chunk.
            exact ⟨[], a :: as, rfl, by simp, all_incomplete (hr.cut hchunk (by simp))⟩
      · obtain ⟨as', as'', rfl, hne', hall⟩ := ih hc.symm
        refine ⟨a :: as', as'', rfl, hne', ?_⟩
        rw [all_reads hprogress hchunk, hall]

end Reader

end Bytes
