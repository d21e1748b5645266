import RpcBroker.Lib.Run
/-!
# RpcBroker.Lib.Independence

**Independent steps.** Every step of a system is taken at some places; two steps
without a place in common do not see each other. If such steps, where both are possible,
may be taken one after the other in either order with the same outcome
(`Concurrent.diamond`), then the outcome of a whole run depends on no more than the order
of the steps at each place (`Run.outcome_unique`).

The labels of a run need not be distinct, and a step may be possible only because another
was taken before.
-/

namespace Machine

variable {σ ι κ : Type*}

/-- The labels are at no common place. -/
def Apart (place : κ → ι → Bool) (x y : ι) : Prop := ∀ p, place p x → ¬ place p y

/-- Steps whose outcome is determined, and that do not see each other when their labels
are apart. -/
structure Concurrent (move : σ → ι → σ → Prop) (place : κ → ι → Bool) : Prop where
  placed : ∀ x, ∃ p, place p x
  deterministic : ∀ {s t t' x}, move s x t → move s x t' → t = t'
  diamond : ∀ {s u v x y}, Apart place x y → move s x u → move s y v →
    ∃ t, move u y t ∧ move v x t

variable {move : σ → ι → σ → Prop} {place : κ → ι → Bool}

/-- A step that is possible at once, and apart from all steps of a run, may be taken
before or after it. -/
theorem Concurrent.exchange (h : Concurrent move place) {s u v : σ} {x : ι} {ys : List ι}
    (hapart : ∀ y ∈ ys, Apart place x y) (hx : move s x v) (hys : Run move s ys u) :
    ∃ t, move u x t ∧ Run move v ys t := by
  induction hys generalizing v with
  | nil s => exact ⟨v, hx, .nil v⟩
  | cons hy _ ih =>
      obtain ⟨w, hw, hw'⟩ := h.diamond (hapart _ (List.mem_cons_self ..)) hx hy
      obtain ⟨t, ht, hrun⟩ := ih (fun z hz => hapart z (List.mem_cons_of_mem _ hz)) hw'
      exact ⟨t, ht, .cons hw hrun⟩

/-- What is first at its places in a list can be brought to the front. -/
theorem exists_first {x : ι} (hplaced : ∃ p, place p x) {xs ys : List ι}
    (hsame : ∀ p, (x :: xs).filter (place p) = ys.filter (place p)) :
    ∃ before after, ys = before ++ x :: after ∧ (∀ y ∈ before, Apart place x y) ∧
      ∀ p, xs.filter (place p) = (before ++ after).filter (place p) := by
  obtain ⟨p, hp⟩ := hplaced
  have hfirst := hsame p
  rw [List.filter_cons_of_pos hp] at hfirst
  obtain ⟨before, after, rfl, hbefore, -, -⟩ := List.filter_eq_cons_iff.mp hfirst.symm
  -- Otherwise another label than `x` would come first at `q`, namely one not at `p`.
  have hnone : ∀ q, place q x → before.filter (place q) = [] := by
    intro q hx
    have hq := hsame q
    rw [List.filter_cons_of_pos hx, List.filter_append] at hq
    cases hbq : before.filter (place q) with
    | nil => rfl
    | cons y ys =>
        rw [hbq, List.cons_append] at hq
        obtain rfl := (List.cons.inj hq).1
        have hmem : x ∈ before.filter (place q) := hbq ▸ List.mem_cons_self ..
        exact absurd hp (hbefore x (List.mem_of_mem_filter hmem))
  refine ⟨before, after, rfl, ?_, ?_⟩
  · intro y hy q hq hqy
    exact absurd (List.filter_eq_nil_iff.mp (hnone q hq) y hy) (by simp [hqy])
  · intro q
    have hq := hsame q
    by_cases hx : place q x
    · rw [List.filter_cons_of_pos hx, List.filter_append, hnone q hx,
        List.filter_cons_of_pos hx] at hq
      rw [List.filter_append, hnone q hx]
      exact (List.cons.inj hq).2
    · rwa [List.filter_cons_of_neg hx, List.filter_append, List.filter_cons_of_neg hx,
        ← List.filter_append] at hq

/-- **The order at each place decides the outcome.** -/
theorem Run.outcome_unique (h : Concurrent move place) {s t t' : σ} {xs ys : List ι}
    (hxs : Run move s xs t) (hys : Run move s ys t')
    (hsame : ∀ p, xs.filter (place p) = ys.filter (place p)) : t = t' := by
  induction hxs generalizing ys t' with
  | nil s =>
      cases ys with
      | nil => cases hys; rfl
      | cons y ys =>
          obtain ⟨p, hp⟩ := h.placed y
          have hnone := hsame p
          rw [List.filter_cons_of_pos hp] at hnone
          exact absurd hnone (by simp)
  | @cons s u t x xs hx _ ih =>
      obtain ⟨before, after, rfl, hapart, hrest⟩ := exists_first (h.placed x) hsame
      obtain ⟨v, hbefore, hv⟩ := append_iff.mp hys
      cases hv with
      | cons hx' hafter =>
          obtain ⟨w, hw, hrun⟩ := h.exchange hapart hx hbefore
          obtain rfl := h.deterministic hw hx'
          exact ih (append_iff.mpr ⟨_, hrun, hafter⟩) hrest

end Machine
