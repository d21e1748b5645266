import Mathlib.Algebra.GroupWithZero.Nat
import Mathlib.Data.List.Forall2
/-!
# RpcBroker.Lib.Machine

**Runs of a machine that may fail.** A machine is a step function from a state
and an input to a new state and an output, or to an error that ends it. `run`
feeds it a list of inputs; the outputs come back one per input.

The rules below are what proofs about runs use: `run_append` cuts a run in two,
`run_returns_iff` says when it does not end in an error, `run_refines` relates it
to the run of an abstract machine that never fails, and `run_filter` compares it
with the run on some of the inputs only. `Reached` is the same for a system whose
steps are chosen among several actions, and `Reached.invariant` carries a property
along. `pipe` puts one machine behind another.
-/

namespace Machine

variable {σ ι ω ε : Type*}

/-- Feed a machine its inputs, one after the other. -/
def run (step : σ → ι → Except ε (σ × ω)) : σ → List ι → Except ε (σ × List ω)
  | s, [] => .ok (s, [])
  | s, x :: xs => do
      let (s', w) ← step s x
      let (t, ws) ← run step s' xs
      return (t, w :: ws)

variable {step : σ → ι → Except ε (σ × ω)}

@[simp] theorem run_nil (s : σ) : run step s [] = .ok (s, []) := rfl

/-- A successful run is a successful step and a successful run of the rest. -/
theorem run_cons {s t : σ} {x : ι} {xs : List ι} {ws : List ω} :
    run step s (x :: xs) = .ok (t, ws) ↔
      ∃ s' w ws', step s x = .ok (s', w) ∧ run step s' xs = .ok (t, ws') ∧ ws = w :: ws' := by
  rw [run]
  rcases hstep : step s x with e | ⟨s', w⟩
  · simp [bind, Except.bind]
  · rcases hrun : run step s' xs with e | ⟨t', ws'⟩
    · simp [bind, Except.bind, hrun]
    · simp only [bind, Except.bind, hrun, pure, Except.pure, Except.ok.injEq, Prod.mk.injEq]
      constructor
      · rintro ⟨rfl, rfl⟩
        exact ⟨s', w, ws', ⟨rfl, rfl⟩, hrun, rfl⟩
      · rintro ⟨_, _, _, ⟨rfl, rfl⟩, h, rfl⟩
        rw [hrun] at h
        simp only [Except.ok.injEq, Prod.mk.injEq] at h
        exact ⟨h.1, by rw [h.2]⟩

/-- A run over two lists is a run over the first and one over the second. -/
theorem run_append {s t : σ} {xs ys : List ι} {ws : List ω} :
    run step s (xs ++ ys) = .ok (t, ws) ↔
      ∃ u us vs, run step s xs = .ok (u, us) ∧ run step u ys = .ok (t, vs) ∧ ws = us ++ vs := by
  induction xs generalizing s ws with
  | nil =>
      constructor
      · intro h
        exact ⟨s, [], ws, rfl, h, rfl⟩
      · rintro ⟨u, us, vs, h, h', rfl⟩
        simp only [run_nil, Except.ok.injEq, Prod.mk.injEq] at h
        obtain ⟨rfl, rfl⟩ := h
        exact h'
  | cons x xs ih =>
      rw [List.cons_append, run_cons]
      constructor
      · rintro ⟨s', w, ws', hx, hrest, rfl⟩
        obtain ⟨u, us, vs, hxs, hys, rfl⟩ := ih.mp hrest
        exact ⟨u, w :: us, vs, run_cons.mpr ⟨s', w, us, hx, hxs, rfl⟩, hys, rfl⟩
      · rintro ⟨u, us, vs, h, hys, rfl⟩
        obtain ⟨s', w, us', hx, hxs, rfl⟩ := run_cons.mp h
        exact ⟨s', w, us' ++ vs, hx, ih.mpr ⟨u, us', vs, hxs, hys, rfl⟩, rfl⟩

/-- One output per input. -/
theorem run_length {s t : σ} {xs : List ι} {ws : List ω} (h : run step s xs = .ok (t, ws)) :
    ws.length = xs.length := by
  induction xs generalizing s ws with
  | nil =>
      simp only [run_nil, Except.ok.injEq, Prod.mk.injEq] at h
      rw [← h.2]
      rfl
  | cons x xs ih =>
      obtain ⟨s', w, ws', -, hrest, rfl⟩ := run_cons.mp h
      simp [ih hrest]

/-- What holds of the output of every step holds of all outputs of a run. -/
theorem run_outputs {Q : ω → Prop} {s t : σ} {xs : List ι} {ws : List ω}
    (h : run step s xs = .ok (t, ws))
    (hstep : ∀ s x s' w, step s x = .ok (s', w) → Q w) : ∀ w ∈ ws, Q w := by
  induction xs generalizing s ws with
  | nil =>
      obtain ⟨-, rfl⟩ := Prod.mk.inj (Except.ok.inj h)
      simp
  | cons x xs ih =>
      obtain ⟨s', w, ws', hx, hrest, rfl⟩ := run_cons.mp h
      exact List.forall_mem_cons.mpr ⟨hstep s x s' w hx, ih hrest⟩

/-- The step in the middle of a run, and the output it made. -/
theorem run_at {s t : σ} {xs ys : List ι} {x : ι} {ws : List ω}
    (h : run step s (xs ++ x :: ys) = .ok (t, ws)) :
    ∃ u us v w vs, run step s xs = .ok (u, us) ∧ step u x = .ok (v, w) ∧
      run step v ys = .ok (t, vs) ∧ ws[xs.length]? = some w := by
  obtain ⟨u, us, vs', hxs, hrest, rfl⟩ := run_append.mp h
  obtain ⟨v, w, vs, hstep, hys, rfl⟩ := run_cons.mp hrest
  refine ⟨u, us, v, w, vs, hxs, hstep, hys, ?_⟩
  rw [← run_length hxs, List.getElem?_append_right (Nat.le_refl _), Nat.sub_self]
  rfl

/-- A run ends in an error at its first step that does: it succeeds exactly when
every step taken in the run of what comes before it does. -/
theorem run_returns_iff {s : σ} {xs : List ι} :
    (∃ r, run step s xs = .ok r) ↔
      ∀ before x after u us, xs = before ++ x :: after → run step s before = .ok (u, us) →
        ∃ r, step u x = .ok r := by
  induction xs generalizing s with
  | nil => simp
  | cons x xs ih =>
      constructor
      · intro h before y after u us hsplit hbefore
        obtain ⟨⟨t, ws⟩, hrun⟩ := h
        rw [hsplit] at hrun
        obtain ⟨u', us', v, w, vs, hbefore', hstep, -⟩ := run_at hrun
        obtain ⟨rfl, -⟩ := Prod.mk.inj (Except.ok.inj (hbefore.symm.trans hbefore'))
        exact ⟨(v, w), hstep⟩
      · intro h
        obtain ⟨⟨s', w⟩, hx⟩ := h [] x xs s [] rfl rfl
        have hrest : ∃ r, run step s' xs = .ok r := by
          refine ih.mpr fun before y after u us hsplit hbefore => ?_
          refine h (x :: before) y after u (w :: us) (by rw [hsplit]; rfl) ?_
          exact run_cons.mpr ⟨s', w, us, hx, hbefore, rfl⟩
        obtain ⟨⟨t, ws⟩, hrun⟩ := hrest
        exact ⟨(t, w :: ws), run_cons.mpr ⟨s', w, ws, hx, hrun, rfl⟩⟩

/-- If every step of a run follows a step of an abstract machine without
errors, the run follows the abstract machine's run. The abstract machine has
inputs of its own; `reads` says which one an input stands for. -/
theorem run_refines {α β : Type*} {R : σ → α → Prop} {reads : ι → β → Prop} {f : α → β → α}
    {s t : σ} {a : α} {xs : List ι} {ys : List β} {ws : List ω}
    (h : run step s xs = .ok (t, ws)) (hreads : List.Forall₂ reads xs ys) (hs : R s a)
    (hstep : ∀ s a x y s' w, reads x y → R s a → step s x = .ok (s', w) → R s' (f a y)) :
    R t (ys.foldl f a) := by
  induction hreads generalizing s a ws with
  | nil =>
      simp only [run_nil, Except.ok.injEq, Prod.mk.injEq] at h
      exact h.1 ▸ hs
  | @cons x y xs ys hxy _ ih =>
      obtain ⟨s', w, ws', hx, hrest, rfl⟩ := run_cons.mp h
      exact ih hrest (hstep s a x y s' w hxy hs hx)

/-- The last step of a run. -/
theorem run_concat {s t : σ} {x : ι} {xs : List ι} {ws : List ω} :
    run step s (xs ++ [x]) = .ok (t, ws) ↔
      ∃ u us w, run step s xs = .ok (u, us) ∧ step u x = .ok (t, w) ∧ ws = us ++ [w] := by
  rw [run_append]
  constructor
  · intro h
    obtain ⟨u, us, vs, hxs, hx, rfl⟩ := h
    obtain ⟨t', w, ws', hstep, hnil, rfl⟩ := run_cons.mp hx
    simp only [run_nil, Except.ok.injEq, Prod.mk.injEq] at hnil
    obtain ⟨rfl, rfl⟩ := hnil
    exact ⟨u, us, w, hxs, hstep, rfl⟩
  · intro h
    obtain ⟨u, us, w, hxs, hstep, rfl⟩ := h
    exact ⟨u, us, [w], hxs, run_cons.mpr ⟨t, w, [], hstep, rfl, rfl⟩, rfl⟩

/-- The outputs of the inputs `p` keeps. -/
def keptOutputs (p : ι → Bool) (xs : List ι) (ws : List ω) : List ω :=
  ((xs.zip ws).filter fun q => p q.1).map Prod.snd

/-- **Running on some of the inputs only.** If a kept input is handled alike in
related states and a dropped one leaves the relation as it is, the machine also
gets through the kept inputs, with the same outputs on them. -/
theorem run_filter {R : σ → σ → Prop} {p : ι → Bool} {s s' t : σ} {xs : List ι}
    {ws : List ω} (h : run step s xs = .ok (s', ws)) (hst : R s t)
    (hkept : ∀ s t x s' w, x ∈ xs → p x = true → R s t → step s x = .ok (s', w) →
      ∃ t', step t x = .ok (t', w) ∧ R s' t')
    (hdropped : ∀ s t x s' w, x ∈ xs → p x = false → R s t → step s x = .ok (s', w) → R s' t) :
    ∃ t', run step t (xs.filter p) = .ok (t', keptOutputs p xs ws) ∧ R s' t' := by
  induction xs generalizing s t ws with
  | nil =>
      simp only [run_nil, Except.ok.injEq, Prod.mk.injEq] at h
      obtain ⟨rfl, rfl⟩ := h
      exact ⟨t, rfl, hst⟩
  | cons x xs ih =>
      obtain ⟨u, w, ws', hx, hrest, rfl⟩ := run_cons.mp h
      have hkept' := fun s t y s' w hy => hkept s t y s' w (List.mem_cons_of_mem x hy)
      have hdropped' := fun s t y s' w hy => hdropped s t y s' w (List.mem_cons_of_mem x hy)
      cases hp : p x with
      | true =>
          obtain ⟨t1, ht1, hR⟩ := hkept s t x u w (List.mem_cons_self ..) hp hst hx
          obtain ⟨t', ht', hR'⟩ := ih hrest hR hkept' hdropped'
          refine ⟨t', ?_, hR'⟩
          rw [List.filter_cons_of_pos hp]
          exact run_cons.mpr ⟨t1, w, _, ht1, ht', by simp [keptOutputs, hp]⟩
      | false =>
          have hR := hdropped s t x u w (List.mem_cons_self ..) hp hst hx
          -- The second machine does not see `x` and stays where it is.
          obtain ⟨t', ht', hR'⟩ := ih hrest hR hkept' hdropped'
          refine ⟨t', ?_, hR'⟩
          rw [List.filter_cons_of_neg (by simp [hp]), ht']
          simp [keptOutputs, hp]

/-- A machine that takes each input as another takes the input it stands for, with errors
of its own, runs as the other does. -/
theorem run_mapError {κ δ : Type*} {R : κ → ι → Prop} {φ : ε → δ}
    {other : σ → κ → Except δ (σ × ω)}
    (hstep : ∀ s y x, R y x → other s y = (step s x).mapError φ) {ys : List κ} {xs : List ι}
    (h : List.Forall₂ R ys xs) (s : σ) : run other s ys = (run step s xs).mapError φ := by
  induction h generalizing s with
  | nil => rfl
  | @cons y x ys xs hyx _ ih =>
      rw [run, run, hstep s y x hyx]
      rcases step s x with e | ⟨s', w⟩
      · rfl
      · simp only [Except.mapError, bind, Except.bind, ih s']
        rcases run step s' xs with e | ⟨t, ws⟩ <;> rfl

/-! ### Reachable states -/

/-- The states reached from `start` by steps each of which is `allowed` in the
state it is taken in. A step that is not enabled has no next state. -/
inductive Reached (next : σ → ι → Option σ) (allowed : σ → ι → Prop) (start : σ) : σ → Prop
  | start : Reached next allowed start start
  | step {s s' : σ} {x : ι} (h : Reached next allowed start s) (hallowed : allowed s x)
      (hstep : next s x = some s') : Reached next allowed start s'

/-- A property of the start that every allowed step keeps holds in every state
reached. -/
theorem Reached.invariant {next : σ → ι → Option σ} {allowed : σ → ι → Prop} {start s : σ}
    {P : σ → Prop} (h : Reached next allowed start s) (hstart : P start)
    (hstep : ∀ s x s', P s → allowed s x → next s x = some s' → P s') : P s := by
  induction h with
  | start => exact hstart
  | step _ hallowed hnext ih => exact hstep _ _ _ ih hallowed hnext

/-- The state after a list of steps is reached, if each of them is taken only
where it is allowed. -/
theorem Reached.of_foldlM {next sure : σ → ι → Option σ} {allowed : σ → ι → Prop} {start s s' : σ}
    (hsure : ∀ s x t, sure s x = some t → allowed s x ∧ next s x = some t)
    (h : Reached next allowed start s) {xs : List ι} (hrun : xs.foldlM sure s = some s') :
    Reached next allowed start s' := by
  induction xs generalizing s with
  | nil =>
      obtain rfl : s = s' := Option.some.inj hrun
      exact h
  | cons x xs ih =>
      rw [List.foldlM_cons, Option.bind_eq_bind, Option.bind_eq_some_iff] at hrun
      obtain ⟨t, hstep, hrest⟩ := hrun
      obtain ⟨hallowed, hnext⟩ := hsure s x t hstep
      exact ih (.step h hallowed hnext) hrest

/-! ### Runs on a budget -/

/-- If a step that costs less than the budget succeeds and takes its cost off the
budget, a run that costs less than the budget succeeds. `I` is what the steps need
to hold of the state and keep. -/
theorem run_within_budget (I : σ → Prop) (budget : σ → ℕ) {cost : ι → ℕ} {s : σ} {xs : List ι}
    (hs : I s) (hcost : (xs.map cost).sum < budget s)
    (hstep : ∀ s x, I s → cost x < budget s →
      ∃ s' w, step s x = .ok (s', w) ∧ I s' ∧ budget s' = budget s - cost x) :
    ∃ r, run step s xs = .ok r := by
  induction xs generalizing s with
  | nil => exact ⟨_, rfl⟩
  | cons x xs ih =>
      rw [List.map_cons, List.sum_cons] at hcost
      obtain ⟨s', w, hx, hs', hleft⟩ := hstep s x hs (by omega)
      obtain ⟨⟨t, ws⟩, hrest⟩ := ih hs' (by omega)
      exact ⟨_, run_cons.mpr ⟨s', w, ws, hx, hrest, rfl⟩⟩

/-- If moreover a step that costs something, and no less than the budget, ends in an
error `e`, so does a run that costs no less than the budget. -/
theorem run_over_budget (I : σ → Prop) (budget : σ → ℕ) {cost : ι → ℕ} {e : ε} {s : σ}
    {xs : List ι} (hs : I s) (hpos : 0 < budget s) (hcost : budget s ≤ (xs.map cost).sum)
    (hstep : ∀ s x, I s → cost x < budget s →
      ∃ s' w, step s x = .ok (s', w) ∧ I s' ∧ budget s' = budget s - cost x)
    (hover : ∀ s x, x ∈ xs → I s → 0 < cost x → budget s ≤ cost x → step s x = .error e) :
    run step s xs = .error e := by
  induction xs generalizing s with
  | nil =>
      simp only [List.map_nil, List.sum_nil] at hcost
      omega
  | cons x xs ih =>
      rw [List.map_cons, List.sum_cons] at hcost
      by_cases hx : cost x < budget s
      · obtain ⟨s', w, hok, hs', hleft⟩ := hstep s x hs hx
        have hrest : run step s' xs = .error e :=
          ih hs' (by omega) (by omega) fun s y hy => hover s y (List.mem_cons_of_mem x hy)
        simp [run, hok, hrest, bind, Except.bind]
      · have herr := hover s x (List.mem_cons_self ..) hs (by omega) (by omega)
        simp [run, herr, bind, Except.bind]

/-! ### Two stages -/

variable {τ κ : Type*}

/-- A machine in two stages: what the first puts out, the second takes in. -/
def pipe (f : σ → ι → Except ε (σ × κ)) (g : τ → κ → Except ε (τ × ω)) (st : σ × τ) (x : ι) :
    Except ε ((σ × τ) × ω) :=
  match f st.1 x with
  | .error e => .error e
  | .ok (s', k) =>
      match g st.2 k with
      | .error e => .error e
      | .ok (t', w) => .ok ((s', t'), w)

variable {f : σ → ι → Except ε (σ × κ)} {g : τ → κ → Except ε (τ × ω)}

theorem pipe_eq_ok {s s' : σ} {t t' : τ} {x : ι} {w : ω} :
    pipe f g (s, t) x = .ok ((s', t'), w) ↔ ∃ k, f s x = .ok (s', k) ∧ g t k = .ok (t', w) := by
  rw [pipe]
  rcases f s x with e | ⟨u, k⟩
  · simp
  · rcases hg : g t k with e | ⟨v, w'⟩
    · simp [hg]
    · simp only [Except.ok.injEq, Prod.mk.injEq, hg]
      constructor
      · intro h
        obtain ⟨⟨rfl, rfl⟩, rfl⟩ := h
        exact ⟨k, ⟨rfl, rfl⟩, hg⟩
      · intro h
        obtain ⟨k', ⟨rfl, rfl⟩, hg'⟩ := h
        obtain ⟨rfl, rfl⟩ := Prod.mk.inj (Except.ok.inj (hg.symm.trans hg'))
        exact ⟨⟨rfl, rfl⟩, rfl⟩

/-- A run of two stages is a run of the first and a run of the second on what the first
put out. -/
theorem run_pipe {s s' : σ} {t t' : τ} {xs : List ι} {ws : List ω} :
    run (pipe f g) (s, t) xs = .ok ((s', t'), ws) ↔
      ∃ ks, run f s xs = .ok (s', ks) ∧ run g t ks = .ok (t', ws) := by
  induction xs generalizing s t ws with
  | nil =>
      constructor
      · intro h
        simp only [run_nil, Except.ok.injEq, Prod.mk.injEq] at h
        obtain ⟨⟨rfl, rfl⟩, rfl⟩ := h
        exact ⟨[], rfl, rfl⟩
      · intro h
        obtain ⟨ks, hf, hg⟩ := h
        simp only [run_nil, Except.ok.injEq, Prod.mk.injEq] at hf
        obtain ⟨rfl, rfl⟩ := hf
        simp only [run_nil, Except.ok.injEq, Prod.mk.injEq] at hg
        obtain ⟨rfl, rfl⟩ := hg
        rfl
  | cons x xs ih =>
      constructor
      · intro h
        obtain ⟨⟨u, v⟩, w, ws', hx, hrest, rfl⟩ := run_cons.mp h
        obtain ⟨k, hf, hg⟩ := pipe_eq_ok.mp hx
        obtain ⟨ks, hfs, hgs⟩ := ih.mp hrest
        exact ⟨k :: ks, run_cons.mpr ⟨u, k, ks, hf, hfs, rfl⟩,
          run_cons.mpr ⟨v, w, ws', hg, hgs, rfl⟩⟩
      · intro h
        obtain ⟨ks, hf, hg⟩ := h
        obtain ⟨u, k, ks', hx, hfs, rfl⟩ := run_cons.mp hf
        obtain ⟨v, w, ws', hk, hgs, rfl⟩ := run_cons.mp hg
        exact run_cons.mpr ⟨(u, v), w, ws', pipe_eq_ok.mpr ⟨k, hx, hk⟩, ih.mpr ⟨ks', hfs, hgs⟩, rfl⟩

/-- If the first stage gets through, two stages end in an error where the second does. -/
theorem run_pipe_error {s s' : σ} {t : τ} {xs : List ι} {ks : List κ} {e : ε}
    (hf : run f s xs = .ok (s', ks)) (hg : run g t ks = .error e) :
    run (pipe f g) (s, t) xs = .error e := by
  induction xs generalizing s t ks with
  | nil =>
      simp only [run_nil, Except.ok.injEq, Prod.mk.injEq] at hf
      obtain ⟨rfl, rfl⟩ := hf
      exact absurd hg (by simp)
  | cons x xs ih =>
      obtain ⟨u, k, ks', hx, hfs, rfl⟩ := run_cons.mp hf
      rcases hk : g t k with e' | ⟨v, w⟩
      · have he : e' = e := by simpa [run, hk, bind, Except.bind] using hg
        simp [run, pipe, hx, hk, he, bind, Except.bind]
      · rcases hgs : run g v ks' with e' | ⟨t', ws⟩
        · have he : e' = e := by simpa [run, hk, hgs, bind, Except.bind] using hg
          have hrest := ih hfs (he ▸ hgs)
          simp [run, pipe, hx, hk, hrest, bind, Except.bind]
        · simp [run, hk, hgs, bind, Except.bind, pure, Except.pure] at hg

end Machine
