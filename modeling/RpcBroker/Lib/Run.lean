import RpcBroker.Lib.Schedule
/-!
# RpcBroker.Lib.Run

**Runs of a step relation**, with the labels of their steps. `Run.of_schedule` and
`Run.exists_schedule` go between the schedules of a system and the runs of an abstract one
whose states are functions of the system's: the first if every step of the system is a run
of the abstract one, which may be empty, the second if every abstract step can be taken.
-/

namespace Machine

variable {σ τ ι κ : Type*}

/-- A run, with the labels of its steps. -/
inductive Run (move : σ → ι → σ → Prop) : σ → List ι → σ → Prop
  | nil (s : σ) : Run move s [] s
  | cons {s u t : σ} {x : ι} {xs : List ι} :
      move s x u → Run move u xs t → Run move s (x :: xs) t

variable {move : σ → ι → σ → Prop}

theorem Run.single {s t : σ} {x : ι} (h : move s x t) : Run move s [x] t := .cons h (.nil t)

theorem Run.append_iff {s t : σ} {xs ys : List ι} :
    Run move s (xs ++ ys) t ↔ ∃ u, Run move s xs u ∧ Run move u ys t := by
  induction xs generalizing s with
  | nil =>
      refine ⟨fun h => ⟨s, .nil s, h⟩, ?_⟩
      intro hone
      obtain ⟨u, ⟨⟩, h⟩ := hone
      exact h
  | cons x xs ih =>
      constructor
      · intro h
        cases h with
        | cons hx hrest =>
            obtain ⟨u, hxs, hys⟩ := ih.mp hrest
            exact ⟨u, .cons hx hxs, hys⟩
      · intro h
        obtain ⟨u, hall, hys⟩ := h
        cases hall with
        | cons hx hxs => exact .cons hx (ih.mpr ⟨u, hxs, hys⟩)

variable {next : τ → κ → Option τ} {f : τ → σ}

/-- A schedule is a run whose steps are computed. -/
theorem Run.of_steps_iff {s t : τ} {xs : List κ} :
    Run (fun s x t => next s x = some t) s xs t ↔ xs.foldlM next s = some t := by
  induction xs generalizing s with
  | nil =>
      constructor
      · intro h
        obtain ⟨⟩ := h
        rfl
      · intro h
        exact Option.some.inj h ▸ .nil s
  | cons x xs ih =>
      rw [schedule_cons]
      constructor
      · intro h
        cases h with
        | cons hx hxs => exact ⟨_, hx, ih.mp hxs⟩
      · intro h
        obtain ⟨u, hx, hxs⟩ := h
        exact .cons hx (ih.mpr hxs)

/-- Every step is a run of the abstract system, so every schedule is. -/
theorem Run.of_schedule
    (hstep : ∀ s x t, next s x = some t → ∃ ys, Run move (f s) ys (f t))
    {s t : τ} {xs : List κ} (h : xs.foldlM next s = some t) : ∃ ys, Run move (f s) ys (f t) := by
  induction xs generalizing s with
  | nil =>
      obtain rfl := Option.some.inj h
      exact ⟨[], .nil _⟩
  | cons x xs ih =>
      obtain ⟨u, hx, hxs⟩ := schedule_cons.mp h
      obtain ⟨ys, hys⟩ := hstep s x u hx
      obtain ⟨zs, hzs⟩ := ih hxs
      exact ⟨ys ++ zs, append_iff.mpr ⟨f u, hys, hzs⟩⟩

/-- Every abstract step can be taken, so every run can. -/
theorem Run.exists_schedule
    (hmove : ∀ s y q, move (f s) y q → ∃ x t, next s x = some t ∧ f t = q)
    {s : τ} {p q : σ} {ys : List ι} (h : Run move p ys q) (hs : f s = p) :
    ∃ (xs : List κ) (t : τ), xs.foldlM next s = some t ∧ f t = q := by
  induction h generalizing s with
  | nil p => exact ⟨[], s, rfl, hs⟩
  | cons hy _ ih =>
      obtain ⟨x, u, hx, hu⟩ := hmove s _ _ (hs.symm ▸ hy)
      obtain ⟨xs, t, hxs, ht⟩ := ih hu
      exact ⟨x :: xs, t, schedule_cons.mpr ⟨u, hx, hxs⟩, ht⟩

/-- What every allowed step of one system can do in another is reached there, too. -/
theorem Reached.simulate {next' : τ → ι → Option τ} {allowed : τ → κ → Prop}
    {allowed' : τ → ι → Prop}
    (hstep : ∀ s x t, allowed s x → next s x = some t →
      ∃ y, allowed' s y ∧ next' s y = some t)
    {start s : τ} (h : Reached next allowed start s) : Reached next' allowed' start s := by
  induction h with
  | start => exact .start
  | @step s t x _ hallowed hnext ih =>
      obtain ⟨y, hy, hnext'⟩ := hstep s x t hallowed hnext
      exact ih.step hy hnext'

end Machine
