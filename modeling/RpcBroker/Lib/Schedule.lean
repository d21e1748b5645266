import Mathlib.Algebra.GroupWithZero.Nat
import Mathlib.Data.List.Forall2
import RpcBroker.Lib.Machine
/-!
# RpcBroker.Lib.Schedule

**Schedules**: the actions of a system in the order they are taken. The state a
schedule leads to is `xs.foldlM next s`, where an action that is not enabled has no
next state. What holds in every state reached can be proved along the schedule
that reached it (`Reached.exists_schedule`).

`schedule_phases` composes the schedules for a list of items, each of which is known
to go through from every state it may meet.

`schedule_potential` is the rule for counting: if every action pays its cost out of
a potential, the costs of a whole schedule add up to no more than the potential
there was and what the actions brought in. The potential need not be a function of
the state; `P s n` says that `s` can be given the potential `n`.
-/

namespace Machine

variable {σ ι : Type*} {next : σ → ι → Option σ}

/-- A schedule of one action and then others. -/
theorem schedule_cons {s t : σ} {x : ι} {xs : List ι} :
    (x :: xs).foldlM next s = some t ↔
      ∃ u, next s x = some u ∧ xs.foldlM next u = some t := by
  rw [List.foldlM_cons, Option.bind_eq_bind, Option.bind_eq_some_iff]

/-- One schedule after the other. -/
theorem schedule_append {s t : σ} {xs ys : List ι} :
    (xs ++ ys).foldlM next s = some t ↔
      ∃ u, xs.foldlM next s = some u ∧ ys.foldlM next u = some t := by
  rw [List.foldlM_append, Option.bind_eq_bind, Option.bind_eq_some_iff]

/-- A state that is reached is reached by a schedule. -/
theorem Reached.exists_schedule {allowed : σ → ι → Prop} {start s : σ}
    (h : Reached next allowed start s) : ∃ xs : List ι, xs.foldlM next start = some s := by
  induction h with
  | start => exact ⟨[], rfl⟩
  | @step t u x _ _ hstep ih =>
      obtain ⟨xs, hxs⟩ := ih
      refine ⟨xs ++ [x], schedule_append.mpr ⟨t, hxs, schedule_cons.mpr ⟨u, hstep, rfl⟩⟩⟩

/-- **One schedule per item.** If from every state that `P` relates to what was done so
far the schedule for one more item leads to a state related to that and its result, the
schedules for all items lead to a state related to all results. -/
theorem schedule_phases {α β : Type*} {actions : α → List ι} {R : α → β → Prop}
    {P : σ → List β → Prop}
    (hphase : ∀ s done x y, P s done → R x y →
      ∃ t, (actions x).foldlM next s = some t ∧ P t (done ++ [y]))
    {s : σ} {done ys : List β} {xs : List α} (hs : P s done) (h : List.Forall₂ R xs ys) :
    ∃ t, (xs.flatMap actions).foldlM next s = some t ∧ P t (done ++ ys) := by
  induction h generalizing s done with
  | nil => exact ⟨s, rfl, by rwa [List.append_nil]⟩
  | @cons x y xs ys hxy _ ih =>
      obtain ⟨u, hx, hu⟩ := hphase s done x y hs hxy
      obtain ⟨t, hxs, ht⟩ := ih hu
      refine ⟨t, schedule_append.mpr ⟨u, hx, hxs⟩, ?_⟩
      rwa [List.append_cons]

/-- **Every action pays.** -/
theorem schedule_potential {P : σ → ℕ → Prop} {gain cost : ι → ℕ}
    (hstep : ∀ s n x t, P s n → next s x = some t →
      ∃ m, P t m ∧ m + cost x ≤ n + gain x)
    {s t : σ} {n : ℕ} {xs : List ι} (hs : P s n) (hrun : xs.foldlM next s = some t) :
    ∃ m, P t m ∧ m + (xs.map cost).sum ≤ n + (xs.map gain).sum := by
  induction xs generalizing s n with
  | nil =>
      obtain rfl : s = t := Option.some.inj hrun
      exact ⟨n, hs, Nat.le_refl _⟩
  | cons x xs ih =>
      obtain ⟨u, hx, hrest⟩ := schedule_cons.mp hrun
      obtain ⟨m, hu, hpaid⟩ := hstep s n x u hs hx
      obtain ⟨k, ht, hpaid'⟩ := ih hu hrest
      refine ⟨k, ht, ?_⟩
      rw [List.map_cons, List.map_cons, List.sum_cons, List.sum_cons]
      omega

end Machine
