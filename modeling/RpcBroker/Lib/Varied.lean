import Mathlib.Data.List.Nodup
/-!
# RpcBroker.Lib.Varied

**Lists that differ in what does not matter.** `Varied p l l'` says that `l'` comes
from `l` by moving elements, by putting elements with `p` in and by taking
elements with `p` out, any number of times and at any positions.

A selection that passes over the elements with `p` is the same up to order
(`Varied.filterMap_perm`). Where the elements have keys of their own and the
selection is by a key, it is the same (`Varied.filterMap_eq`).
-/

/-- What comes from a list by moving any elements and by inserting and removing
elements with `p`. -/
inductive Varied {α : Type*} (p : α → Prop) : List α → List α → Prop
  | perm {l l' : List α} (h : l.Perm l') : Varied p l l'
  | insert {x : α} (hx : p x) (before after : List α) :
      Varied p (before ++ after) (before ++ x :: after)
  | remove {x : α} (hx : p x) (before after : List α) :
      Varied p (before ++ x :: after) (before ++ after)
  | trans {l l' l'' : List α} (h : Varied p l l') (h' : Varied p l' l'') : Varied p l l''

namespace Varied

variable {α β κ : Type*} {p : α → Prop} {l l' : List α}

/-- Elements put in behind the others. -/
theorem append {xs : List α} (hxs : ∀ x ∈ xs, p x) (l : List α) : Varied p l (l ++ xs) := by
  induction xs with
  | nil =>
      rw [List.append_nil]
      exact .perm (.refl l)
  | cons x xs ih =>
      have hrest := ih fun y hy => hxs y (List.mem_cons_of_mem _ hy)
      exact hrest.trans (.insert (hxs x (List.mem_cons_self ..)) l xs)

/-- A selection that passes over what is put in and taken out. -/
theorem filterMap_perm {f : α → Option β} (hf : ∀ x, p x → f x = none) (h : Varied p l l') :
    (l.filterMap f).Perm (l'.filterMap f) := by
  induction h with
  | perm h => exact h.filterMap f
  | insert hx before after =>
      rw [List.filterMap_append, List.filterMap_append, List.filterMap_cons_none (hf _ hx)]
  | remove hx before after =>
      rw [List.filterMap_append, List.filterMap_append, List.filterMap_cons_none (hf _ hx)]
  | trans _ _ ih ih' => exact ih.trans ih'

/-- With keys of their own, a selection by a key is a search for it. -/
theorem filterMap_eq_find? [DecidableEq κ] {key : α → κ} {k : κ} {f : α → Option β}
    (hnodup : (l.map key).Nodup) (hf : ∀ x, key x ≠ k → f x = none) :
    l.filterMap f = ((l.find? fun x => key x = k).bind f).toList := by
  induction l with
  | nil => rfl
  | cons x l ih =>
      rw [List.map_cons, List.nodup_cons] at hnodup
      by_cases hx : key x = k
      · have hrest : l.filterMap f = [] := by
          rw [List.filterMap_eq_nil_iff]
          intro y hy
          refine hf y fun hyk => hnodup.1 ?_
          rw [hx, ← hyk]
          exact List.mem_map_of_mem hy
        rw [List.find?_cons_of_pos (by simpa using hx), Option.bind_some, List.filterMap_cons, hrest]
        cases f x <;> rfl
      · rw [List.find?_cons_of_neg (by simpa using hx), List.filterMap_cons_none (hf x hx),
          ih hnodup.2]

/-- **A selection by a key does not see the difference**, if the elements have keys
of their own and what is put in and taken out has other ones. -/
theorem filterMap_eq [DecidableEq κ] {key : α → κ} {k : κ} {f : α → Option β}
    (hnodup : (l.map key).Nodup) (hf : ∀ x, key x ≠ k → f x = none)
    (hp : ∀ x, p x → key x ≠ k) (h : Varied p l l') : l'.filterMap f = l.filterMap f := by
  have hperm := h.filterMap_perm fun x hx => hf x (hp x hx)
  rw [filterMap_eq_find? hnodup hf] at hperm ⊢
  cases hfound : (l.find? fun x => key x = k).bind f with
  | none =>
      rw [hfound] at hperm
      exact List.perm_nil.mp hperm.symm
  | some y =>
      rw [hfound] at hperm
      exact List.perm_singleton.mp hperm.symm

end Varied
