import Mathlib.Data.List.Perm.Basic
import RpcBroker.Lib.Schedule
/-!
# RpcBroker.Lib.Workers

**Workers that share a state.** Inputs queue up; a worker takes the first of the queue,
does work of its own on it, gets at the shared state once, and then works on alone until
it releases an output. What a worker does is a `Job`. Any worker may take the next step,
and more of them may be started than there are inputs.

`Job.handle` is the job done from beginning to end with nobody else at work. Between two
inputs nobody works on, the pool cannot be told from one machine that handles the inputs
one after the other, in some order (`Job.quiet_iff`): the order is that in which the
workers got at the shared state (`turns`), and every order can occur. No schedule fails
exactly if the inputs can be handled in each of their orders (`Job.intact_iff`).

Lists of workers are compared up to order: a step takes one worker out and puts it back
in another place of its job (`perm_of_getElem?`, `set_perm_of_getElem?`).
-/

open scoped List

namespace Workers

/-! ### Jobs and pools -/

/-- What a worker does with an input. A part that fails ends all workers. -/
structure Job (σ ι κ ω ο ε : Type) where
  prepare : ι → Except ε κ
  /-- The one access to the shared state. -/
  access : σ → κ → σ × ω
  finish : ω → Except ε ο

variable {σ ι κ ω ο ε : Type}

/-- The job up to the access. -/
def Job.enter (job : Job σ ι κ ω ο ε) (s : σ) (x : ι) : Except ε (σ × ω) := do
  let k ← job.prepare x
  return job.access s k

/-- The whole job. -/
def Job.handle (job : Job σ ι κ ω ο ε) (s : σ) (x : ι) : Except ε (σ × ο) := do
  let (s', w) ← job.enter s x
  let out ← job.finish w
  return (s', out)

/-- Where a worker is. -/
inductive Worker (ι κ ω : Type)
  | idle
  | taken (x : ι)
  | ready (x : ι) (k : κ)
  | finishing (w : ω)
  | done

/-- The input a worker has not got at the shared state with. -/
def Worker.input? : Worker ι κ ω → Option ι
  | .taken x => some x
  | .ready x _ => some x
  | _ => none

/-- What a worker took from the shared state, until it is done. -/
def Worker.result? : Worker ι κ ω → Option ω
  | .finishing w => some w
  | _ => none

/-- Workers, their shared state and their queue. `turns` are the inputs in the order the
workers got at the shared state with them, and `released` the outputs in the order they
came out. -/
structure Pool (σ ι κ ω ο : Type) where
  shared : σ
  queue : List ι
  workers : List (Worker ι κ ω)
  turns : List ι
  released : List ο

def Pool.init (start : σ) : Pool σ ι κ ω ο := ⟨start, [], [], [], []⟩

/-- Nobody works on anything, and nothing is left to work on. -/
structure Pool.Quiet (p : Pool σ ι κ ω ο) : Prop where
  queue : p.queue = []
  idle : ∀ worker ∈ p.workers, worker = .idle ∨ worker = .done

/-- What happens next. A number is that of a worker. -/
inductive Event (ι : Type)
  | arrive (x : ι)
  /-- One more worker, while there is something in the queue. -/
  | start
  | take (i : Nat)
  | prepare (i : Nat)
  | access (i : Nat)
  | finish (i : Nat)

def Event.input? : Event ι → Option ι
  | .arrive x => some x
  | _ => none

/-- The pool after an event, if it can happen. -/
def Job.next (job : Job σ ι κ ω ο ε) (p : Pool σ ι κ ω ο) :
    Event ι → Option (Pool σ ι κ ω ο)
  | .arrive x => some { p with queue := p.queue ++ [x] }
  | .start =>
      if p.queue.isEmpty then none else some { p with workers := p.workers ++ [.idle] }
  | .take i =>
      match p.workers[i]?, p.queue with
      | some .idle, x :: queue =>
          some { p with queue := queue, workers := p.workers.set i (.taken x) }
      | _, _ => none
  | .prepare i =>
      match p.workers[i]? with
      | some (.taken x) =>
          match job.prepare x with
          | .ok k => some { p with workers := p.workers.set i (.ready x k) }
          | .error _ => none
      | _ => none
  | .access i =>
      match p.workers[i]? with
      | some (.ready x k) =>
          some { p with
            shared := (job.access p.shared k).1
            workers := p.workers.set i (.finishing (job.access p.shared k).2)
            turns := p.turns ++ [x] }
      | _ => none
  | .finish i =>
      match p.workers[i]? with
      | some (.finishing w) =>
          match job.finish w with
          | .ok out => some { p with
              workers := p.workers.set i .done
              released := p.released ++ [out] }
          | .error _ => none
      | _ => none

/-! ### The job from beginning to end -/

variable {job : Job σ ι κ ω ο ε}

theorem Job.enter_eq_ok {s s' : σ} {x : ι} {w : ω} :
    job.enter s x = .ok (s', w) ↔ ∃ k, job.prepare x = .ok k ∧ job.access s k = (s', w) := by
  rw [enter]
  cases job.prepare x with
  | error e => simp [bind, Except.bind]
  | ok k => simp [bind, Except.bind, pure, Except.pure]

theorem Job.handle_eq_ok {s s' : σ} {x : ι} {out : ο} :
    job.handle s x = .ok (s', out) ↔
      ∃ w, job.enter s x = .ok (s', w) ∧ job.finish w = .ok out := by
  rw [handle]
  rcases job.enter s x with e | ⟨t, w⟩
  · simp [bind, Except.bind]
  · cases hfinish : job.finish w with
    | error e => simp [bind, Except.bind, hfinish]
    | ok out' => simp [bind, Except.bind, pure, Except.pure, hfinish]

/-- Handling inputs one after the other is entering with one after the other, and
finishing each. -/
theorem Job.run_handle {s t : σ} {xs : List ι} {outs : List ο} :
    Machine.run job.handle s xs = .ok (t, outs) ↔
      ∃ ws, Machine.run job.enter s xs = .ok (t, ws) ∧
        List.Forall₂ (fun w out => job.finish w = .ok out) ws outs := by
  induction xs generalizing s outs with
  | nil =>
      constructor
      · intro h
        obtain ⟨rfl, rfl⟩ := Prod.mk.inj (Except.ok.inj h)
        exact ⟨[], rfl, .nil⟩
      · intro h
        obtain ⟨ws, hrun, hfinish⟩ := h
        obtain ⟨rfl, rfl⟩ := Prod.mk.inj (Except.ok.inj hrun)
        cases hfinish
        rfl
  | cons x xs ih =>
      constructor
      · intro h
        obtain ⟨u, out, outs, hx, hrest, rfl⟩ := Machine.run_cons.mp h
        obtain ⟨w, hw, hout⟩ := handle_eq_ok.mp hx
        obtain ⟨ws, hws, houts⟩ := ih.mp hrest
        exact ⟨w :: ws, Machine.run_cons.mpr ⟨u, w, ws, hw, hws, rfl⟩, .cons hout houts⟩
      · intro h
        obtain ⟨ws, hrun, hfinish⟩ := h
        obtain ⟨u, w, ws, hw, hws, rfl⟩ := Machine.run_cons.mp hrun
        obtain ⟨out, outs, hout, houts, rfl⟩ := List.forall₂_cons_left_iff.mp hfinish
        exact Machine.run_cons.mpr
          ⟨u, out, outs, handle_eq_ok.mpr ⟨w, hw, hout⟩, ih.mpr ⟨ws, hws, houts⟩, rfl⟩

/-! ### One worker of many -/

theorem perm_of_getElem? {α : Type} {l : List α} {i : Nat} {a : α} (h : l[i]? = some a) :
    l.Perm (a :: l.eraseIdx i) := by
  obtain ⟨hlt, rfl⟩ := List.getElem?_eq_some_iff.mp h
  exact (List.getElem_cons_eraseIdx_perm hlt).symm

theorem set_perm_of_getElem? {α : Type} {l : List α} {i : Nat} {a : α} (h : l[i]? = some a)
    (b : α) : (l.set i b).Perm (b :: l.eraseIdx i) :=
  List.set_perm_cons_eraseIdx (List.getElem?_eq_some_iff.mp h).1 b

/-- What an event does: the worker it moves, and `rest`, the others. -/
inductive Moves (job : Job σ ι κ ω ο ε) (p : Pool σ ι κ ω ο) : Event ι → Pool σ ι κ ω ο → Prop
  | arrive (x : ι) : Moves job p (.arrive x) { p with queue := p.queue ++ [x] }
  | start (hqueue : p.queue ≠ []) : Moves job p .start { p with workers := p.workers ++ [.idle] }
  | take {i : Nat} {x : ι} {queue : List ι} {rest workers : List (Worker ι κ ω)}
      (hqueue : p.queue = x :: queue) (hold : p.workers.Perm (.idle :: rest))
      (hnew : workers.Perm (.taken x :: rest)) :
      Moves job p (.take i) { p with queue := queue, workers := workers }
  | prepare {i : Nat} {x : ι} {k : κ} {rest workers : List (Worker ι κ ω)}
      (hprepare : job.prepare x = .ok k) (hold : p.workers.Perm (.taken x :: rest))
      (hnew : workers.Perm (.ready x k :: rest)) :
      Moves job p (.prepare i) { p with workers := workers }
  | access {i : Nat} {x : ι} {k : κ} {s : σ} {w : ω} {rest workers : List (Worker ι κ ω)}
      (haccess : job.access p.shared k = (s, w)) (hold : p.workers.Perm (.ready x k :: rest))
      (hnew : workers.Perm (.finishing w :: rest)) :
      Moves job p (.access i)
        { p with shared := s, workers := workers, turns := p.turns ++ [x] }
  | finish {i : Nat} {w : ω} {out : ο} {rest workers : List (Worker ι κ ω)}
      (hfinish : job.finish w = .ok out) (hold : p.workers.Perm (.finishing w :: rest))
      (hnew : workers.Perm (.done :: rest)) :
      Moves job p (.finish i) { p with workers := workers, released := p.released ++ [out] }

theorem Job.moves_of_next {p p' : Pool σ ι κ ω ο} {e : Event ι} (h : job.next p e = some p') :
    Moves job p e p' := by
  cases e with
  | arrive x =>
      obtain rfl := Option.some.inj h
      exact .arrive x
  | start =>
      rw [next] at h
      split at h
      · exact absurd h (by simp)
      · next hqueue =>
          obtain rfl := Option.some.inj h
          exact .start fun hnil => hqueue (List.isEmpty_iff.mpr hnil)
  | take i =>
      rw [next] at h
      split at h
      · next x queue hworker hqueue =>
          obtain rfl := Option.some.inj h
          exact .take hqueue (perm_of_getElem? hworker) (set_perm_of_getElem? hworker _)
      · exact absurd h (by simp)
  | prepare i =>
      rw [next] at h
      split at h
      · next x hworker =>
          split at h
          · next k hprepare =>
              obtain rfl := Option.some.inj h
              exact .prepare hprepare (perm_of_getElem? hworker) (set_perm_of_getElem? hworker _)
          · exact absurd h (by simp)
      · exact absurd h (by simp)
  | access i =>
      rw [next] at h
      split at h
      · next x k hworker =>
          obtain rfl := Option.some.inj h
          exact .access rfl (perm_of_getElem? hworker) (set_perm_of_getElem? hworker _)
      · exact absurd h (by simp)
  | finish i =>
      rw [next] at h
      split at h
      · next w hworker =>
          split at h
          · next out hfinish =>
              obtain rfl := Option.some.inj h
              exact .finish hfinish (perm_of_getElem? hworker) (set_perm_of_getElem? hworker _)
          · exact absurd h (by simp)
      · exact absurd h (by simp)

/-! ### Every schedule is an order -/

/-- The inputs that have arrived, wherever they are now. -/
def Pool.content (p : Pool σ ι κ ω ο) : List ι :=
  p.turns ++ p.workers.filterMap Worker.input? ++ p.queue

/-- No input is lost and none is made up. -/
theorem Moves.content {p p' : Pool σ ι κ ω ο} {e : Event ι} (h : Moves job p e p') :
    p'.content.Perm (p.content ++ e.input?.toList) := by
  cases h with
  | arrive x =>
      refine .of_eq ?_
      simp only [Pool.content, Event.input?, Option.toList_some, List.append_assoc]
  | start hqueue =>
      refine .of_eq ?_
      rw [Pool.content, List.filterMap_append]
      exact (List.append_nil _).symm ▸ (List.append_nil _).symm
  | @take i x queue rest workers hqueue hold hnew =>
      have hold' := hold.filterMap Worker.input?
      have hnew' := hnew.filterMap Worker.input?
      rw [Pool.content, Pool.content, hqueue]
      calc p.turns ++ workers.filterMap Worker.input? ++ queue
          _ ~ p.turns ++ (x :: rest.filterMap Worker.input?) ++ queue :=
            (hnew'.append_left _).append_right _
          _ ~ p.turns ++ rest.filterMap Worker.input? ++ x :: queue := by
            rw [List.append_assoc, List.append_assoc]
            exact List.perm_middle.symm.append_left _
          _ ~ p.turns ++ p.workers.filterMap Worker.input? ++ x :: queue :=
            (hold'.symm.append_left _).append_right _
          _ ~ _ := .of_eq (List.append_nil _).symm
  | @prepare i x k rest workers hprepare hold hnew =>
      have hsame : (workers.filterMap Worker.input?).Perm (p.workers.filterMap Worker.input?) :=
        (hnew.filterMap _).trans (hold.filterMap Worker.input?).symm
      exact ((hsame.append_left _).append_right _).trans (.of_eq (List.append_nil _).symm)
  | @access i x k s w rest workers haccess hold hnew =>
      have hold' := hold.filterMap Worker.input?
      have hnew' := hnew.filterMap Worker.input?
      calc p.turns ++ [x] ++ workers.filterMap Worker.input? ++ p.queue
          _ = p.turns ++ x :: workers.filterMap Worker.input? ++ p.queue := by
            rw [List.append_assoc p.turns, List.singleton_append]
          _ ~ p.turns ++ p.workers.filterMap Worker.input? ++ p.queue :=
            (((hnew'.cons x).trans hold'.symm).append_left _).append_right _
          _ ~ _ := .of_eq (List.append_nil _).symm
  | @finish i w out rest workers hfinish hold hnew =>
      have hsame : (workers.filterMap Worker.input?).Perm (p.workers.filterMap Worker.input?) :=
        (hnew.filterMap _).trans (hold.filterMap Worker.input?).symm
      exact ((hsame.append_left _).append_right _).trans (.of_eq (List.append_nil _).symm)

/-- The pool has done what a machine does that enters with the inputs in the order of
`turns`; what it would have put out has been released, or is in the hands of a worker. -/
structure Job.Serial (job : Job σ ι κ ω ο ε) (start : σ) (p : Pool σ ι κ ω ο) : Prop where
  ready : ∀ x k, .ready x k ∈ p.workers → job.prepare x = .ok k
  run : ∃ ws finished, Machine.run job.enter start p.turns = .ok (p.shared, ws) ∧
    ws.Perm (finished ++ p.workers.filterMap Worker.result?) ∧
    List.Forall₂ (fun w out => job.finish w = .ok out) finished p.released

theorem Job.Serial.init (start : σ) : job.Serial start (Pool.init start) where
  ready := by simp [Pool.init]
  run := ⟨[], [], rfl, .nil, .nil⟩

theorem Job.Serial.move {start : σ} {p p' : Pool σ ι κ ω ο} {e : Event ι}
    (hp : job.Serial start p) (h : Moves job p e p') : job.Serial start p' := by
  obtain ⟨ws, finished, hrun, hws, hfinished⟩ := hp.run
  cases h with
  | arrive x => exact ⟨hp.ready, ws, finished, hrun, hws, hfinished⟩
  | start hqueue =>
      refine ⟨?_, ws, finished, hrun, ?_, hfinished⟩
      · intro x k hmem
        rcases List.mem_append.mp hmem with hmem | hmem
        · exact hp.ready x k hmem
        · exact absurd hmem (by simp)
      · rw [List.filterMap_append]
        exact hws.trans (.of_eq (by simp [Worker.result?]))
  | @take i x queue rest workers hqueue hold hnew =>
      refine ⟨?_, ws, finished, hrun, ?_, hfinished⟩
      · intro x' k hmem
        have hrest : .ready x' k ∈ rest := by simpa using hnew.mem_iff.mp hmem
        exact hp.ready x' k (hold.mem_iff.mpr (List.mem_cons_of_mem _ hrest))
      · exact hws.trans (((hold.filterMap _).trans (hnew.filterMap Worker.result?).symm).append_left _)
  | @prepare i x k rest workers hprepare hold hnew =>
      refine ⟨?_, ws, finished, hrun, ?_, hfinished⟩
      · intro x' k' hmem
        rcases List.mem_cons.mp (hnew.mem_iff.mp hmem) with heq | hrest
        · obtain ⟨rfl, rfl⟩ := Worker.ready.inj heq
          exact hprepare
        · exact hp.ready x' k' (hold.mem_iff.mpr (List.mem_cons_of_mem _ hrest))
      · exact hws.trans (((hold.filterMap _).trans (hnew.filterMap Worker.result?).symm).append_left _)
  | @access i x k s w rest workers haccess hold hnew =>
      have hprepare := hp.ready x k (hold.mem_iff.mpr (List.mem_cons_self ..))
      have henter : job.enter p.shared x = .ok (s, w) := enter_eq_ok.mpr ⟨k, hprepare, haccess⟩
      refine ⟨?_, ws ++ [w], finished, ?_, ?_, hfinished⟩
      · intro x' k' hmem
        have hrest : .ready x' k' ∈ rest := by simpa using hnew.mem_iff.mp hmem
        exact hp.ready x' k' (hold.mem_iff.mpr (List.mem_cons_of_mem _ hrest))
      · exact Machine.run_concat.mpr ⟨p.shared, ws, w, hrun, henter, rfl⟩
      · have hold' : (p.workers.filterMap Worker.result?).Perm (rest.filterMap Worker.result?) :=
          hold.filterMap Worker.result?
        have hnew' : (workers.filterMap Worker.result?).Perm (w :: rest.filterMap Worker.result?) :=
          hnew.filterMap Worker.result?
        calc ws ++ [w]
            _ ~ w :: ws := List.perm_append_singleton w ws
            _ ~ w :: (finished ++ rest.filterMap Worker.result?) :=
              (hws.trans (hold'.append_left _)).cons w
            _ ~ finished ++ w :: rest.filterMap Worker.result? := List.perm_middle.symm
            _ ~ finished ++ workers.filterMap Worker.result? := hnew'.symm.append_left _
  | @finish i w out rest workers hfinish hold hnew =>
      refine ⟨?_, ws, finished ++ [w], hrun, ?_, ?_⟩
      · intro x' k' hmem
        have hrest : .ready x' k' ∈ rest := by simpa using hnew.mem_iff.mp hmem
        exact hp.ready x' k' (hold.mem_iff.mpr (List.mem_cons_of_mem _ hrest))
      · have hold' : (p.workers.filterMap Worker.result?).Perm (w :: rest.filterMap Worker.result?) :=
          hold.filterMap Worker.result?
        have hnew' : (workers.filterMap Worker.result?).Perm (rest.filterMap Worker.result?) :=
          hnew.filterMap Worker.result?
        rw [List.append_assoc]
        exact hws.trans ((hold'.trans (hnew'.symm.cons w)).append_left _)
      · exact List.rel_append hfinished (.cons hfinish .nil)

/-- **Any schedule**: what arrived is in the pool, and the pool has done what a machine
does that takes the inputs one after the other. -/
theorem Job.serial_of_schedule {start : σ} {p p' : Pool σ ι κ ω ο} {events : List (Event ι)}
    (hp : job.Serial start p) (h : events.foldlM job.next p = some p') :
    job.Serial start p' ∧ p'.content.Perm (p.content ++ events.filterMap Event.input?) := by
  induction events generalizing p with
  | nil =>
      obtain rfl : p = p' := Option.some.inj h
      exact ⟨hp, .of_eq (List.append_nil _).symm⟩
  | cons e events ih =>
      obtain ⟨u, he, hrest⟩ := Machine.schedule_cons.mp h
      have hmoves := moves_of_next he
      obtain ⟨hp', hcontent⟩ := ih (hp.move hmoves) hrest
      refine ⟨hp', hcontent.trans ((hmoves.content.append_right _).trans (.of_eq ?_))⟩
      rw [List.append_assoc]
      cases e <;> rfl

/-! ### Every order is a schedule -/

/-- What workers can do with what has arrived. -/
def Job.Leads (job : Job σ ι κ ω ο ε) (p p' : Pool σ ι κ ω ο) : Prop :=
  ∃ events : List (Event ι), events.filterMap Event.input? = [] ∧
    events.foldlM job.next p = some p'

theorem Job.Leads.trans {p q r : Pool σ ι κ ω ο} (hpq : job.Leads p q) (hqr : job.Leads q r) :
    job.Leads p r := by
  obtain ⟨es, hes, hpq⟩ := hpq
  obtain ⟨fs, hfs, hqr⟩ := hqr
  exact ⟨es ++ fs, by rw [List.filterMap_append, hes, hfs, List.nil_append],
    Machine.schedule_append.mpr ⟨q, hpq, hqr⟩⟩

/-- A worker of a list known up to order, and the list with another in its place. -/
theorem exists_worker {p : Pool σ ι κ ω ο} {a : Worker ι κ ω} {rest : List (Worker ι κ ω)}
    (h : p.workers.Perm (a :: rest)) :
    ∃ i, p.workers[i]? = some a ∧ ∀ b, (p.workers.set i b).Perm (b :: rest) := by
  obtain ⟨i, hi⟩ := List.mem_iff_getElem?.mp (h.mem_iff.mpr (List.mem_cons_self ..))
  have hrest : (p.workers.eraseIdx i).Perm rest := ((perm_of_getElem? hi).symm.trans h).cons_inv
  exact ⟨i, hi, fun b => (set_perm_of_getElem? hi b).trans (hrest.cons b)⟩

/-- Inputs arrive and are taken, each by a worker of its own. -/
theorem Job.take_all (job : Job σ ι κ ω ο ε) (xs : List ι) {p : Pool σ ι κ ω ο}
    (hqueue : p.queue = []) :
    ∃ events : List (Event ι), events.filterMap Event.input? = xs ∧
      events.foldlM job.next p = some { p with workers := p.workers ++ xs.map .taken } := by
  induction xs generalizing p with
  | nil => exact ⟨[], rfl, by rw [List.map_nil, List.append_nil]; rfl⟩
  | cons x xs ih =>
      obtain ⟨events, hinputs, hrun⟩ :=
        ih (p := { p with workers := p.workers ++ [.taken x] }) hqueue
      refine ⟨.arrive x :: .start :: .take p.workers.length :: events, by rw [← hinputs]; rfl, ?_⟩
      have harrive : job.next p (.arrive x) = some { p with queue := [x] } := by
        rw [next, hqueue]
        rfl
      have hstart : job.next { p with queue := [x] } .start =
          some { p with queue := [x], workers := p.workers ++ [.idle] } := rfl
      have htake : job.next { p with queue := [x], workers := p.workers ++ [.idle] }
          (.take p.workers.length) = some { p with workers := p.workers ++ [.taken x] } := by
        simp only [next, List.getElem?_concat_length, List.set_append_right, Nat.le_refl,
          Nat.sub_self, List.set_cons_zero]
        rw [← hqueue]
      rw [List.map_cons, List.append_cons]
      exact Machine.schedule_cons.mpr ⟨_, harrive,
        Machine.schedule_cons.mpr ⟨_, hstart, Machine.schedule_cons.mpr ⟨_, htake, hrun⟩⟩⟩

/-- Workers that have taken inputs get at the shared state with them, in any order. -/
theorem Job.enter_all {t : σ} {order : List ι} {ws : List ω} {p : Pool σ ι κ ω ο}
    {rest : List (Worker ι κ ω)} (hrun : Machine.run job.enter p.shared order = .ok (t, ws))
    (hworkers : p.workers.Perm (order.map .taken ++ rest)) :
    ∃ workers : List (Worker ι κ ω), workers.Perm (ws.map .finishing ++ rest) ∧
      job.Leads p { p with shared := t, workers := workers, turns := p.turns ++ order } := by
  induction order generalizing p ws rest with
  | nil =>
      obtain ⟨rfl, rfl⟩ := Prod.mk.inj (Except.ok.inj hrun)
      exact ⟨p.workers, hworkers, [], rfl, by rw [List.append_nil]; rfl⟩
  | cons x order ih =>
      obtain ⟨s, w, ws, hx, hrest, rfl⟩ := Machine.run_cons.mp hrun
      obtain ⟨k, hprepare, haccess⟩ := enter_eq_ok.mp hx
      obtain ⟨i, hi, hset⟩ := exists_worker hworkers
      have hready : (p.workers.set i (.ready x k))[i]? = some (.ready x k) :=
        List.getElem?_set_self (List.getElem?_eq_some_iff.mp hi).1
      have hlast : job.Leads p { p with
          shared := s
          workers := p.workers.set i (.finishing w)
          turns := p.turns ++ [x] } := by
        refine ⟨[.prepare i, .access i], rfl, Machine.schedule_cons.mpr
          ⟨{ p with workers := p.workers.set i (.ready x k) }, ?_,
            Machine.schedule_cons.mpr ⟨_, ?_, rfl⟩⟩⟩
        · simp only [next, hi, hprepare]
        · simp only [next, hready, haccess, List.set_set]
      have hworkers' : (p.workers.set i (.finishing w)).Perm
          (order.map .taken ++ .finishing w :: rest) :=
        (hset (.finishing w)).trans List.perm_middle.symm
      obtain ⟨workers, hperm, hleads⟩ := ih (p := { p with
        shared := s
        workers := p.workers.set i (.finishing w)
        turns := p.turns ++ [x] }) hrest hworkers'
      refine ⟨workers, hperm.trans List.perm_middle, hlast.trans ?_⟩
      rwa [List.append_assoc] at hleads

/-- Workers that are finishing release their outputs, in any order. -/
theorem Job.finish_all {ws : List ω} {outs : List ο} {p : Pool σ ι κ ω ο}
    {rest : List (Worker ι κ ω)}
    (hfinish : List.Forall₂ (fun w out => job.finish w = .ok out) ws outs)
    (hworkers : p.workers.Perm (ws.map .finishing ++ rest)) :
    ∃ workers : List (Worker ι κ ω), workers.Perm (List.replicate ws.length .done ++ rest) ∧
      job.Leads p { p with workers := workers, released := p.released ++ outs } := by
  induction hfinish generalizing p rest with
  | nil => exact ⟨p.workers, hworkers, [], rfl, by rw [List.append_nil]; rfl⟩
  | @cons w out ws outs hw _ ih =>
      obtain ⟨i, hi, hset⟩ := exists_worker hworkers
      have hlast : job.Leads p { p with
          workers := p.workers.set i .done
          released := p.released ++ [out] } := by
        refine ⟨[.finish i], rfl, Machine.schedule_cons.mpr ⟨_, ?_, rfl⟩⟩
        simp only [next, hi, hw]
      obtain ⟨workers, hperm, hleads⟩ := ih (p := { p with
        workers := p.workers.set i .done
        released := p.released ++ [out] }) ((hset .done).trans List.perm_middle.symm)
      have hdone : (List.replicate ws.length Worker.done ++ Worker.done :: rest).Perm
          (List.replicate (w :: ws).length Worker.done ++ rest) := List.perm_middle
      refine ⟨workers, hperm.trans hdone, hlast.trans ?_⟩
      rwa [List.append_assoc] at hleads

/-! ### Quiet pools -/

theorem Pool.Quiet.input?_eq_nil {p : Pool σ ι κ ω ο} (h : p.Quiet) :
    p.workers.filterMap Worker.input? = [] := by
  refine List.filterMap_eq_nil_iff.mpr fun worker hmem => ?_
  rcases h.idle worker hmem with rfl | rfl <;> rfl

theorem Pool.Quiet.result?_eq_nil {p : Pool σ ι κ ω ο} (h : p.Quiet) :
    p.workers.filterMap Worker.result? = [] := by
  refine List.filterMap_eq_nil_iff.mpr fun worker hmem => ?_
  rcases h.idle worker hmem with rfl | rfl <;> rfl

/-- **A pool is one machine that takes its inputs in some order**: what a schedule of the
workers can leave behind, with nothing left to do, is exactly what handling the inputs
one after the other leaves, in one of their orders, the outputs coming out in any. -/
theorem Job.quiet_iff {start t : σ} {xs : List ι} {outs : List ο} :
    (∃ (events : List (Event ι)) (p : Pool σ ι κ ω ο), events.filterMap Event.input? = xs ∧
      events.foldlM job.next (Pool.init start) = some p ∧ p.Quiet ∧ p.shared = t ∧
      p.released = outs) ↔
    ∃ order served, order.Perm xs ∧ served.Perm outs ∧
      Machine.run job.handle start order = .ok (t, served) := by
  constructor
  · intro h
    obtain ⟨events, p, rfl, hrun, hquiet, rfl, rfl⟩ := h
    obtain ⟨hserial, hcontent⟩ := serial_of_schedule (.init start) hrun
    obtain ⟨ws, finished, henter, hws, hfinished⟩ := hserial.run
    rw [hquiet.result?_eq_nil, List.append_nil] at hws
    rw [Pool.content, hquiet.input?_eq_nil, hquiet.queue, List.append_nil, List.append_nil]
      at hcontent
    obtain ⟨served, hserved, hperm⟩ := List.perm_comp_forall₂ hws hfinished
    exact ⟨p.turns, served, hcontent, hperm, run_handle.mpr ⟨ws, henter, hserved⟩⟩
  · intro h
    obtain ⟨order, served, horder, hserved, hrun⟩ := h
    obtain ⟨ws, henter, hfinish⟩ := run_handle.mp hrun
    -- The outputs come out in the order `outs`; `finished` are the results in that order.
    have hfinish' : List.Forall₂ (fun out w => job.finish w = .ok out) served ws :=
      hfinish.flip
    obtain ⟨finished, hfinished, hperm⟩ := List.perm_comp_forall₂ hserved.symm hfinish'
    obtain ⟨events, hinputs, htaken⟩ := job.take_all xs (p := Pool.init start) rfl
    have hall : (xs.map Worker.taken).Perm (order.map Worker.taken ++ ([] : List (Worker ι κ ω))) := by
      rw [List.append_nil]
      exact (horder.map _).symm
    obtain ⟨workers, hworkers, es, hes, hentered⟩ :=
      enter_all (p := { Pool.init start with workers := xs.map .taken }) henter hall
    obtain ⟨workers', hworkers', fs, hfs, hreleased⟩ :=
      finish_all (p := ⟨t, [], workers, order, []⟩) hfinished.flip
        (hworkers.trans ((hperm.map _).symm.append_right _))
    refine ⟨events ++ (es ++ fs), ⟨t, [], workers', order, outs⟩, ?_, ?_, ?_, rfl, rfl⟩
    · rw [List.filterMap_append, List.filterMap_append, hinputs, hes, hfs]
      exact List.append_nil xs
    · exact Machine.schedule_append.mpr ⟨_, htaken, Machine.schedule_append.mpr
        ⟨_, hentered, hreleased⟩⟩
    · refine ⟨rfl, fun worker hmem => Or.inr ?_⟩
      have hdone := hworkers'.mem_iff.mp hmem
      rw [List.append_nil] at hdone
      exact (List.mem_replicate.mp hdone).2

/-! ### Failures -/

/-- No worker is at a part of the job that fails. -/
structure Pool.Intact (job : Job σ ι κ ω ο ε) (p : Pool σ ι κ ω ο) : Prop where
  prepare : ∀ x, .taken x ∈ p.workers → ∃ k, job.prepare x = .ok k
  finish : ∀ w, .finishing w ∈ p.workers → ∃ out, job.finish w = .ok out

/-- If the inputs can be handled in each of their orders, no worker has come to a part that
fails: its input could be the next, and its turn was in the order. -/
theorem Job.Serial.intact {start : σ} {p : Pool σ ι κ ω ο} {xs : List ι}
    (hp : job.Serial start p) (hcontent : p.content.Perm xs)
    (h : ∀ order : List ι, order.Perm xs → ∃ r, Machine.run job.handle start order = .ok r) :
    p.Intact job := by
  obtain ⟨ws, finished, henter, hws, -⟩ := hp.run
  refine ⟨fun x hmem => ?_, fun w hmem => ?_⟩
  · have hinput : x ∈ p.workers.filterMap Worker.input? := List.mem_filterMap.mpr ⟨_, hmem, rfl⟩
    obtain ⟨before, after, hsplit⟩ := List.append_of_mem hinput
    -- An order in which `x` is the next.
    have hperm : p.turns ++ x :: (before ++ after ++ p.queue) ~ xs := by
      calc p.turns ++ x :: (before ++ after ++ p.queue)
          _ = p.turns ++ (x :: (before ++ after) ++ p.queue) := rfl
          _ ~ p.turns ++ (before ++ x :: after ++ p.queue) :=
            (List.perm_middle.symm.append_right _).append_left _
          _ = p.content := by rw [Pool.content, hsplit, List.append_assoc p.turns]
          _ ~ xs := hcontent
    obtain ⟨⟨t, outs⟩, hrun⟩ := h _ hperm
    obtain ⟨_, _, _, -, hrest, -⟩ := Machine.run_append.mp hrun
    obtain ⟨_, _, _, hx, -, -⟩ := Machine.run_cons.mp hrest
    obtain ⟨_, hentered, -⟩ := handle_eq_ok.mp hx
    obtain ⟨k, hk, -⟩ := enter_eq_ok.mp hentered
    exact ⟨k, hk⟩
  · have hresult : w ∈ ws := hws.mem_iff.mpr
      (List.mem_append_right _ (List.mem_filterMap.mpr ⟨_, hmem, rfl⟩))
    rw [Pool.content, List.append_assoc] at hcontent
    obtain ⟨⟨t, outs⟩, hrun⟩ := h _ hcontent
    obtain ⟨_, _, _, hturns, -, -⟩ := Machine.run_append.mp hrun
    obtain ⟨ws', henter', hfinish⟩ := run_handle.mp hturns
    obtain ⟨-, rfl⟩ := Prod.mk.inj (Except.ok.inj (henter.symm.trans henter'))
    obtain ⟨i, hi, rfl⟩ := List.getElem_of_mem hresult
    exact ⟨_, (List.forall₂_iff_get.mp hfinish).2 i hi (hfinish.length_eq ▸ hi)⟩

/-- **When no schedule of the workers fails**: exactly if the inputs can be handled one
after the other in each of their orders. -/
theorem Job.intact_iff {start : σ} {xs : List ι} :
    (∀ (events : List (Event ι)) (p : Pool σ ι κ ω ο), events.filterMap Event.input? = xs →
      events.foldlM job.next (Pool.init start) = some p → p.Intact job) ↔
    ∀ order : List ι, order.Perm xs → ∃ r, Machine.run job.handle start order = .ok r := by
  constructor
  · intro h order horder
    refine Machine.run_returns_iff.mpr ?_
    intro before x after s outs hsplit hrun
    obtain ⟨ws, henter, -⟩ := run_handle.mp hrun
    -- All inputs are taken, and those before `x` are entered with.
    obtain ⟨events, hinputs, htaken⟩ := job.take_all xs (p := Pool.init start) rfl
    have hworkers : (xs.map Worker.taken).Perm
        (before.map Worker.taken ++ (.taken x :: after.map .taken : List (Worker ι κ ω))) := by
      refine ((horder.symm.map _).trans (.of_eq ?_))
      rw [hsplit, List.map_append, List.map_cons]
    obtain ⟨workers, hperm, es, hes, hentered⟩ :=
      enter_all (p := { Pool.init start with workers := xs.map .taken }) henter hworkers
    have hreached (fs : List (Event ι)) (q : Pool σ ι κ ω ο) (hfs : fs.filterMap Event.input? = [])
        (hq : fs.foldlM job.next ⟨s, [], workers, before, []⟩ = some q) : q.Intact job := by
      refine h (events ++ (es ++ fs)) q ?_ ?_
      · rw [List.filterMap_append, List.filterMap_append, hinputs, hes, hfs]
        exact List.append_nil xs
      · exact Machine.schedule_append.mpr ⟨_, htaken, Machine.schedule_append.mpr
          ⟨_, hentered, hq⟩⟩
    have hx : workers.Perm (.taken x :: (ws.map .finishing ++ after.map .taken)) :=
      hperm.trans List.perm_middle
    obtain ⟨k, hk⟩ := (hreached [] _ rfl rfl).prepare x (hx.mem_iff.mpr (List.mem_cons_self ..))
    have hnext : Machine.run job.enter s [x] = .ok ((job.access s k).1, [(job.access s k).2]) :=
      Machine.run_cons.mpr ⟨_, _, _, enter_eq_ok.mpr ⟨k, hk, rfl⟩, rfl, rfl⟩
    obtain ⟨workers', hperm', fs, hfs, hq⟩ :=
      enter_all (p := ⟨s, [], workers, before, []⟩) hnext hx
    obtain ⟨out, hout⟩ := (hreached fs _ hfs hq).finish _
      (hperm'.mem_iff.mpr (List.mem_cons_self ..))
    exact ⟨_, handle_eq_ok.mpr ⟨_, enter_eq_ok.mpr ⟨k, hk, rfl⟩, hout⟩⟩
  · intro h events p hinputs hrun
    obtain ⟨hserial, hcontent⟩ := serial_of_schedule (.init start) hrun
    rw [hinputs] at hcontent
    exact hserial.intact hcontent h

end Workers
