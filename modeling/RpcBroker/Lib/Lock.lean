import RpcBroker.Lib.Workers
/-!
# RpcBroker.Lib.Lock

**Threads with a lock.** Inputs queue up; a thread acquires the lock, takes the first
input of the queue, looks at the shared state, works on what it saw, writes the state
back and releases the lock. Looking and writing are steps of their own, and any thread
may take the next step; a thread may also be refused the lock.

The thread that has the lock is the only one inside (`Exclusive`), so nobody writes
between its looking and its writing, and the pool cannot be told from one machine that
handles the inputs in the order of the queue (`quiet_iff`). The lock never keeps the
threads from finishing: if the machine can handle what has arrived, so can they, from
wherever they are (`exists_quiet`).
-/

open scoped List

namespace Lock

/-! ### Threads -/

/-- Where a thread is. -/
inductive Thread (σ ι : Type)
  | idle
  | holding
  | taken (x : ι)
  | loaded (x : ι) (s : σ)
  | stored
  | done

variable {σ ι ο ε : Type}

/-- The input a thread has taken and not yet handled. -/
def Thread.input? : Thread σ ι → Option ι
  | .taken x => some x
  | .loaded x _ => some x
  | _ => none

/-- A thread that has not got the lock yet, or has released it. -/
def Thread.outside : Thread σ ι → Bool
  | .idle => true
  | .done => true
  | _ => false

/-- Threads, their shared state, their lock and their queue. -/
structure Pool (σ ι ο : Type) where
  shared : σ
  locked : Bool
  queue : List ι
  threads : List (Thread σ ι)
  released : List ο

def Pool.init (start : σ) : Pool σ ι ο := ⟨start, false, [], [], []⟩

/-- Nobody works on anything, and nothing is left to work on; a thread may wait for input
with the lock. -/
structure Pool.Quiet (p : Pool σ ι ο) : Prop where
  queue : p.queue = []
  threads : ∀ t ∈ p.threads, t = .holding ∨ t.outside = true

/-- What happens next. A number is that of a thread. -/
inductive Event (ι : Type)
  | arrive (x : ι)
  /-- One more thread, while there is something in the queue. -/
  | start
  | acquire (i : Nat)
  /-- The lock is not to be had, and the thread ends. -/
  | refuse (i : Nat)
  | take (i : Nat)
  | load (i : Nat)
  | store (i : Nat)
  | release (i : Nat)

def Event.input? : Event ι → Option ι
  | .arrive x => some x
  | _ => none

/-- The pool after an event, if it can happen. -/
def next (handle : σ → ι → Except ε (σ × ο)) (p : Pool σ ι ο) : Event ι → Option (Pool σ ι ο)
  | .arrive x => some { p with queue := p.queue ++ [x] }
  | .start =>
      if p.queue.isEmpty then none else some { p with threads := p.threads ++ [.idle] }
  | .acquire i =>
      match p.threads[i]?, p.locked with
      | some .idle, false => some { p with locked := true, threads := p.threads.set i .holding }
      | _, _ => none
  | .refuse i =>
      match p.threads[i]? with
      | some .idle => some { p with threads := p.threads.set i .done }
      | _ => none
  | .take i =>
      match p.threads[i]?, p.queue with
      | some .holding, x :: queue =>
          some { p with queue := queue, threads := p.threads.set i (.taken x) }
      | _, _ => none
  | .load i =>
      match p.threads[i]? with
      | some (.taken x) => some { p with threads := p.threads.set i (.loaded x p.shared) }
      | _ => none
  | .store i =>
      match p.threads[i]? with
      | some (.loaded x s) =>
          match handle s x with
          | .ok (s', out) => some { p with
              shared := s'
              threads := p.threads.set i .stored
              released := p.released ++ [out] }
          | .error _ => none
      | _ => none
  | .release i =>
      match p.threads[i]? with
      | some .stored => some { p with locked := false, threads := p.threads.set i .done }
      | _ => none

variable {handle : σ → ι → Except ε (σ × ο)} {start : σ} {p q : Pool σ ι ο}

/-! ### One thread inside -/

/-- `holder` is the thread with the lock, if there is one, and all others are outside. -/
structure Exclusive (p : Pool σ ι ο) (holder : Option (Thread σ ι)) : Prop where
  locked : p.locked = holder.isSome
  inside : ∀ t ∈ holder, t.outside = false
  threads : ∃ rest, p.threads ~ holder.toList ++ rest ∧ ∀ t ∈ rest, t.outside = true

variable {holder : Option (Thread σ ι)} {i : Nat} {t u : Thread σ ι}

/-- A thread that is inside is the only one. -/
theorem Exclusive.only (h : Exclusive p holder) (hi : p.threads[i]? = some t)
    (ht : t.outside = false) :
    holder = some t ∧ ∀ u ∈ p.threads.eraseIdx i, u.outside = true := by
  obtain ⟨rest, hperm, hrest⟩ := h.threads
  have hmem : t ∈ holder.toList ++ rest := hperm.mem_iff.mp (List.mem_of_getElem? hi)
  have hholder : holder = some t := by
    rcases List.mem_append.mp hmem with hmem | hmem
    · exact Option.mem_toList.mp hmem
    · exact absurd (ht.symm.trans (hrest t hmem)) (by simp)
  subst hholder
  have hothers : p.threads.eraseIdx i ~ rest :=
    ((Workers.perm_of_getElem? hi).symm.trans hperm).cons_inv
  exact ⟨rfl, fun u hu => hrest u (hothers.mem_iff.mp hu)⟩

/-- It goes on. -/
theorem Exclusive.advance (h : Exclusive p holder) (hi : p.threads[i]? = some t)
    (ht : t.outside = false) (hu : u.outside = false) {s : σ} {queue : List ι}
    {released : List ο} :
    Exclusive ⟨s, p.locked, queue, p.threads.set i u, released⟩ (some u) := by
  obtain ⟨rfl, hothers⟩ := h.only hi ht
  exact ⟨h.locked, fun v hv => Option.some.inj hv ▸ hu,
    ⟨_, Workers.set_perm_of_getElem? hi u, hothers⟩⟩

/-- It releases the lock. -/
theorem Exclusive.release (h : Exclusive p holder) (hi : p.threads[i]? = some t)
    (ht : t.outside = false) :
    Exclusive { p with locked := false, threads := p.threads.set i .done } none := by
  obtain ⟨rfl, hothers⟩ := h.only hi ht
  refine ⟨rfl, by simp, ⟨_, Workers.set_perm_of_getElem? hi .done, ?_⟩⟩
  exact List.forall_mem_cons.mpr ⟨rfl, hothers⟩

/-- A thread acquires the lock. -/
theorem Exclusive.acquire (h : Exclusive p none) (hi : p.threads[i]? = some t) :
    Exclusive { p with locked := true, threads := p.threads.set i .holding } (some .holding) := by
  obtain ⟨rest, hperm, hrest⟩ := h.threads
  refine ⟨rfl, fun v hv => Option.some.inj hv ▸ rfl,
    ⟨_, Workers.set_perm_of_getElem? hi .holding, ?_⟩⟩
  exact fun u hu => hrest u (hperm.mem_iff.mp (List.mem_of_mem_eraseIdx hu))

/-- A thread outside goes on to another place outside. -/
theorem Exclusive.move (h : Exclusive p holder) (hi : p.threads[i]? = some t)
    (ht : t.outside = true) (hu : u.outside = true) :
    Exclusive { p with threads := p.threads.set i u } holder := by
  obtain ⟨rest, hperm, hrest⟩ := h.threads
  have hmem : t ∈ rest := by
    rcases List.mem_append.mp (hperm.mem_iff.mp (List.mem_of_getElem? hi)) with hmem | hmem
    · exact absurd (ht.symm.trans (h.inside t (Option.mem_toList.mp hmem))) (by simp)
    · exact hmem
  obtain ⟨front, back, rfl⟩ := List.append_of_mem hmem
  have hothers : p.threads.eraseIdx i ~ holder.toList ++ (front ++ back) := by
    refine (List.Perm.cons_inv (a := t) ?_)
    calc t :: p.threads.eraseIdx i
        _ ~ p.threads := (Workers.perm_of_getElem? hi).symm
        _ ~ holder.toList ++ (front ++ t :: back) := hperm
        _ ~ holder.toList ++ t :: (front ++ back) := List.perm_middle.append_left _
        _ ~ t :: (holder.toList ++ (front ++ back)) := List.perm_middle
  refine ⟨h.locked, h.inside, ⟨u :: (front ++ back), ?_, ?_⟩⟩
  · calc p.threads.set i u
        _ ~ u :: p.threads.eraseIdx i := Workers.set_perm_of_getElem? hi u
        _ ~ u :: (holder.toList ++ (front ++ back)) := hothers.cons u
        _ ~ holder.toList ++ u :: (front ++ back) := List.perm_middle.symm
  · intro v hv
    rcases List.mem_cons.mp hv with rfl | hv
    · exact hu
    · refine hrest v (List.mem_append.mpr ?_)
      exact (List.mem_append.mp hv).imp_right (List.mem_cons_of_mem t)

/-- There is one more thread. -/
theorem Exclusive.grow (h : Exclusive p holder) :
    Exclusive { p with threads := p.threads ++ [.idle] } holder := by
  obtain ⟨rest, hperm, hrest⟩ := h.threads
  refine ⟨h.locked, h.inside, ⟨rest ++ [.idle], ?_, ?_⟩⟩
  · exact (hperm.append_right _).trans (.of_eq (List.append_assoc ..))
  · exact List.forall_mem_append.mpr ⟨hrest, fun u hu => List.mem_singleton.mp hu ▸ rfl⟩

/-! ### Every schedule is the machine's run -/

/-- What the pool has done: the inputs before the one that is taken and those that queue
up have been handled one after the other. -/
structure Serial (handle : σ → ι → Except ε (σ × ο)) (start : σ) (arrived : List ι)
    (p : Pool σ ι ο) (holder : Option (Thread σ ι)) : Prop extends Exclusive p holder where
  served : ∃ handled, Machine.run handle start handled = .ok (p.shared, p.released) ∧
    arrived = handled ++ (holder.bind Thread.input?).toList ++ p.queue
  loaded : ∀ x s, holder = some (.loaded x s) → s = p.shared

variable {arrived : List ι}

theorem serial_init : Serial handle start [] (.init start) none where
  locked := rfl
  inside := by simp
  threads := ⟨[], .nil, by simp⟩
  served := ⟨[], rfl, rfl⟩
  loaded := by simp

/-- Nothing arrives, nothing is written, and what is taken was in the queue. -/
theorem Serial.keep {holder' : Option (Thread σ ι)} (h : Serial handle start arrived p holder)
    (hq : Exclusive q holder') (hshared : q.shared = p.shared) (hreleased : q.released = p.released)
    (hinputs : (holder'.bind Thread.input?).toList ++ q.queue =
      (holder.bind Thread.input?).toList ++ p.queue)
    (hloaded : ∀ x s, holder' = some (.loaded x s) → s = q.shared) :
    Serial handle start (arrived ++ []) q holder' := by
  obtain ⟨handled, hrun, harrived⟩ := h.served
  refine { hq with served := ⟨handled, ?_, ?_⟩, loaded := hloaded }
  · rw [hshared, hreleased, hrun]
  · rw [List.append_nil, harrived, List.append_assoc, List.append_assoc, hinputs]

/-- **One event.** -/
theorem Serial.next (h : Serial handle start arrived p holder) {e : Event ι}
    (hnext : Lock.next handle p e = some q) :
    ∃ holder', Serial handle start (arrived ++ e.input?.toList) q holder' := by
  obtain ⟨handled, hrun, harrived⟩ := h.served
  cases e with
  | arrive x =>
      obtain rfl := Option.some.inj hnext
      exact ⟨holder, { h with
        served := ⟨handled, hrun, by rw [harrived, List.append_assoc]; rfl⟩ }⟩
  | start =>
      rw [Lock.next] at hnext
      split at hnext
      next => exact absurd hnext (by simp)
      next =>
          obtain rfl := Option.some.inj hnext
          exact ⟨holder, h.keep h.toExclusive.grow rfl rfl rfl h.loaded⟩
  | acquire i =>
      rw [Lock.next] at hnext
      split at hnext
      next hi hfree =>
          obtain rfl := Option.some.inj hnext
          obtain rfl : holder = none := by
            rw [h.locked] at hfree
            exact Option.not_isSome_iff_eq_none.mp (by rw [hfree]; simp)
          exact ⟨_, h.keep (h.toExclusive.acquire hi) rfl rfl rfl (by simp)⟩
      next => exact absurd hnext (by simp)
  | refuse i =>
      rw [Lock.next] at hnext
      split at hnext
      next hi =>
          obtain rfl := Option.some.inj hnext
          exact ⟨holder, h.keep (h.toExclusive.move hi rfl rfl) rfl rfl rfl h.loaded⟩
      next => exact absurd hnext (by simp)
  | take i =>
      rw [Lock.next] at hnext
      split at hnext
      next x queue hi hqueue =>
          obtain rfl := Option.some.inj hnext
          obtain ⟨rfl, -⟩ := h.only hi rfl
          have hinputs : [x] ++ queue = [] ++ p.queue := by rw [hqueue, List.nil_append]; rfl
          exact ⟨_, h.keep (h.toExclusive.advance hi rfl rfl) rfl rfl hinputs (by simp)⟩
      next => exact absurd hnext (by simp)
  | load i =>
      rw [Lock.next] at hnext
      split at hnext
      next x hi =>
          obtain rfl := Option.some.inj hnext
          obtain ⟨rfl, -⟩ := h.only hi rfl
          exact ⟨_, h.keep (h.toExclusive.advance hi rfl rfl) rfl rfl rfl (by simp)⟩
      next => exact absurd hnext (by simp)
  | store i =>
      rw [Lock.next] at hnext
      split at hnext
      next x s hi =>
          split at hnext
          next s' out hhandle =>
              obtain rfl := Option.some.inj hnext
              obtain ⟨rfl, -⟩ := h.only hi rfl
              -- Nobody has written since the thread looked.
              obtain rfl := h.loaded x s rfl
              exact ⟨_, { h.toExclusive.advance hi rfl rfl with
                served := ⟨handled ++ [x],
                  Machine.run_concat.mpr ⟨_, _, _, hrun, hhandle, rfl⟩, by
                  rw [harrived]
                  simp [Event.input?, Thread.input?]⟩
                loaded := by simp }⟩
          next => exact absurd hnext (by simp)
      next => exact absurd hnext (by simp)
  | release i =>
      rw [Lock.next] at hnext
      split at hnext
      next hi =>
          obtain rfl := Option.some.inj hnext
          obtain ⟨rfl, -⟩ := h.only hi rfl
          exact ⟨none, h.keep (h.toExclusive.release hi rfl) rfl rfl rfl (by simp)⟩
      next => exact absurd hnext (by simp)

theorem Serial.schedule {events : List (Event ι)} (h : Serial handle start arrived p holder)
    (hevents : events.foldlM (Lock.next handle) p = some q) :
    ∃ holder', Serial handle start (arrived ++ events.filterMap Event.input?) q holder' := by
  induction events generalizing p arrived holder with
  | nil =>
      obtain rfl := Option.some.inj hevents
      exact ⟨holder, by rwa [List.filterMap_nil, List.append_nil]⟩
  | cons e events ih =>
      obtain ⟨r, he, hrest⟩ := Machine.schedule_cons.mp hevents
      obtain ⟨holder', hr⟩ := h.next he
      obtain ⟨holder'', hq⟩ := ih hr hrest
      refine ⟨holder'', ?_⟩
      have hinputs : (e :: events).filterMap Event.input? =
          e.input?.toList ++ events.filterMap Event.input? := by
        cases hin : e.input? with
        | none => rw [List.filterMap_cons_none hin]; rfl
        | some x => rw [List.filterMap_cons_some hin]; rfl
      rw [hinputs, ← List.append_assoc]
      exact hq

/-- A pool at rest has handled what arrived. -/
theorem Serial.quiet (h : Serial handle start arrived p holder) (hquiet : p.Quiet) :
    Machine.run handle start arrived = .ok (p.shared, p.released) := by
  obtain ⟨handled, hrun, harrived⟩ := h.served
  obtain ⟨rest, hperm, -⟩ := h.threads
  have hnone : holder.bind Thread.input? = none := by
    cases holder with
    | none => rfl
    | some t =>
        have hmem : t ∈ p.threads := hperm.mem_iff.mpr (List.mem_cons_self ..)
        rcases hquiet.threads t hmem with rfl | ht
        · rfl
        · exact absurd ((h.inside t rfl).symm.trans ht) (by simp)
  rw [harrived, hnone, hquiet.queue]
  simpa using hrun

/-! ### No deadlock -/

/-- The threads can come to rest without further input. -/
def CanFinish (handle : σ → ι → Except ε (σ × ο)) (p : Pool σ ι ο) : Prop :=
  ∃ (events : List (Event ι)) (q : Pool σ ι ο), events.filterMap Event.input? = [] ∧
    events.foldlM (Lock.next handle) p = some q ∧ q.Quiet

/-- How far the thread with the lock is from releasing it, and one more. -/
def stepsLeft : Option (Thread σ ι) → Nat
  | some (.taken _) => 4
  | some (.loaded ..) => 3
  | some .stored => 2
  | none => 1
  | _ => 0

/-- How far the pool is from having nothing to do. -/
def workLeft (p : Pool σ ι ο) (holder : Option (Thread σ ι)) : Nat :=
  5 * p.queue.length + stepsLeft holder

/-- The thread inside after an event. -/
theorem Serial.goes (h : Serial handle start arrived p holder) {e : Event ι}
    (he : e.input? = none) (hnext : Lock.next handle p e = some q)
    (hi : q.threads[i]? = some u) (hu : u.outside = false) :
    Serial handle start arrived q (some u) := by
  obtain ⟨holder', hq⟩ := h.next hnext
  obtain ⟨rfl, -⟩ := hq.only hi hu
  rwa [he, Option.toList_none, List.append_nil] at hq

/-- **The thread inside can go on**, unless it waits for input. -/
theorem Serial.inside_progress (h : Serial handle start arrived p (some t)) {s : σ}
    {outs : List ο} (hrun : Machine.run handle start arrived = .ok (s, outs))
    (hwaits : t = .holding → p.queue ≠ []) :
    ∃ (e : Event ι) (q : Pool σ ι ο) (holder' : Option (Thread σ ι)), e.input? = none ∧
      Lock.next handle p e = some q ∧ Serial handle start arrived q holder' ∧
        workLeft q holder' < workLeft p (some t) := by
  obtain ⟨rest, hperm, -⟩ := h.threads
  obtain ⟨i, hi⟩ := List.mem_iff_getElem?.mp (hperm.mem_iff.mpr (List.mem_cons_self ..))
  have hlt := (List.getElem?_eq_some_iff.mp hi).1
  have hset (u : Thread σ ι) : (p.threads.set i u)[i]? = some u := by
    rw [List.getElem?_set_self hlt]
  cases t with
  | idle => exact absurd (h.inside _ rfl) (by simp [Thread.outside])
  | done => exact absurd (h.inside _ rfl) (by simp [Thread.outside])
  | holding =>
      obtain ⟨x, queue, hqueue⟩ := List.exists_cons_of_ne_nil (hwaits rfl)
      have hnext : Lock.next handle p (.take i) =
          some { p with queue := queue, threads := p.threads.set i (.taken x) } := by
        simp only [Lock.next, hi, hqueue]
      refine ⟨.take i, _, _, rfl, hnext, h.goes rfl hnext (hset _) rfl, ?_⟩
      simp only [workLeft, stepsLeft, hqueue, List.length_cons]
      omega
  | taken x =>
      have hnext : Lock.next handle p (.load i) =
          some { p with threads := p.threads.set i (.loaded x p.shared) } := by
        simp only [Lock.next, hi]
      refine ⟨.load i, _, _, rfl, hnext, h.goes rfl hnext (hset _) rfl, ?_⟩
      simp only [workLeft, stepsLeft]
      omega
  | loaded x seen =>
      obtain ⟨handled, hhandled, harrived⟩ := h.served
      obtain rfl := h.loaded x seen rfl
      rw [harrived, List.append_assoc] at hrun
      obtain ⟨_, _, _, hbefore, hafter, -⟩ := Machine.run_append.mp hrun
      obtain ⟨rfl, -⟩ := Prod.mk.inj (Except.ok.inj (hbefore.symm.trans hhandled))
      obtain ⟨s', out, _, hhandle, -, -⟩ := Machine.run_cons.mp hafter
      have hnext : Lock.next handle p (.store i) = some { p with
          shared := s'
          threads := p.threads.set i .stored
          released := p.released ++ [out] } := by
        simp only [Lock.next, hi, hhandle]
      refine ⟨.store i, _, _, rfl, hnext, h.goes rfl hnext (hset _) rfl, ?_⟩
      simp only [workLeft, stepsLeft]
      omega
  | stored =>
      have hnext : Lock.next handle p (.release i) =
          some { p with locked := false, threads := p.threads.set i .done } := by
        simp only [Lock.next, hi]
      obtain ⟨holder', hq⟩ := h.next hnext
      obtain rfl : holder' = none := by
        have hfree := hq.locked
        exact Option.not_isSome_iff_eq_none.mp (by rw [← hfree]; simp)
      rw [show (Event.release i : Event ι).input? = none from rfl, Option.toList_none,
        List.append_nil] at hq
      refine ⟨.release i, _, _, rfl, hnext, hq, ?_⟩
      simp only [workLeft, stepsLeft]
      omega

/-- With nobody inside and something in the queue, a new thread can acquire the lock. -/
theorem Serial.outside_progress (h : Serial handle start arrived p none) (hqueue : p.queue ≠ []) :
    ∃ (q : Pool σ ι ο),
      [Event.start, .acquire p.threads.length].foldlM (Lock.next handle) p = some q ∧
        Serial handle start arrived q (some .holding) ∧ q.queue = p.queue := by
  have hstart : Lock.next handle p .start = some { p with threads := p.threads ++ [.idle] } :=
    if_neg fun hempty => hqueue (List.isEmpty_iff.mp hempty)
  obtain ⟨holder', hgrown⟩ := h.next hstart
  have hidle : (p.threads ++ [Thread.idle])[p.threads.length]? = some .idle := by simp
  have hfree : p.locked = false := h.locked
  have hnext : Lock.next handle { p with threads := p.threads ++ [.idle] }
      (.acquire p.threads.length) = some { p with
        locked := true
        threads := (p.threads ++ [Thread.idle]).set p.threads.length .holding } := by
    simp only [Lock.next, hidle, hfree]
  have hholding : ((p.threads ++ [Thread.idle]).set p.threads.length .holding)[
      p.threads.length]? = some .holding := by simp
  refine ⟨_, Machine.schedule_cons.mpr ⟨_, hstart, Machine.schedule_cons.mpr ⟨_, hnext, rfl⟩⟩,
    ?_, rfl⟩
  rw [show (Event.start : Event ι).input? = none from rfl, Option.toList_none,
    List.append_nil] at hgrown
  exact hgrown.goes rfl hnext hholding rfl

/-- **There is always something that can be done.** -/
theorem Serial.progress (h : Serial handle start arrived p holder) {s : σ} {outs : List ο}
    (hrun : Machine.run handle start arrived = .ok (s, outs)) (hquiet : ¬ p.Quiet) :
    ∃ (events : List (Event ι)) (q : Pool σ ι ο) (holder' : Option (Thread σ ι)),
      events.filterMap Event.input? = [] ∧ events.foldlM (Lock.next handle) p = some q ∧
        Serial handle start arrived q holder' ∧ workLeft q holder' < workLeft p holder := by
  obtain ⟨rest, hperm, hrest⟩ := h.threads
  cases holder with
  | none =>
      have hqueue : p.queue ≠ [] := fun hqueue =>
        hquiet ⟨hqueue, fun t ht => .inr (hrest t (hperm.mem_iff.mp ht))⟩
      obtain ⟨q, hevents, hq, hsame⟩ := h.outside_progress hqueue
      refine ⟨_, q, _, rfl, hevents, hq, ?_⟩
      simp only [workLeft, stepsLeft, hsame]
      omega
  | some t =>
      have hwaits : t = .holding → p.queue ≠ [] := by
        intro ht hqueue
        refine hquiet ⟨hqueue, fun u hu => ?_⟩
        rcases List.mem_cons.mp (hperm.mem_iff.mp hu) with rfl | hu
        · exact .inl ht
        · exact .inr (hrest u hu)
      obtain ⟨e, q, holder', he, hnext, hq, hless⟩ := h.inside_progress hrun hwaits
      exact ⟨[e], q, holder', by rw [List.filterMap_cons_none he]; rfl,
        Machine.schedule_cons.mpr ⟨q, hnext, rfl⟩, hq, hless⟩

/-- **The lock does not keep the threads from finishing.** -/
theorem Serial.canFinish (h : Serial handle start arrived p holder) {s : σ} {outs : List ο}
    (hrun : Machine.run handle start arrived = .ok (s, outs)) : CanFinish handle p := by
  induction hn : workLeft p holder using Nat.strongRecOn generalizing p holder with
  | ind n ih =>
      by_cases hquiet : p.Quiet
      · exact ⟨[], p, rfl, rfl, hquiet⟩
      · obtain ⟨events, q, holder', hinputs, hevents, hq, hless⟩ := h.progress hrun hquiet
        obtain ⟨more, r, hmore, hrest, hr⟩ := ih _ (hn ▸ hless) hq rfl
        exact ⟨events ++ more, r, by rw [List.filterMap_append, hinputs, hmore]; rfl,
          Machine.schedule_append.mpr ⟨q, hevents, hrest⟩, hr⟩

/-! ### The results -/

/-- **From wherever they are, the threads can come to rest** as the machine does with what
has arrived. -/
theorem exists_quiet {events : List (Event ι)} {s : σ} {outs : List ο}
    (hevents : events.foldlM (Lock.next handle) (.init start) = some p)
    (hrun : Machine.run handle start (events.filterMap Event.input?) = .ok (s, outs)) :
    ∃ (more : List (Event ι)) (q : Pool σ ι ο), more.filterMap Event.input? = [] ∧
      more.foldlM (Lock.next handle) p = some q ∧ q.Quiet ∧ q.shared = s ∧ q.released = outs := by
  obtain ⟨holder, hp⟩ := serial_init.schedule hevents
  rw [List.nil_append] at hp
  obtain ⟨more, q, hnone, hmore, hquiet⟩ := hp.canFinish hrun
  obtain ⟨holder', hq⟩ := hp.schedule hmore
  rw [hnone, List.append_nil] at hq
  obtain ⟨hshared, hreleased⟩ := Prod.mk.inj (Except.ok.inj ((hq.quiet hquiet).symm.trans hrun))
  exact ⟨more, q, hnone, hmore, hquiet, hshared, hreleased⟩

/-- Everything may arrive before a thread is started. -/
theorem schedule_arrive (xs : List ι) (p : Pool σ ι ο) :
    (xs.map Event.arrive).foldlM (Lock.next handle) p = some { p with queue := p.queue ++ xs } := by
  induction xs generalizing p with
  | nil => simp
  | cons x xs ih =>
      refine Machine.schedule_cons.mpr ⟨_, rfl, (ih _).trans ?_⟩
      simp

/-- **The threads are one machine**: what any schedule of them leaves behind when nobody
works on anything is what the machine leaves that handles the inputs in the order they
arrived in. -/
theorem quiet_iff {xs : List ι} {s : σ} {outs : List ο} :
    (∃ (events : List (Event ι)) (p : Pool σ ι ο), events.filterMap Event.input? = xs ∧
      events.foldlM (Lock.next handle) (.init start) = some p ∧ p.Quiet ∧ p.shared = s ∧
        p.released = outs) ↔
      Machine.run handle start xs = .ok (s, outs) := by
  constructor
  · intro h
    obtain ⟨events, p, rfl, hevents, hquiet, rfl, rfl⟩ := h
    obtain ⟨holder, hp⟩ := serial_init.schedule hevents
    exact hp.quiet hquiet
  · intro hrun
    have hinputs : (xs.map Event.arrive).filterMap Event.input? = xs := by
      rw [List.filterMap_map]
      exact List.filterMap_some
    have harrive : (xs.map Event.arrive).foldlM (Lock.next handle) (.init start) = some _ :=
      schedule_arrive xs _
    obtain ⟨more, q, hnone, hmore, hquiet, hshared, hreleased⟩ :=
      exists_quiet harrive (hinputs.symm ▸ hrun)
    refine ⟨xs.map Event.arrive ++ more, q, ?_, Machine.schedule_append.mpr ⟨_, harrive, hmore⟩,
      hquiet, hshared, hreleased⟩
    rw [List.filterMap_append, hinputs, hnone, List.append_nil]

end Lock
