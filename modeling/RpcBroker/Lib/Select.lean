import Mathlib.Data.List.Basic
/-!
# RpcBroker.Lib.Select

**`select` with a timer, as Linux has it**, for one descriptor becoming readable.
The caller's descriptor set is overwritten with the descriptors that are ready,
and the caller's timer with the time not slept.

Times are whole microseconds. A descriptor that is ready at once is always seen.
One that becomes ready in the very microsecond the timer ends may be seen or not;
an `Arrival` says which.
-/

namespace CLib

/-- `struct timeval`. -/
structure Timeval where
  tv_sec : Nat
  tv_usec : Nat
  deriving DecidableEq

/-- The whole of it in microseconds. -/
def Timeval.usecs (t : Timeval) : Nat := t.tv_sec * 1000000 + t.tv_usec

/-- So many microseconds. -/
def Timeval.ofUsecs (n : Nat) : Timeval := ⟨n / 1000000, n % 1000000⟩

@[simp] theorem Timeval.usecs_ofUsecs (n : Nat) : (Timeval.ofUsecs n).usecs = n :=
  Nat.div_add_mod' n 1000000

abbrev Socket := Nat

/-- `fd_set`. -/
abbrev FdSet := List Socket

/-- `FD_ZERO`. -/
def fdZero : FdSet := []

/-- `FD_SET`. -/
def fdSet (s : Socket) (fds : FdSet) : FdSet := fds.insert s

/-- `FD_ISSET`. -/
def fdIsset (s : Socket) (fds : FdSet) : Bool := fds.contains s

/-- When a descriptor becomes readable. -/
structure Arrival where
  /-- Microseconds after the call of `select`. -/
  gap : Nat
  /-- If that is when the timer ends, the timer is seen first. -/
  late : Bool
  deriving DecidableEq

/-- A call with `limit` microseconds on its timer sees the arrival. -/
def Arrival.inTime (next : Arrival) (limit : Nat) : Bool :=
  next.gap = 0 || next.gap < limit || (next.gap = limit && !next.late)

/-- What a call of `select` returns and writes back. -/
structure Selected where
  result : Int
  readfds : FdSet
  timeout : Option Timeval
  deriving DecidableEq

/-- `select(_, readfds, NULL, NULL, timeout)` when `s` is the next to become
readable. Without a timer, a call that does not watch `s` goes on waiting. -/
def select (readfds : FdSet) (timeout : Option Timeval) (s : Socket) (next : Arrival) :
    Option Selected :=
  match timeout with
  | none => if fdIsset s readfds then some ⟨1, [s], none⟩ else none
  | some t =>
      if fdIsset s readfds && next.inTime t.usecs then
        some ⟨1, [s], some (.ofUsecs (t.usecs - next.gap))⟩
      else some ⟨0, [], some (.ofUsecs 0)⟩

@[simp] theorem fdIsset_fdSet (s : Socket) (fds : FdSet) : fdIsset s (fdSet s fds) = true := by
  simp [fdIsset, fdSet]

@[simp] theorem fdIsset_singleton (s : Socket) : fdIsset s [s] = true := by
  simp [fdIsset]

/-- An arrival before the timer ends leaves the rest of the timer. -/
theorem select_of_lt {readfds : FdSet} {t : Timeval} {s : Socket} {next : Arrival}
    (hset : fdIsset s readfds = true) (hgap : next.gap < t.usecs) :
    select readfds (some t) s next = some ⟨1, [s], some (.ofUsecs (t.usecs - next.gap))⟩ := by
  simp [select, hset, Arrival.inTime, hgap]

/-- An arrival the timer is seen before. -/
theorem select_of_le {readfds : FdSet} {t : Timeval} {s : Socket} {next : Arrival}
    (hpos : 0 < next.gap) (hlate : next.late = true) (hgap : t.usecs ≤ next.gap) :
    select readfds (some t) s next = some ⟨0, [], some (.ofUsecs 0)⟩ := by
  have hnot : next.inTime t.usecs = false := by
    simp only [Arrival.inTime, hlate, Bool.not_true, Bool.and_false, Bool.or_false,
      Bool.or_eq_false_iff, decide_eq_false_iff_not]
    omega
  simp [select, hnot]

/-- Without a timer every arrival is waited for. -/
theorem select_none {readfds : FdSet} {s : Socket} (next : Arrival)
    (hset : fdIsset s readfds = true) : select readfds none s next = some ⟨1, [s], none⟩ := by
  simp [select, hset]

end CLib
