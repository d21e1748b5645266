import RpcBroker.Model.Waiting
/-!
# RpcBroker.Proofs.Waiting

**The idle limit is shared by all waits.** `select` leaves the time not slept in
the timer, and neither loop sets it again, so the sixty seconds are a budget the
gaps between connections are paid from. The loops never time out exactly when the
gaps add up to less (`neverTimesOut_iff`); waiting indefinitely they never do
(`waitForConnections_indefinite`).
-/

namespace RpcBroker

open CLib

variable {listening_socket : Socket} {state : FdSet × Timeval} {next : Arrival}

/-! ### One wait -/

/-- The loop goes on after a connection. -/
@[simp] theorem afterWait_connection {text : CString} {timeout : Timeval} {left : Option Timeval} :
    afterWait text listening_socket timeout (some ⟨1, [listening_socket], left⟩) =
      .ok (([listening_socket], left.getD timeout), true) := by
  simp [afterWait, waitTimeout, waitError]

/-- It ends when the timer does. -/
@[simp] theorem afterWait_timeout {text : CString} {timeout : Timeval} {readfds : FdSet}
    {left : Option Timeval} :
    afterWait text listening_socket timeout (some ⟨0, readfds, left⟩) = .error (.timeout text) := by
  simp [afterWait, waitTimeout]

/-- The time left on the timer. -/
def timeLeft (state : FdSet × Timeval) : Nat := state.2.usecs

/-- The listening socket is watched. -/
def Watched (listening_socket : Socket) (state : FdSet × Timeval) : Prop :=
  fdIsset listening_socket state.1 = true

/-- A connection the timer does not run out before is handled, and its gap comes off
the timer. -/
theorem waitForConnectionsBody_of_lt (hgap : next.gap < timeLeft state) :
    waitForConnectionsBody false listening_socket state next =
      .ok (([listening_socket], .ofUsecs (timeLeft state - next.gap)), true) := by
  have hsel : waitRdSocket false listening_socket (fdSet listening_socket fdZero) state.2 next =
      some ⟨1, [listening_socket], some (.ofUsecs (timeLeft state - next.gap))⟩ :=
    select_of_lt (fdIsset_fdSet ..) hgap
  rw [waitForConnectionsBody, hsel, afterWait_connection]
  rfl

theorem mainLoopBody_of_lt (hset : Watched listening_socket state)
    (hgap : next.gap < timeLeft state) :
    mainLoopBody false listening_socket state next =
      .ok (([listening_socket], .ofUsecs (timeLeft state - next.gap)), true) := by
  have hsel : waitOnSocket false listening_socket state.1 state.2 next =
      some ⟨1, [listening_socket], some (.ofUsecs (timeLeft state - next.gap))⟩ :=
    select_of_lt hset hgap
  rw [mainLoopBody, hsel, afterWait_connection]
  rfl

/-- A connection no earlier than the end of the timer may come too late. -/
theorem waitForConnectionsBody_of_le (hpos : 0 < next.gap) (hlate : next.late = true)
    (hgap : timeLeft state ≤ next.gap) :
    waitForConnectionsBody false listening_socket state next =
      .error (.timeout (.lit "timeout occured while waiting for incomming connections!")) := by
  have hsel : waitRdSocket false listening_socket (fdSet listening_socket fdZero) state.2 next =
      some ⟨0, [], some (.ofUsecs 0)⟩ := select_of_le hpos hlate hgap
  rw [waitForConnectionsBody, hsel, afterWait_timeout]

theorem mainLoopBody_of_le (hpos : 0 < next.gap) (hlate : next.late = true)
    (hgap : timeLeft state ≤ next.gap) :
    mainLoopBody false listening_socket state next = .error (.timeout (.lit "timeout!")) := by
  have hsel : waitOnSocket false listening_socket state.1 state.2 next =
      some ⟨0, [], some (.ofUsecs 0)⟩ := select_of_le hpos hlate hgap
  rw [mainLoopBody, hsel, afterWait_timeout]

/-! ### Runs -/

/-- Both loops get through connections whose gaps the timer covers. -/
theorem waitForConnections_returns {arrivals : List Arrival}
    (hsum : (arrivals.map Arrival.gap).sum < idleTimeout.usecs) :
    ∃ r, waitForConnections false listening_socket arrivals = .ok r := by
  refine Machine.run_within_budget (fun _ => True) timeLeft trivial hsum ?_
  intro state next _ hgap
  exact ⟨_, _, waitForConnectionsBody_of_lt hgap, trivial, Timeval.usecs_ofUsecs _⟩

theorem mainLoop_returns {arrivals : List Arrival}
    (hsum : (arrivals.map Arrival.gap).sum < idleTimeout.usecs) :
    ∃ r, mainLoop false listening_socket arrivals = .ok r := by
  refine Machine.run_within_budget (Watched listening_socket) timeLeft
    (fdIsset_fdSet listening_socket fdZero) hsum ?_
  intro state next hset hgap
  exact ⟨_, _, mainLoopBody_of_lt hset hgap, fdIsset_singleton _, Timeval.usecs_ofUsecs _⟩

/-- The broker's loop times out when they add up to sixty seconds, if no arrival is
seen in the microsecond the timer ends. -/
theorem waitForConnections_timesOut {arrivals : List Arrival}
    (hlate : ∀ next ∈ arrivals, next.late = true)
    (hsum : idleTimeout.usecs ≤ (arrivals.map Arrival.gap).sum) :
    waitForConnections false listening_socket arrivals =
      .error (.timeout (.lit "timeout occured while waiting for incomming connections!")) := by
  refine Machine.run_over_budget (fun _ => True) timeLeft trivial (by decide) hsum
    ?_ ?_
  · intro state next _ hgap
    exact ⟨_, _, waitForConnectionsBody_of_lt hgap, trivial, Timeval.usecs_ofUsecs _⟩
  · intro state next hmem _ hpos hgap
    exact waitForConnectionsBody_of_le hpos (hlate next hmem) hgap

/-- So does the server's. -/
theorem mainLoop_timesOut {arrivals : List Arrival} (hlate : ∀ next ∈ arrivals, next.late = true)
    (hsum : idleTimeout.usecs ≤ (arrivals.map Arrival.gap).sum) :
    mainLoop false listening_socket arrivals = .error (.timeout (.lit "timeout!")) := by
  have hstart : 0 < idleTimeout.usecs := by decide
  refine Machine.run_over_budget (Watched listening_socket) timeLeft
    (fdIsset_fdSet listening_socket fdZero) hstart hsum ?_ ?_
  · intro state next hset hgap
    exact ⟨_, _, mainLoopBody_of_lt hset hgap, fdIsset_singleton _, Timeval.usecs_ofUsecs _⟩
  · intro state next hmem _ hpos hgap
    exact mainLoopBody_of_le hpos (hlate next hmem) hgap

/-- Waiting indefinitely, the broker handles every connection. -/
theorem waitForConnections_indefinite (listening_socket : Socket) (arrivals : List Arrival) :
    ∃ r, waitForConnections true listening_socket arrivals = .ok r := by
  refine Machine.run_returns_iff.mpr fun _ next _ state _ _ _ => ?_
  have hsel : waitRdSocket true listening_socket (fdSet listening_socket fdZero) state.2 next =
      some ⟨1, [listening_socket], none⟩ := select_none next (fdIsset_fdSet ..)
  refine ⟨(([listening_socket], state.2), true), ?_⟩
  rw [waitForConnectionsBody, hsel, afterWait_connection]
  rfl

/-- With `waitIndef` off, neither loop takes its timeout branch on connections that
arrive with these gaps, however the close ones fall. -/
structure NeverTimesOut (gaps : List Nat) : Prop where
  broker : ∀ listening_socket arrivals text, arrivals.map Arrival.gap = gaps →
    waitForConnections false listening_socket arrivals ≠ .error (.timeout text)
  server : ∀ listening_socket arrivals text, arrivals.map Arrival.gap = gaps →
    mainLoop false listening_socket arrivals ≠ .error (.timeout text)

/-- **The sixty seconds are for all waits together**: neither loop takes its timeout
branch exactly when the gaps add up to less than sixty seconds. -/
theorem neverTimesOut_iff (gaps : List Nat) :
    NeverTimesOut gaps ↔ gaps.sum < 60 * 1000000 := by
  constructor
  · intro h
    by_contra hsum
    -- Every arrival on the very end of the timer is seen too late.
    refine h.broker 3 (gaps.map fun gap => ⟨gap, true⟩) _ (by simp [Function.comp_def])
      (waitForConnections_timesOut (by simp) ?_)
    rw [List.map_map]
    simpa [Function.comp_def, idleTimeout, Timeval.usecs] using hsum
  · intro hsum
    refine ⟨?_, ?_⟩
    · rintro listening_socket arrivals text rfl htimeout
      obtain ⟨r, hr⟩ := waitForConnections_returns hsum
      exact absurd (hr.symm.trans htimeout) (by simp)
    · rintro listening_socket arrivals text rfl htimeout
      obtain ⟨r, hr⟩ := mainLoop_returns hsum
      exact absurd (hr.symm.trans htimeout) (by simp)

/-- Two connections forty seconds apart. -/
theorem neverTimesOut_twoGaps :
    ¬ ∀ gaps : List Nat, (∀ gap ∈ gaps, gap < 60 * 1000000) → NeverTimesOut gaps := by
  intro h
  exact (h [40000000, 40000000] (by decide)).broker 3 [⟨40000000, true⟩, ⟨40000000, true⟩] _ rfl
    (waitForConnections_timesOut (by decide) (by decide))

end RpcBroker
