import RpcBroker.Lib.CValue
import RpcBroker.Lib.Machine
import RpcBroker.Lib.Select
/-!
# RpcBroker.Model.Waiting

**Waiting for connections**: the loops of `wait_for_connections` (`broker.c`) and
of the server's `main` (`server.c`), and the two wrappers of `select` they call.

Each loop sets its timer once, before it starts, and passes it to every `select`
by pointer. A connection is what makes the listening socket readable; handling it
is left to a thread and is no part of the loop. `netError(1, ...)` ends the
process with its text.
-/

namespace RpcBroker

open CLib

/-- `_WAIT_TIMEOUT`. -/
def waitTimeout : Int := 0

/-- `WAIT_ERROR`. -/
def waitError : Int := -1

/-- How a loop ends. -/
inductive WaitEnd
  | timeout (text : CString)
  | selectError (text : CString)
  /-- The call of `select` does not return. -/
  | blocked
  deriving DecidableEq

/-- The timer both loops start with. -/
def idleTimeout : Timeval := ⟨60, 0⟩

/-- `wait_rd_socket`: the timer is passed on unless the program waits
indefinitely. -/
def waitRdSocket (waitIndef : Bool) (listening_socket : Socket) (rd_fds : FdSet)
    (timeout : Timeval) (next : Arrival) : Option Selected :=
  if waitIndef then select rd_fds none listening_socket next
  else select rd_fds (some timeout) listening_socket next

/-- `wait_on_socket`. -/
def waitOnSocket (waitIndef : Bool) (listening_socket : Socket) (read_file_descriptors : FdSet)
    (timeout : Timeval) (next : Arrival) : Option Selected :=
  waitRdSocket waitIndef listening_socket read_file_descriptors timeout next

/-- What a loop does with the result of `select`: end, or go on with the descriptors
and the timer as they are now. It says whether there was a connection to handle. -/
def afterWait (timeoutText : CString) (listening_socket : Socket) (timeout : Timeval) :
    Option Selected → Except WaitEnd ((FdSet × Timeval) × Bool)
  | none => .error .blocked
  | some sel =>
      if sel.result = waitTimeout then .error (.timeout timeoutText)
      else if sel.result = waitError then .error (.selectError (.lit "select error!!"))
      else
        .ok ((sel.readfds, sel.timeout.getD timeout), fdIsset listening_socket sel.readfds)

/-- The body of the loop of `wait_for_connections`, which builds its descriptor set
anew each time. -/
def waitForConnectionsBody (waitIndef : Bool) (listening_socket : Socket)
    (state : FdSet × Timeval) (next : Arrival) : Except WaitEnd ((FdSet × Timeval) × Bool) :=
  afterWait (.lit "timeout occured while waiting for incomming connections!") listening_socket
    state.2
    (waitRdSocket waitIndef listening_socket (fdSet listening_socket fdZero) state.2 next)

/-- `wait_for_connections`, until these connections have arrived. -/
def waitForConnections (waitIndef : Bool) (listening_socket : Socket) (arrivals : List Arrival) :
    Except WaitEnd ((FdSet × Timeval) × List Bool) :=
  Machine.run (waitForConnectionsBody waitIndef listening_socket) (fdZero, idleTimeout) arrivals

/-- The body of the loop of the server's `main`, which goes on with the descriptor
set `select` left. -/
def mainLoopBody (waitIndef : Bool) (listening_socket : Socket) (state : FdSet × Timeval)
    (next : Arrival) : Except WaitEnd ((FdSet × Timeval) × Bool) :=
  afterWait (.lit "timeout!") listening_socket state.2
    (waitOnSocket waitIndef listening_socket state.1 state.2 next)

/-- The loop of the server's `main`, until these connections have arrived. -/
def mainLoop (waitIndef : Bool) (listening_socket : Socket) (arrivals : List Arrival) :
    Except WaitEnd ((FdSet × Timeval) × List Bool) :=
  Machine.run (mainLoopBody waitIndef listening_socket)
    (fdSet listening_socket fdZero, idleTimeout) arrivals

end RpcBroker
