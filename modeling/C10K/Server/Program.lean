import C10K.Endpoint.Close
import C10K.Lib.Ledger
import C10K.Server.Simulation

/-!
# The program of `Run_unix_srv.c`

`main` creates the pool and the endpoint, starts the two threads, reads a word, sets `stop`, joins
the threads and the pool, and closes the endpoint. The server has all of it but the last call, which
is made once `w_join` returned; then the process ends.
-/

namespace C10K

/-- The server, and whether `main` returned. -/
structure PageServer (Q : Type) (n : ℕ) extends Server Q n where
  returned : Bool

inductive PageServerAct (n : ℕ) where
  | server (a : ServerAct n)
  | endpointClose

variable {Q : Type} [FifoQueue Q Pointer] {n : ℕ}

def PageServer.step (s : PageServer Q n) : PageServerAct n → Option (PageServer Q n)
  | .server a =>
    if s.returned then none
    else do
      let server ← s.toServer.step a
      return { s with toServer := server }
  | .endpointClose =>
    if s.pool.join = .returned ∧ s.returned = false then do
      let (kernel, disconnectQueue) ← endpointClose s.world
      let endpoint := { s.world.endpoint with disconnectQueue }
      return { s with world := ⟨kernel, endpoint⟩, returned := true }
    else none

/-- The program under every schedule, in a process that starts with kernel `k`. -/
def pageServerSystem (Q : Type) [FifoQueue Q Pointer] (n : ℕ) (k : Kernel Fd) :
    LTS (PageServer Q n) (PageServerAct n) where
  init s := k.Fresh ∧ ∃ srvFd epListener epSelector shutdownFd world,
    endpointCreate k srvFd epListener epSelector shutdownFd = some world ∧
      s = ⟨.initial world, false⟩
  step := PageServer.step

/-! ### The accept thread in the middle of a call -/

/-- The descriptor that the accept thread is about to register or to disconnect. -/
def AcceptPc.hand : AcceptPc → Option Fd
  | .register fd | .epollAdd fd | .deregister fd | .epollDel fd | .shutdown fd | .close fd =>
    some fd
  | .epollWait | .accept | .test _ | .lockQueue | .pop | .unlockQueue | .returned => none

/-- The descriptor that the accept thread took off the queue. -/
def AcceptPc.closes : AcceptPc → Option Fd
  | .deregister fd | .epollDel fd | .shutdown fd | .close fd => some fd
  | .epollWait | .accept | .register _ | .epollAdd _ | .test _ | .lockQueue | .pop | .unlockQueue
  | .returned => none

/-- The accept thread holds the queue lock. -/
def AcceptPc.holdsQueue : AcceptPc → Bool
  | .pop | .deregister _ | .epollDel _ | .shutdown _ | .close _ | .unlockQueue => true
  | .epollWait | .accept | .register _ | .epollAdd _ | .test _ | .lockQueue | .returned => false

/-- The event mask of a client of the page server. -/
def clientFlags : BitVec 32 := EPOLLHUP ||| EPOLLIN ||| EPOLLET

/-- The entry of an accepted descriptor. -/
def clientEntry (fd : Fd) : EpollEvent Fd := createEpollEvent fd (clientFlags ||| EPOLLRDHUP)

/-- It stays as it is when it is reported. -/
lemma oneshot_clientEntry {fd : Fd} : (clientEntry fd).watched.events &&& EPOLLONESHOT = 0 :=
  (by decide : (clientFlags ||| EPOLLRDHUP ||| EPOLLERR ||| EPOLLHUP) &&& EPOLLONESHOT = 0)

namespace Server

/-- The world as it will be when the accept thread is done with the descriptor in its hand. -/
def settled (s : Server Q n) : World :=
  let w := s.world
  match s.acceptPc with
  | .register fd =>
    let w := endpointRegisterClient w fd
    { w with kernel := w.kernel.epollAdd w.endpoint.epSelector fd (clientEntry fd) }
  | .epollAdd fd =>
    { w with kernel := w.kernel.epollAdd w.endpoint.epSelector fd (clientEntry fd) }
  | .deregister fd => endpointDisconnectClient w fd
  | .epollDel fd =>
    { w with kernel := ((w.kernel.epollDel w.endpoint.epSelector fd).shutdown fd).close fd }
  | .shutdown fd => { w with kernel := (w.kernel.shutdown fd).close fd }
  | .close fd => { w with kernel := w.kernel.close fd }
  | .epollWait | .accept | .test _ | .lockQueue | .pop | .unlockQueue | .returned => w

end Server

end C10K
