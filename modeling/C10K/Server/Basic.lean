import C10K.Endpoint.Basic
import C10K.Workers.Basic

/-!
# The server of `Run_unix_srv.c`

Three kinds of threads share the endpoint: `accept_proc` accepts connections and closes those that
hung up, `client_event_processor` waits for events and posts each to the worker pool, and the
workers run `client_event`. A step is one system call, one access to shared data, or one step of the
pool. The client lock is only taken around one call of `boolset_set`, and the queue lock by the
event thread around one `stack_push`, so each of these regions is one step;
`endpoint_close_hungups` holds the queue lock over many steps.

`main` sets `stop` at any time, and calls `w_join` once the two threads have returned. A `send` to a
client that is gone can end the process by `SIGPIPE`: the run ends there.
-/

namespace C10K

/-- A `void*` on the queue of the pool: the function `client_event`, or a packed argument. -/
inductive Pointer where
  | clientEvent
  | data (arg : BitVec 64)
  deriving DecidableEq

/-- The null pointer. -/
instance : Zero Pointer := ⟨.data 0⟩

/-- `(int64_t)client | ((int64_t)event_flag << 32)` -/
def packArg (client : Fd) (eventFlag : BitVec 32) : BitVec 64 :=
  client.signExtend 64 ||| eventFlag.signExtend 64 <<< 32

/-- `int client = (intptr_t) args` -/
def clientOf (args : BitVec 64) : Fd := args.setWidth 32

/-- `int event_flag = ((int64_t)args >> 32)` -/
def eventFlagOf (args : BitVec 64) : BitVec 32 := (args.sshiftRight 32).setWidth 32

/-- Where the accept thread stands; each name says what it does next. -/
inductive AcceptPc where
  | epollWait
  | accept
  | register (fd : Fd)
  | epollAdd (fd : Fd)
  | test (count : ℤ)                  -- `while (count > -1 && !stop)`
  | lockQueue
  | pop                               -- test and pop the disconnection queue
  | deregister (fd : Fd)
  | epollDel (fd : Fd)
  | shutdown (fd : Fd)
  | close (fd : Fd)
  | unlockQueue
  | returned
  deriving DecidableEq

/-- Where the event thread stands. -/
inductive EventPc where
  | epollWait
  | enqueue
  | test (count : ℤ)                  -- `while (count > -1 && !stop)`
  | callPost
  | posting                           -- inside `w_post`
  | returned
  deriving DecidableEq

/-- Where a worker stands in `client_event`. -/
inductive ClientPc where
  | recv
  | send
  | returning
  deriving DecidableEq

/-- An event that was reported. Not in the source: what the reported entry denoted. -/
structure Report where
  client : Fd
  eventFlag : BitVec 32
  file : Option File
  deriving DecidableEq

/-- A call of `recv` or `send` by a worker, with what the descriptor denoted. -/
structure IoCall where
  ticket : ℕ
  fd : Fd
  file : Option File
  deriving DecidableEq

/-- The server with `n` workers. Nothing in the program reads `posted` and `io`, the reports that
were posted and the calls that workers made, in order. -/
structure Server (Q : Type) (n : ℕ) where
  pool : Pool Q Pointer n Unit
  world : World
  queueLocked : Bool                  -- by the accept thread
  stop : Bool
  acceptPc : AcceptPc
  eventPc : EventPc
  report : Report                     -- `client` and `event_flag` of the event thread
  clientPc : Fin n → ClientPc
  posted : List Report
  io : List IoCall

/-- What `epoll_wait` returns when it is asked for one event. -/
inductive WaitAnswer where
  | error
  | timeout
  | event (fd : Fd) (events : BitVec 32)

/-- The next step of a thread, with the choices that are not its own. -/
inductive ServerAct (n : ℕ) where
  | arrive
  | setStop
  | acceptWait (events : BitVec 32)   -- with what `ep_event` holds after `epoll_wait`
  | accept (clientAddressLen : BitVec 32) (answer : Option Fd)
  | acceptProc
  | eventWait (answer : WaitAnswer)
  | clientEventProcessor
  | pool (a : PoolAct Pointer n Unit)
  | recv (i : Fin n) (received : Bool)
  | send (i : Fin n)

namespace Server

variable {Q : Type} [FifoQueue Q Pointer] {n : ℕ}

/-- The threads start on a new pool and a new endpoint. -/
def initial (world : World) : Server Q n where
  pool := .initial
  world
  queueLocked := false
  stop := false
  acceptPc := .epollWait
  eventPc := .epollWait
  report := ⟨-1, -1, none⟩
  clientPc _ := .returning
  posted := []
  io := []

/-! ### The accept thread -/

/-- `epoll_wait` of `endpoint_accept`. -/
def acceptWait (s : Server Q n) (events : BitVec 32) : Option (Server Q n) :=
  match s.acceptPc with
  | .epollWait =>
    some { s with acceptPc := if events &&& EPOLLHUP ≠ 0 then .test (-1) else .accept }
  | _ => none

/-- `accept` of `endpoint_accept`, which is called for one connection. It reads
`client_address_len`, which nothing wrote, when it has one: if it is negative as an `int`, the call
returns -1 and the connection is lost. -/
def acceptAnswer (s : Server Q n) (clientAddressLen : BitVec 32) (answer : Option Fd) :
    Option (Server Q n) :=
  match s.acceptPc, answer with
  | .accept, none    => some { s with acceptPc := .test 0 }
  | .accept, some fd =>
    if fd.toInt < 0 then none
    else if clientAddressLen.toInt < 0 then do
      let kernel ← s.world.kernel.lose s.world.endpoint.srvFd fd
      return { s with world := { s.world with kernel }, acceptPc := .test 0 }
    else do
      let kernel ← s.world.kernel.accept s.world.endpoint.srvFd fd
      return { s with world := { s.world with kernel }, acceptPc := .register fd }
  | _, _ => none

/-- The other steps of `accept_proc`. -/
def acceptProc (s : Server Q n) : Option (Server Q n) :=
  let endpoint := s.world.endpoint
  let kernel := s.world.kernel
  match s.acceptPc with
  | .register fd =>
    some { s with world := endpointRegisterClient s.world fd, acceptPc := .epollAdd fd }
  | .epollAdd fd =>
    let flags := EPOLLHUP ||| EPOLLIN ||| EPOLLET
    let clientEvent := createEpollEvent fd (flags ||| EPOLLRDHUP)
    some { s with
      world := { s.world with kernel := kernel.epollAdd endpoint.epSelector fd clientEvent }
      acceptPc := .test 1 }
  | .test count =>
    some { s with acceptPc := if count > -1 ∧ s.stop = false then .lockQueue else .returned }
  -- endpoint_close_hungups
  | .lockQueue =>
    if s.queueLocked then none else some { s with queueLocked := true, acceptPc := .pop }
  | .pop =>
    if stackIsEmpty endpoint.disconnectQueue then some { s with acceptPc := .unlockQueue }
    else do
      let (val, queue) ← stackPop endpoint.disconnectQueue
      return { s with world := s.world.setQueue queue, acceptPc := .deregister (wordToFd val) }
  -- endpoint_disconnect_client
  | .deregister fd =>
    some { s with world := endpointDeregisterClient s.world fd, acceptPc := .epollDel fd }
  | .epollDel fd =>
    some { s with
      world := { s.world with kernel := kernel.epollDel endpoint.epSelector fd }
      acceptPc := .shutdown fd }
  | .shutdown fd =>
    some { s with world := { s.world with kernel := kernel.shutdown fd }, acceptPc := .close fd }
  | .close fd =>
    some { s with world := { s.world with kernel := kernel.close fd }, acceptPc := .pop }
  | .unlockQueue => some { s with queueLocked := false, acceptPc := .epollWait }
  | .epollWait | .accept | .returned => none

/-! ### The event thread -/

/-- `epoll_wait` of `endpoint_wait_event`, and the writes to `client` and `event_flag`. The entries
stay as they are: none has `EPOLLONESHOT`. -/
def eventWait (s : Server Q n) (answer : WaitAnswer) : Option (Server Q n) :=
  match s.eventPc, answer with
  | .epollWait, .error           => some { s with eventPc := .test (-1) }
  | .epollWait, .timeout         => some { s with eventPc := .test 0 }
  | .epollWait, .event fd events => do
    let event ← s.world.kernel.report s.world.endpoint.epSelector fd events
    return { s with
      report := ⟨event.data, event.events, s.world.kernel.files fd⟩
      eventPc := if event.events &&& EPOLLRDHUP ≠ 0 then .enqueue else .test 1 }
  | _, _ => none

/-- The other steps of `client_event_processor`. -/
def clientEventProcessor (s : Server Q n) : Option (Server Q n) :=
  match s.eventPc with
  | .enqueue =>
    if s.queueLocked then none
    else
      some { s with
        world := endpointEnqueueClientForDisconnection s.world s.report.client
        eventPc := .test 1 }
  | .test count =>
    some { s with
      eventPc := if count > -1 ∧ s.stop = false then
        (if count > 0 then .callPost else .epollWait) else .returned }
  -- w_post(w, client_event, arg)
  | .callPost => do
    let arg := packArg s.report.client s.report.eventFlag
    let pool ← s.pool.step (.callPost (.client ()) .clientEvent (.data arg))
    return { s with pool, eventPc := .posting, posted := s.posted ++ [s.report] }
  | .posting =>
    if (s.pool.post (.client ())).isNone then some { s with eventPc := .epollWait } else none
  | .epollWait | .returned => none

/-! ### The workers -/

/-- The start of `client_event`: only a client that sent something is answered. -/
def clientEvent (p : Plucked Pointer) : ClientPc :=
  match p.args with
  | .data args    => if eventFlagOf args &&& EPOLLIN ≠ 0 then .recv else .returning
  | .clientEvent => .returning

/-- A step of the pool. The event thread is the only one that posts, a job returns at the end of
`client_event`, and `main` joins the threads before it joins the workers. -/
def poolStep (s : Server Q n) (a : PoolAct Pointer n Unit) : Option (Server Q n) :=
  match a with
  | .callPost _ _ _ => none
  | .jobReturn i =>
    if s.clientPc i = .returning then do
      let pool ← s.pool.step a
      return { s with pool }
    else none
  | .callJoin =>
    if s.stop = true ∧ s.acceptPc = .returned ∧ s.eventPc = .returned then do
      let pool ← s.pool.step a
      return { s with pool }
    else none
  | .work i => do
    let pool ← s.pool.step a
    match pool.worker i with
    | .running p => return { s with pool, clientPc := Function.update s.clientPc i (clientEvent p) }
    | _          => return { s with pool }
  | _ => do
    let pool ← s.pool.step a
    return { s with pool }

/-- `recv` or `send` by worker `i` on the descriptor of its job. -/
def ioCall (s : Server Q n) (i : Fin n) (next : ClientPc) : Option (Server Q n) :=
  match s.pool.worker i with
  | .running ⟨_, .data args, ticket⟩ =>
    some { s with
      clientPc := Function.update s.clientPc i next
      io := s.io ++ [⟨ticket, clientOf args, s.world.kernel.files (clientOf args)⟩] }
  | _ => none

/-- `recv` of `html_answer`, which returns when nothing is received. -/
def recv (s : Server Q n) (i : Fin n) (received : Bool) : Option (Server Q n) :=
  if s.clientPc i = .recv then s.ioCall i (if received then .send else .returning) else none

/-- `send` of `html_answer`, of the page or of the error. -/
def send (s : Server Q n) (i : Fin n) : Option (Server Q n) :=
  if s.clientPc i = .send then s.ioCall i .returning else none

def step (s : Server Q n) : ServerAct n → Option (Server Q n)
  | .arrive => some { s with world := { s.world with kernel := s.world.kernel.arrive } }
  | .setStop => some { s with stop := true }
  | .acceptWait events => s.acceptWait events
  | .accept clientAddressLen answer => s.acceptAnswer clientAddressLen answer
  | .acceptProc => s.acceptProc
  | .eventWait answer => s.eventWait answer
  | .clientEventProcessor => s.clientEventProcessor
  | .pool a => s.poolStep a
  | .recv i received => s.recv i received
  | .send i => s.send i

end Server

/-- The server under every schedule. -/
def serverSystem (Q : Type) [FifoQueue Q Pointer] (n : ℕ) : LTS (Server Q n) (ServerAct n) where
  init s := ∃ k srvFd epListener epSelector shutdownFd world,
    endpointCreate k srvFd epListener epSelector shutdownFd = some world ∧ s = .initial world
  step := Server.step

end C10K
