import C10K.Endpoint.Basic
import C10K.Lib.Ledger
import C10K.Lib.Text

/-!
# The server of `Server_example.c`

`main` lists the listening socket edge-triggered and starts `side_proc`, which greets each
connection and closes it. Once a line was read, `main` lists an `eventfd` whose count is 1 and is
never read, so it stays readable; `side_proc` returns when that is reported.

A step is one system call or one test of `side_proc`. An edge-triggered entry is reported at most
once each time it is put on the ready list: by a connection that comes in, and by `EPOLL_CTL_ADD`
when one waits already. A `send` to a client that is gone fails, or its signal ends the process.
-/

namespace C10K

def createEpollEventTest (fd : Fd) (events : BitVec 32) : EpollEvent Fd := { events, data := fd }

/-- `msg` of `side_proc`. -/
def greeting : List UInt8 := bytesOf "Connection established <3 Goodbye!\n"

/-- Where the side thread stands; each name says what it does next. -/
inductive SidePc where
  | notStarted
  | epollWait
  | test (count : ℤ) (interrupted : Bool)       -- with whether `errno` is `EINTR`
  | accept
  | send (newSocket : Fd)
  | shutdown (newSocket : Fd)                   -- `flush_and_close`
  | close (newSocket : Fd)
  | returned
  deriving DecidableEq

/-- Where `main` stands, after the listening socket was created. -/
inductive ExampleMainPc where
  | addServer
  | eventfd
  | createThread
  | read
  | addSignaler
  | join
  | closeSignaler
  | closeInstance
  | returned
  deriving DecidableEq

/-- A call of `send`: what the socket denoted, the message, and whether it was sent. -/
structure SendCall where
  file : Option File
  msg : List UInt8
  sent : Bool
  deriving DecidableEq

/-- The program. Not in the source: `onReadyList`, whether the listening socket is on the ready list
of the epoll instance; `killed`, whether a signal ended the process; and `sends`, the calls of
`send` that returned, in order. -/
structure ExampleServer where
  kernel : Kernel Fd
  epInstance : Fd
  srvFd : Fd
  signaler : Fd
  mainPc : ExampleMainPc
  sidePc : SidePc
  event : Option Fd                             -- `event.data.fd`, `none` before it is written
  clientAddressLen : Option (BitVec 32)         -- `none` before it is written
  onReadyList : Bool
  killed : Bool
  sends : List SendCall

/-- What `epoll_wait` answers when it is asked for one event. -/
inductive ExampleAnswer where
  | failed
  | interrupted
  | timeout
  | event (fd : Fd)

/-- What `send` does. -/
inductive SendAnswer where
  | sent
  | failed
  | sigpipe

/-- The next step of a thread, with the choices that are not its own. `accept` comes with what
`client_address_len` holds before it is written. -/
inductive ExampleAct where
  | arrive
  | eventfd (fd : Fd)
  | main
  | epollWait (answer : ExampleAnswer)
  | accept (prior : BitVec 32) (answer : Option Fd)
  | send (answer : SendAnswer)
  | sideProc

namespace ExampleServer

/-- The globals when the listening socket was created. -/
def initial (kernel : Kernel Fd) (epInstance srvFd : Fd) : ExampleServer where
  kernel
  epInstance
  srvFd
  signaler := 0
  mainPc := .addServer
  sidePc := .notStarted
  event := none
  clientAddressLen := none
  onReadyList := false
  killed := false
  sends := []

/-- A connection comes in. -/
def arrive (s : ExampleServer) : ExampleServer :=
  { s with
    kernel := s.kernel.arrive
    onReadyList := s.onReadyList || (s.kernel.interest s.epInstance s.srvFd).isSome }

/-! ### `main` -/

/-- `signaler = eventfd(1, 0)` -/
def eventfd (s : ExampleServer) (fd : Fd) : Option ExampleServer :=
  match s.mainPc with
  | .eventfd => do
    let kernel ← openFd s.kernel fd .event
    return { s with kernel, signaler := fd, mainPc := .createThread }
  | _ => none

/-- The other steps of `main`. -/
def main (s : ExampleServer) : Option ExampleServer :=
  match s.mainPc with
  | .addServer =>
    let srvEvents := createEpollEventTest s.srvFd (EPOLLIN ||| EPOLLET ||| EPOLLWAKEUP)
    some { s with
      kernel := s.kernel.epollAdd s.epInstance s.srvFd srvEvents
      onReadyList := !s.kernel.backlog.isEmpty
      mainPc := .eventfd }
  | .createThread => some { s with sidePc := .epollWait, mainPc := .read }
  | .read => some { s with mainPc := .addSignaler }
  | .addSignaler =>
    let signalerEvents := createEpollEventTest s.signaler EPOLLIN
    some { s with
      kernel := s.kernel.epollAdd s.epInstance s.signaler signalerEvents
      mainPc := .join }
  | .join => if s.sidePc = .returned then some { s with mainPc := .closeSignaler } else none
  | .closeSignaler =>
    some { s with kernel := s.kernel.close s.signaler, mainPc := .closeInstance }
  | .closeInstance =>
    some { s with kernel := s.kernel.close s.epInstance, mainPc := .returned }
  | .eventfd | .returned => none

/-! ### `side_proc` -/

/-- A call on the descriptor would not block: a connection waits, or the count is not zero. -/
def readable (s : ExampleServer) (fd : Fd) : Bool :=
  match s.kernel.files fd with
  | some .listener => !s.kernel.backlog.isEmpty
  | some .event    => true
  | _              => false

/-- The entry for a descriptor, if `epoll_wait` may report it now. -/
def pending (s : ExampleServer) (fd : Fd) : Option (EpollEvent Fd) :=
  (s.kernel.interest s.epInstance fd).filter fun e =>
    s.readable fd && (e.events &&& EPOLLET == 0 || s.onReadyList)

/-- `epoll_wait`. It fails on what is no epoll instance, and times out when nothing is ready. -/
def epollWait (s : ExampleServer) (answer : ExampleAnswer) : Option ExampleServer :=
  match s.sidePc, answer with
  | .epollWait, .failed =>
    if s.kernel.files s.epInstance = some .epoll then none
    else some { s with sidePc := .test (-1) false }
  | .epollWait, .interrupted => some { s with sidePc := .test (-1) true }
  | .epollWait, .timeout =>
    if s.pending s.srvFd = none ∧ s.pending s.signaler = none then
      some { s with sidePc := .test 0 false }
    else none
  | .epollWait, .event fd => do
    let e ← s.pending fd
    return { s with
      event := some e.data
      -- an edge-triggered entry leaves the ready list
      onReadyList := s.onReadyList && e.events &&& EPOLLET == 0
      sidePc := .test 1 false }
  | _, _ => none

/-- `accept`. It fails without a change when it returns no descriptor. With a length that is
negative as an `int` it fails, too, and the connection is lost. -/
def accept (s : ExampleServer) (prior : BitVec 32) (answer : Option Fd) : Option ExampleServer :=
  match s.sidePc, answer with
  | .accept, none    => some { s with sidePc := .epollWait }
  | .accept, some fd =>
    if 0 ≤ fd.toInt then
      if (s.clientAddressLen.getD prior).toInt < 0 then do
        let kernel ← s.kernel.lose s.srvFd fd
        return { s with kernel, sidePc := .epollWait }
      else do
        let kernel ← s.kernel.accept s.srvFd fd
        return { s with kernel, clientAddressLen := some sizeofSockaddrIn, sidePc := .send fd }
    else none
  | _, _ => none

/-- `send`, whose result is not looked at. `SIGPIPE` ends the process. -/
def send (s : ExampleServer) (answer : SendAnswer) : Option ExampleServer :=
  match s.sidePc, answer with
  | .send _, .sigpipe    => some { s with killed := true }
  | .send newSocket, .sent =>
    some { s with
      sends := s.sends ++ [⟨s.kernel.files newSocket, greeting, true⟩]
      sidePc := .shutdown newSocket }
  | .send newSocket, .failed =>
    some { s with
      sends := s.sends ++ [⟨s.kernel.files newSocket, greeting, false⟩]
      sidePc := .shutdown newSocket }
  | _, _ => none

/-- The other steps of `side_proc`. The test of an event that was never written is undefined, and
`client_address_len` is a new variable each time that the loop of `accept` is entered. -/
def sideProc (s : ExampleServer) : Option ExampleServer :=
  match s.sidePc with
  | .test count interrupted =>
    if count = 0 then some { s with sidePc := .epollWait }
    else if count = -1 ∧ interrupted = true then some { s with sidePc := .epollWait }
    else do
      let fd ← s.event
      if fd = s.signaler then return { s with sidePc := .returned }
      else return { s with clientAddressLen := none, sidePc := .accept }
  | .shutdown newSocket =>
    some { s with kernel := s.kernel.shutdown newSocket, sidePc := .close newSocket }
  | .close newSocket =>
    some { s with kernel := s.kernel.close newSocket, sidePc := .accept }
  | .notStarted | .epollWait | .accept | .send _ | .returned => none

def step (s : ExampleServer) (a : ExampleAct) : Option ExampleServer :=
  if s.killed then none
  else match a with
    | .arrive => some s.arrive
    | .eventfd fd => s.eventfd fd
    | .main => s.main
    | .epollWait answer => s.epollWait answer
    | .accept prior answer => s.accept prior answer
    | .send answer => s.send answer
    | .sideProc => s.sideProc

end ExampleServer

/-- The program under every schedule, in a process that just started. -/
def exampleSystem : LTS ExampleServer ExampleAct where
  init s := ∃ k k₁ k₂ epInstance srvFd, k.Fresh ∧ openFd k epInstance .epoll = some k₁ ∧
    openFd k₁ srvFd .listener = some k₂ ∧ s = .initial k₂ epInstance srvFd
  step := ExampleServer.step

end C10K
