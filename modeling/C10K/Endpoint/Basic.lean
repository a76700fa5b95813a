import C10K.Boolset.Foreach
import C10K.Stack.Basic
import C10K.Lib.Kernel
import C10K.Lib.TransitionSystem

/-!
# The endpoint of `endpoint.c`

Each function is a function of the kernel and the endpoint, and of what the kernel answers: the
descriptors that `accept` gives to connections before it finds none, and the events that
`epoll_wait` reports. A result is `none` where the kernel cannot answer so, or where the call would
write outside a buffer of its caller. The two locks do nothing in a complete call, and a timeout
only bounds the waiting. A variable that the source does not initialise is an argument.
-/

namespace C10K

/-- A descriptor, a C `int`. -/
abbrev Fd := BitVec 32

/-- A descriptor as an index of a bit set or as a pointer on a stack. -/
def fdToWord (fd : Fd) : BitVec 64 := fd.signExtend 64

/-- An index or a pointer that is passed as an `int`. -/
def wordToFd (word : BitVec 64) : Fd := word.setWidth 32

/-- `struct endpoint`. -/
structure Endpoint where
  srvFd : Fd
  epListener : Fd
  epSelector : Fd
  shutdownFd : Fd
  connectedClientsFds : Boolset
  disconnectQueue : Stack (BitVec 64)

/-- The endpoint and the kernel that it calls. -/
structure World where
  kernel : Kernel Fd
  endpoint : Endpoint

def World.setClients (w : World) (connectedClientsFds : Boolset) : World :=
  { w with endpoint := { w.endpoint with connectedClientsFds } }

def World.setQueue (w : World) (disconnectQueue : Stack (BitVec 64)) : World :=
  { w with endpoint := { w.endpoint with disconnectQueue } }

/-! ### Helper functions -/

def endpointClearDisconnectionQueue (w : World) : World :=
  w.setQueue (stackDestroy w.endpoint.disconnectQueue)

def endpointRegisterClient (w : World) (socketFd : Fd) : World :=
  w.setClients (boolsetSet w.endpoint.connectedClientsFds (fdToWord socketFd) 1)

def endpointDeregisterClient (w : World) (socketFd : Fd) : World :=
  w.setClients (boolsetSet w.endpoint.connectedClientsFds (fdToWord socketFd) 0)

def endpointEnqueueClientForDisconnection (w : World) (socketFd : Fd) : World :=
  w.setQueue (stackPush w.endpoint.disconnectQueue (fdToWord socketFd))

def createEpollEvent (fd : Fd) (events : BitVec 32) : EpollEvent Fd := { events, data := fd }

/-! ### The calls -/

/-- A new descriptor of the process; the kernel hands out numbers that are not negative. -/
def openFd (k : Kernel Fd) (fd : Fd) (file : File) : Option (Kernel Fd) :=
  if 0 ≤ fd.toInt then k.openFile fd file else none

/-- `endpoint_create`, where the kernel hands out the four descriptors. -/
def endpointCreate (k : Kernel Fd) (srvFd epListener epSelector shutdownFd : Fd) :
    Option World := do
  let k ← openFd k srvFd .listener
  let k ← openFd k epListener .epoll
  let k ← openFd k epSelector .epoll
  let k ← openFd k shutdownFd .event
  let srvEvents := createEpollEvent srvFd (EPOLLIN ||| EPOLLHUP)
  let shtEvents := createEpollEvent shutdownFd EPOLLIN
  let k := k.epollAdd epListener srvFd srvEvents
  let k := k.epollAdd epListener shutdownFd shtEvents
  let k := k.epollAdd epSelector shutdownFd shtEvents
  return ⟨k, srvFd, epListener, epSelector, shutdownFd, boolsetCreate, stackCreate⟩

/-- One turn of the loop of `endpoint_accept`, other than the write to `new_fds`. -/
def acceptClient (w : World) (eventsFlags : BitVec 32) (newClientFd : Fd) : Option World := do
  let kernel ← w.kernel.accept w.endpoint.srvFd newClientFd
  let w := endpointRegisterClient { w with kernel } newClientFd
  -- make sure that EPOLLRDHUP is always listened to
  let clientEvent := createEpollEvent newClientFd (eventsFlags ||| EPOLLRDHUP)
  return { w with kernel := w.kernel.epollAdd w.endpoint.epSelector newClientFd clientEvent }

/-- What `accept` writes to `client_address_len`: the size of an IPv4 address. -/
def sizeofSockaddrIn : BitVec 32 := 16

/-- The loop of `endpoint_accept`. The kernel answers the calls of `accept` by the descriptors of
the list, and then by -1 unless the limit is reached. `accept` reads `client_address_len` when it
has a connection: if it is negative as an `int`, the call returns -1 and the connection is lost. -/
def acceptLoop (eventsFlags : BitVec 32) (newFdsSize : ℤ) :
    List Fd → BitVec 32 → ℕ → List Fd → World → Option (ℕ × List Fd × World)
  | [], _, newClientCount, newFds, w => some (newClientCount, newFds, w)
  | newClientFd :: answers, clientAddressLen, newClientCount, newFds, w =>
    if newClientCount < newFdsSize ∧ 0 ≤ newClientFd.toInt then
      if clientAddressLen.toInt < 0 then do
        let kernel ← w.kernel.lose w.endpoint.srvFd newClientFd
        if answers = [] then some (newClientCount, newFds, { w with kernel }) else none
      else if newClientCount < newFds.length then do
        let w ← acceptClient w eventsFlags newClientFd
        acceptLoop eventsFlags newFdsSize answers sizeofSockaddrIn (newClientCount + 1)
          (newFds.set newClientCount newClientFd) w
      else none
    else none

/-- `endpoint_accept`, with the count that it returns and the buffer that it filled. The event mask
of `ep_event` is `prior` until `epoll_wait` writes it. -/
def endpointAccept (w : World) (newFds : List Fd) (newFdsSize : ℤ)
    (eventsFlags prior clientAddressLen : BitVec 32) (event : Option (BitVec 32))
    (answers : List Fd) : Option (ℤ × List Fd × World) :=
  if event.getD prior &&& EPOLLHUP ≠ 0 then some (-1, newFds, w)
  else (acceptLoop eventsFlags newFdsSize answers clientAddressLen 0 newFds w).map
    fun (newClientCount, newFds, w) => (newClientCount, newFds, w)

/-- `sizeof(struct epoll_event)`, a packed structure of 4 and 8 bytes. -/
def sizeofEpollEvent : ℤ := 12

def EVENTS_EXTRACT_SIZE : ℤ := (1 <<< 9) / sizeofEpollEvent

/-- The number of events that a call extracts at most. -/
def eventLimit (maxEvents : ℤ) : ℤ :=
  if maxEvents < EVENTS_EXTRACT_SIZE then maxEvents else EVENTS_EXTRACT_SIZE

/-- The loop of `endpoint_wait_event` over the events from the `i`-th on. -/
def waitEventLoop : List (EpollEvent Fd) → ℕ → List Fd → List (BitVec 32) → World →
    Option (List Fd × List (BitVec 32) × World)
  | [], _, socketFds, eventFlags, w => some (socketFds, eventFlags, w)
  | event :: events, i, socketFds, eventFlags, w =>
    if i < socketFds.length ∧ i < eventFlags.length then
      waitEventLoop events (i + 1) (socketFds.set i event.data) (eventFlags.set i event.events)
        (if event.events &&& EPOLLRDHUP ≠ 0 then endpointEnqueueClientForDisconnection w event.data
        else w)
    else none

/-- `endpoint_wait_event`, with the count that it returns and the buffers that it filled. The
answer of `epoll_wait` is -1 or a batch of descriptors with what happened to each. -/
def endpointWaitEvent (w : World) (socketFds : List Fd) (eventFlags : List (BitVec 32))
    (maxEvents : ℤ) (answer : Option (List (Fd × BitVec 32))) :
    Option (ℤ × List Fd × List (BitVec 32) × World) :=
  match answer with
  | none => some (-1, socketFds, eventFlags, w)
  | some batch =>
    -- `epoll_wait` refuses a limit that is not positive
    if 0 < eventLimit maxEvents then do
      let (events, kernel) ←
        w.kernel.epollWait w.endpoint.epSelector (eventLimit maxEvents).toNat batch
      let (socketFds, eventFlags, w) ←
        waitEventLoop events 0 socketFds eventFlags { w with kernel }
      return (events.length, socketFds, eventFlags, w)
    else none

/-- `endpoint_disconnect_client`, which always returns 0. -/
def endpointDisconnectClient (w : World) (socketFd : Fd) : World :=
  let w := endpointDeregisterClient w socketFd
  let kernel := w.kernel.epollDel w.endpoint.epSelector socketFd
  let kernel := kernel.shutdown socketFd
  let kernel := kernel.close socketFd
  { w with kernel }

/-- The loop of `endpoint_close_hungups`; the list is the queue, from which every turn pops. -/
def closeHungupsLoop : Stack (BitVec 64) → ℕ → World → ℕ × World
  | [], count, w => (count, w)
  | val :: queue, count, w =>
    closeHungupsLoop queue (count + 1) (endpointDisconnectClient (w.setQueue queue) (wordToFd val))

def endpointCloseHungups (w : World) : ℕ × World :=
  closeHungupsLoop w.endpoint.disconnectQueue 0 w

/-- The callback of `endpoint_disconnect_all_clients`. -/
def disconnectAllForeach (w : World) (socketFd : BoolsetType) : World :=
  let w := w.setClients (boolsetSet w.endpoint.connectedClientsFds socketFd 0)
  let kernel := w.kernel.epollDel w.endpoint.epSelector (wordToFd socketFd)
  let kernel := kernel.shutdown (wordToFd socketFd)
  let kernel := kernel.close (wordToFd socketFd)
  { w with kernel }

def endpointDisconnectAllClients (w : World) : Option World :=
  (boolsetForeach (fun w : World => w.endpoint.connectedClientsFds) disconnectAllForeach w).map
    endpointClearDisconnectionQueue

/-! ### Sequences of calls -/

/-- A complete call with what the kernel answers to it, or a connection that comes in. -/
inductive EndpointCall where
  | arrive
  | accept (newFds : List Fd) (newFdsSize : ℤ) (eventsFlags prior clientAddressLen : BitVec 32)
      (event : Option (BitVec 32)) (answers : List Fd)
  | waitEvent (socketFds : List Fd) (eventFlags : List (BitVec 32)) (maxEvents : ℤ)
      (answer : Option (List (Fd × BitVec 32)))
  | closeHungups
  | disconnectClient (socketFd : Fd)
  | disconnectAllClients

/-- The world in the course of a run. Not in the source: `reported`, the connections for which
`endpoint_wait_event` reported `EPOLLRDHUP`. -/
structure Session extends World where
  reported : List ℕ

/-- The connections of a batch whose event mask holds `EPOLLRDHUP`. -/
def hungups (k : Kernel Fd) (batch : List (Fd × BitVec 32)) : List ℕ :=
  batch.filterMap fun (fd, events) =>
    if events &&& EPOLLRDHUP ≠ 0 then
      match k.files fd with
      | some (.conn c) => some c
      | _              => none
    else none

def Session.step (s : Session) : EndpointCall → Option Session
  | .arrive => some { s with kernel := s.kernel.arrive }
  | .accept newFds newFdsSize eventsFlags prior clientAddressLen event answers =>
    (endpointAccept s.toWorld newFds newFdsSize eventsFlags prior clientAddressLen event
      answers).map fun (_, _, w) => { s with toWorld := w }
  | .waitEvent socketFds eventFlags maxEvents answer =>
    (endpointWaitEvent s.toWorld socketFds eventFlags maxEvents answer).map
      fun (_, _, _, w) => ⟨w, s.reported ++ hungups s.kernel (answer.getD [])⟩
  | .closeHungups => some { s with toWorld := (endpointCloseHungups s.toWorld).2 }
  | .disconnectClient socketFd =>
    -- on a registered client
    if s.endpoint.connectedClientsFds.bit (fdToWord socketFd) then
      some { s with toWorld := endpointDisconnectClient s.toWorld socketFd }
    else none
  | .disconnectAllClients =>
    (endpointDisconnectAllClients s.toWorld).map fun w => { s with toWorld := w }

/-- Complete calls in any order on an endpoint that was just created, in a process without a
connection of another endpoint. -/
def endpointSystem : LTS Session EndpointCall where
  init s := ∃ k srvFd epListener epSelector shutdownFd,
    (∀ fd c, k.files fd ≠ some (.conn c)) ∧
      endpointCreate k srvFd epListener epSelector shutdownFd = some s.toWorld ∧ s.reported = []
  step := Session.step

end C10K
