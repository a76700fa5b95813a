import C10K.Endpoint.Basic
import C10K.Lib.Locks

/-!
# Threads on one endpoint

Any threads call the functions of one endpoint at the same time. A step of a thread is one lock
operation, one access to the queue or to the bit set, or one system call; a lock that is held makes
the thread wait, also when the thread holds it itself. Variables and buffers of a call belong to its
thread, and are read and written along with the next step. The system calls return at some time, and
what they return is part of the label.
-/

namespace C10K

open Mutex (LockOp holdsNone holdsOnly holdsAlso)

/-- The two mutexes of an endpoint. -/
inductive Lock where
  | connectedClients
  | disconnectQueue
  deriving DecidableEq

/-- The step of a thread: what it does to the locks, where it is afterwards, and the new world. -/
abbrev Stepped (P : Type) := LockOp Lock × P × World

/-! ### `endpoint_disconnect_client` -/

/-- Each name says what the thread does next. -/
inductive DisconnectPlace where
  | lock
  | set                               -- `boolset_set(.., 0)`
  | unlock
  | epollDel
  | shutdown
  | close

/-- A call of `endpoint_disconnect_client`. Not in the source: the kernel at the moment of the
call. -/
structure Disconnecting where
  socketFd : Fd
  began : Kernel Fd

/-- The step of the call; it returns where no place is left. -/
def Disconnecting.next (d : Disconnecting) (w : World) :
    DisconnectPlace → Stepped (Option DisconnectPlace)
  -- endpoint_deregister_client
  | .lock => (.lock .connectedClients, some .set, w)
  | .set =>
    (.stay, some .unlock,
      w.setClients (boolsetSet w.endpoint.connectedClientsFds (fdToWord d.socketFd) 0))
  | .unlock => (.unlock .connectedClients, some .epollDel, w)
  | .epollDel =>
    (.stay, some .shutdown,
      { w with kernel := w.kernel.epollDel w.endpoint.epSelector d.socketFd })
  | .shutdown => (.stay, some .close, { w with kernel := w.kernel.shutdown d.socketFd })
  | .close => (.stay, none, { w with kernel := w.kernel.close d.socketFd })

/-- The locks that are held at a place. -/
def DisconnectPlace.holds : DisconnectPlace → Lock → Bool
  | .set | .unlock                        => holdsOnly .connectedClients
  | .lock | .epollDel | .shutdown | .close => holdsNone

/-! ### What the kernel answers -/

/-- The answer to the system call that a thread waits for. -/
inductive Answer where
  | done
  | listen (event : Option (BitVec 32))
  | accept (fd : Option Fd)
  | report (batch : Option (List (Fd × BitVec 32)))

/-- What a call returns, with the buffers of its caller. -/
inductive Returned where
  | nothing
  | accept (count : ℤ) (newFds : List Fd)
  | waitEvent (count : ℤ) (socketFds : List Fd) (eventFlags : List (BitVec 32))
  | closeHungups (count : ℕ)
  | disconnectClient (result : ℤ)

/-! ### `endpoint_accept` -/

/-- The arguments and the variables of a call. -/
structure AcceptFrame where
  newFds : List Fd
  newFdsSize : ℤ
  eventsFlags : BitVec 32
  prior : BitVec 32                   -- what `ep_event.events` holds before it is written
  clientAddressLen : BitVec 32
  newClientCount : ℕ

inductive AcceptPlace where
  | epollWait
  | test                              -- `new_client_count < new_fds_size`
  | accept
  | lock (fd : Fd)
  | set (fd : Fd)                     -- `boolset_set(.., 1)`
  | unlock (fd : Fd)
  | epollAdd (fd : Fd)

/-- The step of the call, to a place of it or to its return value. -/
def AcceptFrame.next (f : AcceptFrame) (w : World) :
    AcceptPlace → Answer → Option (Stepped (AcceptFrame × AcceptPlace ⊕ Returned))
  | .epollWait, .listen event =>
    if event.getD f.prior &&& EPOLLHUP ≠ 0 then some (.stay, .inr (.accept (-1) f.newFds), w)
    else some (.stay, .inl (f, .test), w)
  | .test, _ =>
    if f.newClientCount < f.newFdsSize then some (.stay, .inl (f, .accept), w)
    else some (.stay, .inr (.accept f.newClientCount f.newFds), w)
  | .accept, .accept none => some (.stay, .inr (.accept f.newClientCount f.newFds), w)
  | .accept, .accept (some fd) =>
    if 0 ≤ fd.toInt then
      if f.clientAddressLen.toInt < 0 then do
        let kernel ← w.kernel.lose w.endpoint.srvFd fd
        return (.stay, .inr (.accept f.newClientCount f.newFds), { w with kernel })
      else do
        let kernel ← w.kernel.accept w.endpoint.srvFd fd
        let f := { f with clientAddressLen := sizeofSockaddrIn }
        return (.stay, .inl (f, .lock fd), { w with kernel })
    else none
  -- endpoint_register_client
  | .lock fd, _ => some (.lock .connectedClients, .inl (f, .set fd), w)
  | .set fd, _ =>
    some (.stay, .inl (f, .unlock fd),
      w.setClients (boolsetSet w.endpoint.connectedClientsFds (fdToWord fd) 1))
  | .unlock fd, _ => some (.unlock .connectedClients, .inl (f, .epollAdd fd), w)
  | .epollAdd fd, _ =>
    let clientEvent := createEpollEvent fd (f.eventsFlags ||| EPOLLRDHUP)
    some (.stay, .inl ({ f with
        newFds := f.newFds.set f.newClientCount fd
        newClientCount := f.newClientCount + 1 }, .test),
      { w with kernel := w.kernel.epollAdd w.endpoint.epSelector fd clientEvent })
  | .epollWait, _ | .accept, _ => none

def AcceptPlace.holds : AcceptPlace → Lock → Bool
  | .set _ | .unlock _                                    => holdsOnly .connectedClients
  | .epollWait | .test | .accept | .lock _ | .epollAdd _ => holdsNone

/-! ### `endpoint_wait_event` -/

/-- The arguments and the variables of a call. -/
structure EventFrame where
  socketFds : List Fd
  eventFlags : List (BitVec 32)
  maxEvents : ℤ
  eventCount : ℤ
  i : ℕ

inductive EventPlace where
  | epollWait
  | test (events : List (EpollEvent Fd))               -- the events from the `i`-th on
  | lock (fd : Fd) (events : List (EpollEvent Fd))
  | push (fd : Fd) (events : List (EpollEvent Fd))
  | unlock (events : List (EpollEvent Fd))

def EventFrame.next (f : EventFrame) (w : World) :
    EventPlace → Answer → Option (Stepped (EventFrame × EventPlace ⊕ Returned))
  | .epollWait, .report none => some (.stay, .inr (.waitEvent (-1) f.socketFds f.eventFlags), w)
  | .epollWait, .report (some batch) =>
    -- `epoll_wait` refuses a limit that is not positive
    if 0 < eventLimit f.maxEvents then do
      let (events, kernel) ←
        w.kernel.epollWait w.endpoint.epSelector (eventLimit f.maxEvents).toNat batch
      return (.stay, .inl ({ f with eventCount := events.length }, .test events), { w with kernel })
    else none
  | .test [], _ => some (.stay, .inr (.waitEvent f.eventCount f.socketFds f.eventFlags), w)
  | .test (event :: events), _ =>
    let f' := { f with
      socketFds := f.socketFds.set f.i event.data
      eventFlags := f.eventFlags.set f.i event.events
      i := f.i + 1 }
    some (.stay, .inl (f', if event.events &&& EPOLLRDHUP ≠ 0 then .lock event.data events
      else .test events), w)
  -- endpoint_enqueue_client_for_disconnection
  | .lock fd events, _ => some (.lock .disconnectQueue, .inl (f, .push fd events), w)
  | .push fd events, _ =>
    some (.stay, .inl (f, .unlock events),
      w.setQueue (stackPush w.endpoint.disconnectQueue (fdToWord fd)))
  | .unlock events, _ => some (.unlock .disconnectQueue, .inl (f, .test events), w)
  | .epollWait, _ => none

def EventPlace.holds : EventPlace → Lock → Bool
  | .push _ _ | .unlock _          => holdsOnly .disconnectQueue
  | .epollWait | .test _ | .lock _ _ => holdsNone

/-! ### `endpoint_close_hungups` -/

/-- The variable of a call. Not in the source: the number of entries that the queue had when the
call took its lock. -/
structure HungupsFrame where
  count : ℕ
  entries : ℕ

inductive HungupsPlace where
  | lock
  | test (f : HungupsFrame)
  | pop (f : HungupsFrame)
  | disconnect (f : HungupsFrame) (d : Disconnecting) (p : DisconnectPlace)
  | unlock (f : HungupsFrame)

def HungupsPlace.next (w : World) : HungupsPlace → Option (Stepped (HungupsPlace ⊕ Returned))
  | .lock =>
    some (.lock .disconnectQueue, .inl (.test ⟨0, w.endpoint.disconnectQueue.length⟩), w)
  | .test f =>
    some (.stay, .inl (if stackIsEmpty w.endpoint.disconnectQueue then .unlock f else .pop f), w)
  | .pop f => do
    let (val, queue) ← stackPop w.endpoint.disconnectQueue
    return (.stay, .inl (.disconnect f ⟨wordToFd val, w.kernel⟩ .lock), w.setQueue queue)
  | .disconnect f d p =>
    let (op, p', w') := d.next w p
    some (op, .inl (p'.elim (.test { f with count := f.count + 1 }) (.disconnect f d)), w')
  | .unlock f => some (.unlock .disconnectQueue, .inr (.closeHungups f.count), w)

def HungupsPlace.holds : HungupsPlace → Lock → Bool
  | .lock                        => holdsNone
  | .test _ | .pop _ | .unlock _ => holdsOnly .disconnectQueue
  | .disconnect _ _ p            => holdsAlso .disconnectQueue p.holds

/-! ### `endpoint_disconnect_all_clients` -/

/-- Where the callback `disconnect_all_foreach` stands. -/
inductive CallbackPlace where
  | set
  | epollDel
  | shutdown
  | close

inductive AllPlace where
  | lock
  | word (major : ℕ)                                   -- `major_index < set->size`
  | bit (major minor : ℕ) (value : BoolsetType)        -- `minor_index < 64`
  | callback (p : CallbackPlace) (major minor : ℕ) (value : BoolsetType)
  | unlock
  | clearLock
  | clear                                              -- `while (s->top != 0)`
  | clearUnlock

/-- The index that the callback gets. -/
def foreachIndex (major minor : ℕ) : BoolsetType := BitVec.ofNat 64 (major * 8 * 8 + minor)

/-- The step of the callback, to a place of it or to its end. -/
def CallbackPlace.next (socketFd : BoolsetType) (w : World) :
    CallbackPlace → Option CallbackPlace × World
  | .set =>
    (some .epollDel, w.setClients (boolsetSet w.endpoint.connectedClientsFds socketFd 0))
  | .epollDel =>
    (some .shutdown,
      { w with kernel := w.kernel.epollDel w.endpoint.epSelector (wordToFd socketFd) })
  | .shutdown => (some .close, { w with kernel := w.kernel.shutdown (wordToFd socketFd) })
  | .close => (none, { w with kernel := w.kernel.close (wordToFd socketFd) })

def AllPlace.next (w : World) : AllPlace → Stepped (AllPlace ⊕ Returned)
  | .lock => (.lock .connectedClients, .inl (.word 0), w)
  -- boolset_foreach
  | .word major =>
    if major < w.endpoint.connectedClientsFds.size then
      let value := w.endpoint.connectedClientsFds.word major
      (.stay, .inl (if value = 0 then .word (major + 1) else .bit major 0 value), w)
    else (.stay, .inl .unlock, w)
  | .bit major minor value =>
    if minor < 64 then
      (.stay, .inl (if value &&& ((1 : BoolsetType) <<< minor) = 0 then .bit major (minor + 1) value
        else .callback .set major minor value), w)
    else (.stay, .inl (.word (major + 1)), w)
  | .callback p major minor value =>
    let (p', w') := p.next (foreachIndex major minor) w
    (.stay, .inl (p'.elim (.bit major (minor + 1) value) (.callback · major minor value)), w')
  | .unlock => (.unlock .connectedClients, .inl .clearLock, w)
  -- endpoint_clear_disconnection_queue
  | .clearLock => (.lock .disconnectQueue, .inl .clear, w)
  | .clear =>
    match w.endpoint.disconnectQueue with
    | []         => (.stay, .inl .clearUnlock, w)
    | _ :: queue => (.stay, .inl .clear, w.setQueue queue)
  | .clearUnlock => (.unlock .disconnectQueue, .inr .nothing, w)

def AllPlace.holds : AllPlace → Lock → Bool
  | .word _ | .bit _ _ _ | .callback _ _ _ _ | .unlock => holdsOnly .connectedClients
  | .clear | .clearUnlock                              => holdsOnly .disconnectQueue
  | .lock | .clearLock                                 => holdsNone

/-! ### The threads -/

/-- Where a thread stands: outside of a call, with what the last one returned, or inside of one. -/
inductive Place where
  | outside (r : Returned)
  | accept (f : AcceptFrame) (p : AcceptPlace)
  | waitEvent (f : EventFrame) (p : EventPlace)
  | closeHungups (p : HungupsPlace)
  | disconnectClient (d : Disconnecting) (p : DisconnectPlace)
  | disconnectAll (p : AllPlace)

def Place.holds : Place → Lock → Bool
  | .outside _            => holdsNone
  | .accept _ p           => p.holds
  | .waitEvent _ p        => p.holds
  | .closeHungups p       => p.holds
  | .disconnectClient _ p => p.holds
  | .disconnectAll p      => p.holds

/-- The step of a thread inside of a call. -/
def Place.next (w : World) : Place → Answer → Option (Stepped Place)
  | .outside _, _ => none
  | .accept f p, answer =>
    (f.next w p answer).map fun (op, p', w') =>
      (op, p'.elim (fun (f', p') => .accept f' p') .outside, w')
  | .waitEvent f p, answer =>
    (f.next w p answer).map fun (op, p', w') =>
      (op, p'.elim (fun (f', p') => .waitEvent f' p') .outside, w')
  | .closeHungups p, _ =>
    (p.next w).map fun (op, p', w') => (op, p'.elim .closeHungups .outside, w')
  | .disconnectClient d p, _ =>
    let (op, p', w') := d.next w p
    some (op, p'.elim (.outside (.disconnectClient 0)) (.disconnectClient d), w')
  | .disconnectAll p, _ =>
    let (op, p', w') := p.next w
    some (op, p'.elim .disconnectAll .outside, w')

/-- A call that a thread makes. -/
inductive Invocation where
  | accept (newFds : List Fd) (newFdsSize : ℤ) (eventsFlags prior clientAddressLen : BitVec 32)
  | waitEvent (socketFds : List Fd) (eventFlags : List (BitVec 32)) (maxEvents : ℤ)
  | closeHungups
  | disconnectClient (socketFd : Fd)
  | disconnectAllClients

/-- The start of a call, whose buffers have the size that is passed along. -/
def Invocation.start (w : World) : Invocation → Option Place
  | .accept newFds newFdsSize eventsFlags prior clientAddressLen =>
    if newFdsSize ≤ newFds.length then
      some (.accept ⟨newFds, newFdsSize, eventsFlags, prior, clientAddressLen, 0⟩ .epollWait)
    else none
  | .waitEvent socketFds eventFlags maxEvents =>
    if maxEvents ≤ socketFds.length ∧ maxEvents ≤ eventFlags.length then
      some (.waitEvent ⟨socketFds, eventFlags, maxEvents, 0, 0⟩ .epollWait)
    else none
  | .closeHungups => some (.closeHungups .lock)
  | .disconnectClient socketFd => some (.disconnectClient ⟨socketFd, w.kernel⟩ .lock)
  | .disconnectAllClients => some (.disconnectAll .lock)

/-- The endpoint, the kernel, the holder of each lock, and the places of the threads. -/
structure Threads (T : Type) where
  world : World
  holder : Lock → Option T
  place : T → Place

/-- A connection comes in, a thread makes a call, or a thread goes on with its call. -/
inductive ThreadAct (T : Type) where
  | arrive
  | call (t : T) (c : Invocation)
  | go (t : T) (answer : Answer)

def Place.isOutside : Place → Bool
  | .outside _ => true
  | _          => false

variable {T : Type} [DecidableEq T]

namespace Threads

/-- The next step of a thread inside of a call. -/
def go (s : Threads T) (t : T) (answer : Answer) : Option (Threads T) := do
  let (op, place, world) ← (s.place t).next s.world answer
  let holder ← op.apply s.holder t
  return { world, holder, place := Function.update s.place t place }

def step (s : Threads T) : ThreadAct T → Option (Threads T)
  | .arrive => some { s with world := { s.world with kernel := s.world.kernel.arrive } }
  | .call t c =>
    if (s.place t).isOutside then
      (c.start s.world).map fun place => { s with place := Function.update s.place t place }
    else none
  | .go t answer => s.go t answer

end Threads

/-- Threads on an endpoint that was just created, under every schedule. -/
def threadsSystem (T : Type) [DecidableEq T] : LTS (Threads T) (ThreadAct T) where
  init s := (∃ k srvFd epListener epSelector shutdownFd,
      endpointCreate k srvFd epListener epSelector shutdownFd = some s.world) ∧
    (∀ l, s.holder l = none) ∧ ∀ t, ∃ r, s.place t = .outside r
  step := Threads.step

end C10K
