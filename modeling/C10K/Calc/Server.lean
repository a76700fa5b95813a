import C10K.Calc.Request
import C10K.Server.Exit

/-!
# The server of `Run_calc_srv.c`

The threads are those of `Run_unix_srv.c`, but for two things. `accept_proc` calls
`endpoint_close_hungups` once, before its loop. And a worker answers by `calc_request`, which
disconnects the client itself after a message that is too long, while the other threads go on.

A step of `calc_request` is one system call, or the call of `boolset_set` under the client lock.
There is no step from a message whose term has no `int` value: the division traps or the value is
undefined.
-/

namespace C10K

/-- A message that a worker received in the job with this ticket. Not in the source: `file`, what
the descriptor denoted. -/
structure Request where
  ticket : ℕ
  fd : Fd
  file : Option File
  message : List UInt8
  deriving DecidableEq

/-- What was sent for a request, and what the descriptor denoted then. -/
structure Reply where
  request : Request
  file : Option File
  text : List UInt8
  deriving DecidableEq

/-- Where a worker stands in `calc_request`, after `recv`. -/
inductive RequestPc where
  | outside
  | answer (request : Request)
  | goodbye (request : Request)       -- `send`, before `endpoint_disconnect_client`
  | deregister (fd : Fd)
  | epollDel (fd : Fd)
  | shutdown (fd : Fd)
  | close (fd : Fd)
  deriving DecidableEq

/-- The server, with where each worker stands in `calc_request`, and whether `main` returned.
Nothing in the program reads `replies`, what the workers sent, in order. -/
structure CalcServer (Q : Type) (n : ℕ) extends Server Q n where
  request : Fin n → RequestPc
  replies : List Reply
  returned : Bool

inductive CalcServerAct (n : ℕ) where
  | server (a : ServerAct n)
  | recv (i : Fin n) (received : Option (List UInt8))
  | calcRequest (i : Fin n)
  | endpointClose

/-- The message is answered by a goodbye. -/
def tooLong (message : List UInt8) : Bool := 127 ≤ message.length

/-- The test of the number of bytes that `recv` returned. -/
def Request.next (r : Request) : RequestPc :=
  if tooLong r.message then .goodbye r else if r.message.length = 0 then .outside else .answer r

namespace CalcServer

variable {Q : Type} {n : ℕ}

def goTo (s : CalcServer Q n) (i : Fin n) (pc : RequestPc) : CalcServer Q n :=
  { s with request := Function.update s.request i pc }

def setKernel (s : CalcServer Q n) (kernel : Kernel Fd) : CalcServer Q n :=
  { s with world := { s.world with kernel } }

/-- `recv`. Only a connection has bytes to give. -/
def recv (s : CalcServer Q n) (i : Fin n) (received : Option (List UInt8)) :
    Option (CalcServer Q n) :=
  match s.clientPc i, s.pool.worker i with
  | .recv, .running ⟨_, .data args, ticket⟩ =>
    let fd := clientOf args
    let file := s.world.kernel.files fd
    let s := { s with clientPc := Function.update s.clientPc i .returning }
    match received with
    | none => some s
    | some message =>
      if file.any File.isConn ∧ message.length ≤ REQ_SIZE_MAX then
        some (s.goTo i (Request.next ⟨ticket, fd, file, message⟩))
      else none
  | _, _ => none

/-- The next step of worker `i` in `calc_request`. -/
def calcRequest (s : CalcServer Q n) (i : Fin n) : Option (CalcServer Q n) :=
  let kernel := s.world.kernel
  match s.request i with
  | .outside => none
  | .answer r => do
    let text ← calcMessage REQ_SIZE_MAX r.message
    return { s.goTo i .outside with replies := s.replies ++ [⟨r, kernel.files r.fd, text⟩] }
  | .goodbye r => do
    let text ← sendText REQ_SIZE_MAX requestTooLong
    return { s.goTo i (.deregister r.fd) with
      replies := s.replies ++ [⟨r, kernel.files r.fd, text⟩] }
  -- endpoint_disconnect_client
  | .deregister fd =>
    some { s.goTo i (.epollDel fd) with world := endpointDeregisterClient s.world fd }
  | .epollDel fd =>
    some ((s.goTo i (.shutdown fd)).setKernel (kernel.epollDel s.world.endpoint.epSelector fd))
  | .shutdown fd => some ((s.goTo i (.close fd)).setKernel (kernel.shutdown fd))
  | .close fd => some ((s.goTo i .outside).setKernel (kernel.close fd))

variable [FifoQueue Q Pointer]

/-- The threads start on a new pool and a new endpoint. -/
def initial (world : World) : CalcServer Q n where
  toServer := { Server.initial world with acceptPc := .lockQueue }
  request _ := .outside
  replies := []
  returned := false

/-- What the two servers share. After the loop condition of `accept_proc` comes the next
`endpoint_accept`, and a job returns when `calc_request` returned. -/
def serverStep (s : CalcServer Q n) : ServerAct n → Option (Server Q n)
  | .recv _ _ | .send _ => none
  | .acceptProc =>
    match s.acceptPc with
    | .test count =>
      let go := count > -1 ∧ s.stop = false
      some { s.toServer with acceptPc := if go then .epollWait else .returned }
    | _ => s.toServer.acceptProc
  | .pool (.jobReturn i) =>
    if s.request i = .outside then s.toServer.step (.pool (.jobReturn i)) else none
  | a => s.toServer.step a

def step (s : CalcServer Q n) : CalcServerAct n → Option (CalcServer Q n)
  | .server a =>
    if s.returned then none
    else do
      let server ← s.serverStep a
      return { s with toServer := server }
  | .recv i received => if s.returned then none else s.recv i received
  | .calcRequest i => if s.returned then none else s.calcRequest i
  | .endpointClose =>
    if s.pool.join = .returned ∧ s.returned = false then do
      let (kernel, disconnectQueue) ← endpointClose s.world
      let endpoint := { s.world.endpoint with disconnectQueue }
      return { s with world := ⟨kernel, endpoint⟩, returned := true }
    else none

end CalcServer

/-- The program under every schedule, in a process that starts with kernel `k`. -/
def calcServerSystem (Q : Type) [FifoQueue Q Pointer] (n : ℕ) (k : Kernel Fd) :
    LTS (CalcServer Q n) (CalcServerAct n) where
  init s := k.Fresh ∧ ∃ srvFd epListener epSelector shutdownFd world,
    endpointCreate k srvFd epListener epSelector shutdownFd = some world ∧ s = .initial world
  step := CalcServer.step

/-! ### What a step can do -/

namespace CalcServer

variable {Q : Type} {n : ℕ} {s s' : CalcServer Q n}

/-- What `calc_request` does after `recv`. -/
inductive RequestRule (s : CalcServer Q n) (i : Fin n) : CalcServer Q n → Prop where
  | answer {r : Request} {text : List UInt8} (h : s.request i = .answer r)
      (htext : calcMessage REQ_SIZE_MAX r.message = some text) : RequestRule s i
        { s.goTo i .outside with
          replies := s.replies ++ [⟨r, s.world.kernel.files r.fd, text⟩] }
  | goodbye {r : Request} {text : List UInt8} (h : s.request i = .goodbye r)
      (htext : sendText REQ_SIZE_MAX requestTooLong = some text) : RequestRule s i
        { s.goTo i (.deregister r.fd) with
          replies := s.replies ++ [⟨r, s.world.kernel.files r.fd, text⟩] }
  | deregister {fd : Fd} (h : s.request i = .deregister fd) : RequestRule s i
      { s.goTo i (.epollDel fd) with world := endpointDeregisterClient s.world fd }
  | epollDel {fd : Fd} (h : s.request i = .epollDel fd) : RequestRule s i
      ((s.goTo i (.shutdown fd)).setKernel
        (s.world.kernel.epollDel s.world.endpoint.epSelector fd))
  | shutdown {fd : Fd} (h : s.request i = .shutdown fd) : RequestRule s i
      ((s.goTo i (.close fd)).setKernel (s.world.kernel.shutdown fd))
  | close {fd : Fd} (h : s.request i = .close fd) : RequestRule s i
      ((s.goTo i .outside).setKernel (s.world.kernel.close fd))

lemma RequestRule.of_calcRequest {i : Fin n} (h : s.calcRequest i = some s') :
    s.RequestRule i s' := by
  unfold calcRequest at h
  cases hpc : s.request i with
  | outside => simp [hpc] at h
  | answer r =>
    simp only [hpc, bind, Option.bind_eq_some_iff, pure, Option.some.injEq] at h
    obtain ⟨text, htext, rfl⟩ := h
    exact .answer hpc htext
  | goodbye r =>
    simp only [hpc, bind, Option.bind_eq_some_iff, pure, Option.some.injEq] at h
    obtain ⟨text, htext, rfl⟩ := h
    exact .goodbye hpc htext
  | deregister | epollDel | shutdown | close =>
    simp only [hpc, Option.some.injEq] at h
    subst h
    constructor
    exact hpc

/-- The steps until `main` closes the endpoint. -/
inductive Rule (s : CalcServer Q n) [FifoQueue Q Pointer] : CalcServer Q n → Prop where
  | server {a : ServerAct n} {s' : Server Q n} (h : s.toServer.step a = some s')
      (hrecv : ∀ i received, a ≠ .recv i received) (hsend : ∀ i, a ≠ .send i)
      (htest : ∀ count, s.acceptPc = .test count → a ≠ .acceptProc)
      (hreturn : ∀ i, a = .pool (.jobReturn i) → s.request i = .outside) :
      Rule s { s with toServer := s' }
  | test {count : ℤ} {acceptPc : AcceptPc} (h : s.acceptPc = .test count)
      (hpc : acceptPc = .epollWait ∨ acceptPc = .returned) :
      Rule s { s with acceptPc }
  | recvNothing {i : Fin n} :
      Rule s { s with clientPc := Function.update s.clientPc i .returning }
  | recv {i : Fin n} {p : Plucked Pointer} {args : BitVec 64} {r : Request} {c : ℕ}
      (hpc : s.clientPc i = .recv) (hrun : s.pool.worker i = .running p)
      (hargs : p.args = .data args) (hticket : r.ticket = p.ticket) (hfd : r.fd = clientOf args)
      (hfile : r.file = s.world.kernel.files r.fd) (hconn : r.file = some (.conn c)) :
      Rule s { s.goTo i r.next with clientPc := Function.update s.clientPc i .returning }
  | request {i : Fin n} {s' : CalcServer Q n} (h : s.RequestRule i s') : Rule s s'

variable [FifoQueue Q Pointer]

lemma rule_of_recv {i : Fin n} {received : Option (List UInt8)} (h : s.recv i received = some s') :
    s.Rule s' := by
  unfold recv at h
  split at h
  · rename_i functionP args ticket hpc hrun
    cases received with
    | none =>
      cases h
      exact .recvNothing (i := i)
    | some message =>
      simp only [Option.ite_none_right_eq_some, Option.some.injEq] at h
      obtain ⟨⟨hconn, -⟩, rfl⟩ := h
      obtain ⟨file, hfile, hconn⟩ := (Option.any_eq_true ..).mp hconn
      obtain ⟨c, rfl⟩ : ∃ c, file = .conn c := by
        cases file with
        | conn c => exact ⟨c, rfl⟩
        | listener | epoll | event | other => cases hconn
      exact .recv (r := ⟨ticket, clientOf args, s.world.kernel.files (clientOf args), message⟩)
        hpc hrun rfl rfl rfl rfl hfile
  · cases h

lemma rule_of_serverStep {a : ServerAct n} {server : Server Q n}
    (h : s.serverStep a = some server) : s.Rule { s with toServer := server } := by
  unfold serverStep at h
  split at h
  · cases h
  · cases h
  · split at h
    · rename_i count hpc
      cases h
      refine .test hpc ?_
      split_ifs
      · exact .inl rfl
      · exact .inr rfl
    · rename_i hpc
      exact .server (a := .acceptProc) h nofun nofun
        (fun count hcount => absurd hcount (hpc count)) nofun
  · rename_i i
    obtain ⟨hrequest, h⟩ := Option.ite_none_right_eq_some.mp h
    refine .server h nofun nofun nofun ?_
    rintro _ ⟨⟩
    exact hrequest
  · rename_i hrecv hsend hproc hjob
    refine .server h hrecv hsend (fun _ _ => hproc) ?_
    rintro i rfl
    exact absurd rfl (hjob i)

/-- Until `main` returns, every step is one of the rules. -/
lemma Rule.of_step {a : CalcServerAct n} (h : s.step a = some s') (hrun : s'.returned = false) :
    s.returned = false ∧ s.Rule s' := by
  cases a with
  | server a =>
    simp only [step] at h
    split_ifs at h with hreturned
    simp only [bind, Option.bind_eq_some_iff, pure, Option.some.injEq] at h
    obtain ⟨server, hserver, rfl⟩ := h
    exact ⟨hrun, rule_of_serverStep hserver⟩
  | recv i received =>
    simp only [step] at h
    split_ifs at h with hreturned
    exact ⟨Bool.eq_false_iff.mpr hreturned, rule_of_recv h⟩
  | calcRequest i =>
    simp only [step] at h
    split_ifs at h with hreturned
    exact ⟨Bool.eq_false_iff.mpr hreturned, .request (RequestRule.of_calcRequest h)⟩
  | endpointClose =>
    simp only [step, Option.ite_none_right_eq_some, bind, Option.bind_eq_some_iff, pure,
      Option.some.injEq] at h
    obtain ⟨-, result, -, rfl⟩ := h
    cases hrun

end CalcServer

end C10K
