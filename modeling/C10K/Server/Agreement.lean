import C10K.Server.Records

/-!
# The page server while it runs

In every state of every run of `Run_unix_srv.c`: what the endpoint knows about its clients, what
became of each connection, and that the server leaves the descriptors alone that it did not accept.
-/

namespace C10K

variable {Q : Type} {n : ℕ} {fd : Fd} {k : Kernel Fd}

/-! ### The start -/

/-- The table with the descriptors that `endpoint_create` opens. -/
def Endpoint.table (e : Endpoint) (files : Fd → Option File) (fd : Fd) : Option File :=
  if fd = e.shutdownFd then some .event
  else if fd = e.epSelector then some .epoll
  else if fd = e.epListener then some .epoll
  else if fd = e.srvFd then some .listener
  else files fd

lemma Endpoint.table_of_not_mem {e : Endpoint} {files : Fd → Option File}
    (h : fd ∉ e.closeOrder []) : e.table files fd = files fd := by
  simp only [closeOrder, List.nil_append, List.mem_cons, List.not_mem_nil, or_false, not_or] at h
  obtain ⟨hsrv, hlistener, hselector, hshutdown⟩ := h
  rw [table, if_neg hshutdown, if_neg hselector, if_neg hlistener, if_neg hsrv]

/-- A descriptor that denotes nothing is none of the endpoint's. -/
lemma Endpoint.of_table_eq_none {e : Endpoint} {files : Fd → Option File}
    (h : e.table files fd = none) : fd ∉ e.closeOrder [] ∧ files fd = none := by
  unfold table at h
  split_ifs at h with hshutdown hselector hlistener hsrv
  exact ⟨by simp [closeOrder, hshutdown, hselector, hlistener, hsrv], h⟩

lemma unused_of_openFd {k' : Kernel Fd} {fd' : Fd} {file : File} (h : openFd k fd file = some k')
    (hnone : k'.files fd' = none) : k.files fd' = none := by
  obtain ⟨hfd, hfiles, -⟩ := World.openFd_spec h
  by_cases heq : fd' = fd
  · exact heq ▸ hfd
  · rwa [hfiles, Function.update_of_ne heq] at hnone

lemma ledger_openFd {k' : Kernel Fd} {file : File} (hL : k.Ledger)
    (h : openFd k fd file = some k') : k'.Ledger := by
  unfold openFd at h
  split_ifs at h
  exact hL.openFile h

section Create

variable {srvFd epListener epSelector shutdownFd : Fd} {w : World}

/-- The descriptors of the endpoint were unused. -/
lemma unused_of_endpointCreate
    (h : endpointCreate k srvFd epListener epSelector shutdownFd = some w) :
    ∀ fd ∈ w.endpoint.closeOrder [], k.files fd = none := by
  simp only [endpointCreate, bind, Option.bind_eq_some_iff, pure, Option.some.injEq] at h
  obtain ⟨k₁, h₁, k₂, h₂, k₃, h₃, k₄, h₄, rfl⟩ := h
  have hsrv : k.files srvFd = none := (World.openFd_spec h₁).1
  have hlistener : k₁.files epListener = none := (World.openFd_spec h₂).1
  have hselector : k₂.files epSelector = none := (World.openFd_spec h₃).1
  have hshutdown : k₃.files shutdownFd = none := (World.openFd_spec h₄).1
  simp only [Endpoint.closeOrder, List.nil_append, List.forall_mem_cons]
  refine ⟨hsrv, ?_, ?_, ?_, List.forall_mem_nil _⟩
  · exact unused_of_openFd h₁ hlistener
  · exact unused_of_openFd h₁ (unused_of_openFd h₂ hselector)
  · exact unused_of_openFd h₁ (unused_of_openFd h₂ (unused_of_openFd h₃ hshutdown))

lemma ledger_endpointCreate (hL : k.Ledger)
    (h : endpointCreate k srvFd epListener epSelector shutdownFd = some w) : w.kernel.Ledger := by
  simp only [endpointCreate, bind, Option.bind_eq_some_iff, pure, Option.some.injEq] at h
  obtain ⟨k₁, h₁, k₂, h₂, k₃, h₃, k₄, h₄, rfl⟩ := h
  have hL₄ := ledger_openFd (ledger_openFd (ledger_openFd (ledger_openFd hL h₁) h₂) h₃) h₄
  exact hL₄.epollAdd.epollAdd.epollAdd

end Create

/-! ### The invariant -/

namespace Server

variable {s s' : Server Q n}

/-- The endpoint in a process that started with kernel `k`. -/
structure Records (k : Kernel Fd) (s : Server Q n) : Prop where
  unused : ∀ fd ∈ s.world.endpoint.closeOrder [], k.files fd = none
  clients : s.ClientsOver (s.world.endpoint.table k.files)
  settles : s.Settles
  lock : s.QueueLock
  ledger : s.world.kernel.Ledger

/-- No step changes the descriptors of the endpoint. -/
lemma endpoint_step (hrule : s.Rule s') : ∃ connectedClientsFds disconnectQueue,
    s'.world.endpoint = { s.world.endpoint with connectedClientsFds, disconnectQueue } := by
  cases hrule with
  | acceptProc hrule =>
    cases hrule with
    | _ => exact ⟨_, _, rfl⟩
  | other hworld =>
    rw [hworld]
    exact ⟨_, _, rfl⟩
  | _ => exact ⟨_, _, rfl⟩

theorem Records.step (h : s.Records k) (hrule : s.Rule s') : s'.Records k := by
  obtain ⟨clients, queue, hendpoint⟩ := endpoint_step hrule
  constructor
  · rw [hendpoint]
    exact h.unused
  · rw [hendpoint]
    exact h.clients.step hrule
  · exact h.settles.step h.clients hrule
  · exact h.lock.step hrule
  · exact ledger_step h.ledger hrule

variable [FifoQueue Q Pointer]

lemma Records.initial {srvFd epListener epSelector shutdownFd : Fd} {w : World} (hk : k.Fresh)
    (h : endpointCreate k srvFd epListener epSelector shutdownFd = some w) :
    (initial w : Server Q n).Records k := by
  obtain ⟨hendpoint, hfiles, -, -, hinterest⟩ := World.endpointCreate_spec h
  have htable : ∀ fd, w.kernel.files fd = w.endpoint.table k.files fd := by
    intro fd
    rw [hfiles, hendpoint]
    rfl
  constructor
  · exact unused_of_endpointCreate h
  · refine ⟨⟨fun fd => .inl (htable fd), ?_, ?_⟩, nofun, nofun⟩
    · intro fd e he
      have he : w.kernel.interest w.endpoint.epSelector fd = some e := he
      rw [hendpoint, hinterest] at he
      split_ifs at he with hfd
      cases he
      exact ⟨hfd.symm, (by decide : (EPOLLIN ||| EPOLLERR ||| EPOLLHUP) &&& EPOLLONESHOT = 0),
        .inl (by decide : (EPOLLIN ||| EPOLLERR ||| EPOLLHUP) &&& EPOLLRDHUP = 0)⟩
    · intro v hv
      have hv : v ∈ w.endpoint.disconnectQueue := hv
      rw [hendpoint] at hv
      cases hv
  · exact ⟨World.Registry.create (fun fd c => hk.not_conn) h,
      World.Watched.create (fun fd c => hk.not_conn) h, World.ListenerOpen.create h⟩
  · exact ⟨rfl, nofun⟩
  · exact ledger_endpointCreate hk.ledger h

end Server

/-! ### The records agree -/

namespace Server.Records

variable {s : Server Q n}

lemma loose_of_hand (h : s.Records k) (hhand : s.acceptPc.hand = some fd) : s.world.Loose fd :=
  h.clients.world.loose (h.clients.hand fd hhand)

/-- The table that the endpoint was created in is as it was. -/
lemma files_eq (h : s.Records k) (hfd : k.files fd ≠ none) :
    s.world.kernel.files fd = k.files fd := by
  have hmem : fd ∉ s.world.endpoint.closeOrder [] := fun hmem => hfd (h.unused fd hmem)
  have htable : s.world.endpoint.table k.files fd = k.files fd := Endpoint.table_of_not_mem hmem
  exact (h.clients.world.files_eq (htable ▸ hfd)).trans htable

lemma accepted_settled (hne : s.acceptPc.hand ≠ some fd) :
    s.settled.Accepted fd ↔ s.world.Accepted fd := by
  rw [World.Accepted, files_settled hne, World.Accepted]

lemma bit_settled_of_ne (hne : s.acceptPc.hand ≠ some fd) :
    s.settled.endpoint.connectedClientsFds.bit (fdToWord fd) =
      s.world.endpoint.connectedClientsFds.bit (fdToWord fd) := by
  apply bit_settled
  rintro fd' hfd' heq
  exact hne (fdToWord_injective heq ▸ hfd')

/-- The records of a descriptor that the accept thread does not have in its hand agree. -/
lemma agrees (h : s.Records k) (hne : s.acceptPc.hand ≠ some fd) : s.world.Agrees fd := by
  have hselector : s.world.endpoint.epSelector = s.settled.endpoint.epSelector := by
    rw [endpoint_settled]
  have hshutdown : s.world.endpoint.shutdownFd = s.settled.endpoint.shutdownFd := by
    rw [endpoint_settled]
  have hep : s.acceptPc.hand ≠ some s.world.endpoint.epSelector := by
    intro hhand
    have hepoll := files_settled_le (hselector ▸ h.settles.registry.selector)
    exact (h.loose_of_hand hhand).ne hepoll rfl rfl
  have hinterest : s.settled.kernel.interest s.settled.endpoint.epSelector fd =
      s.world.kernel.interest s.world.endpoint.epSelector fd := by
    rw [← hselector]
    exact interest_settled hep hne
  obtain ⟨hbit, hlisted, hentry⟩ := h.settles.registry.agrees h.settles.watched fd
  rw [bit_settled_of_ne hne, accepted_settled hne] at hbit
  rw [hinterest, accepted_settled hne, ← hshutdown] at hlisted
  rw [hinterest, ← hshutdown] at hentry
  exact ⟨hbit, hlisted, hentry⟩

/-- The event thread gets what `epoll_wait` returns when it is asked for one event, and no entry
changes. -/
lemma epollWait_of_eventWait (h : s.Records k) {s' : Server Q n} {events : BitVec 32}
    (hwait : s.eventWait (.event fd events) = some s') : ∃ event,
    s.world.kernel.epollWait s.world.endpoint.epSelector 1 [(fd, events)] =
        some ([event], s'.world.kernel) ∧
      s'.report = ⟨event.data, event.events, s.world.kernel.files fd⟩ := by
  unfold eventWait at hwait
  cases hpc : s.eventPc with
  | enqueue | test | callPost | posting | returned => simp [hpc] at hwait
  | epollWait =>
    simp only [hpc, bind, Option.bind_eq_some_iff, pure, Option.some.injEq] at hwait
    obtain ⟨event, hevent, rfl⟩ := hwait
    refine ⟨event, ?_, rfl⟩
    have hsame : s.world.kernel.disarm s.world.endpoint.epSelector [fd] = s.world.kernel := by
      refine Kernel.disarm_eq_self fun fd' _ e he => ?_
      obtain ⟨-, hshot, -⟩ := h.clients.world.entry fd' e he
      exact hshot
    have hroom : [(fd, events)].length ≤ 1 := le_rfl
    simp only [Kernel.epollWait, if_pos hroom, Kernel.reportAll, hevent, hsame]
    rfl

end Server.Records

variable [FifoQueue Q Pointer]

namespace PageServer

variable {s s' : PageServer Q n} {a : PageServerAct n}

/-- Until `main` returns, the program is the server. -/
lemma step_server (h : s.step a = some s') (hrun : s'.returned = false) :
    s.returned = false ∧ ∃ a, s.toServer.step a = some s'.toServer := by
  cases a with
  | server a =>
    simp only [step] at h
    split_ifs at h with hreturned
    simp only [bind, Option.bind_eq_some_iff, pure, Option.some.injEq] at h
    obtain ⟨server, hserver, rfl⟩ := h
    exact ⟨hrun, a, hserver⟩
  | endpointClose =>
    simp only [step, Option.ite_none_right_eq_some, bind, Option.bind_eq_some_iff, pure,
      Option.some.injEq] at h
    obtain ⟨-, result, -, rfl⟩ := h
    cases hrun

lemma records_of_reachable (h : (pageServerSystem Q n k).Reachable s) (hrun : s.returned = false) :
    s.toServer.Records k := by
  apply h.invariant (I := fun s => s.returned = false → s.toServer.Records k) ?_ ?_ hrun
  · rintro _ ⟨hk, srvFd, epListener, epSelector, shutdownFd, w, hw, rfl⟩ -
    exact Server.Records.initial hk hw
  · intro s a s' hs hstep hrun
    obtain ⟨hrun, a, hserver⟩ := step_server hstep hrun
    exact (hs hrun).step (Server.Rule.of_step hserver)

end PageServer

/-- The labels, taken from the start in a new process, lead to a state of the page server. -/
lemma PageServer.reachable_of_exec {P : PageServer Q n → Prop} [DecidablePred P]
    (acts : List (PageServerAct n)) (h : ((endpointCreate .initial 3 4 5 6).bind fun w =>
      (pageServerSystem Q n .initial).exec ⟨.initial w, false⟩ acts).any (P ·) = true) :
    ∃ s, (pageServerSystem Q n .initial).Reachable s ∧ P s := by
  obtain ⟨s, hs, hP⟩ := (Option.any_eq_true ..).mp h
  obtain ⟨w, hw, hs⟩ := Option.bind_eq_some_iff.mp hs
  exact ⟨s, ⟨_, acts, ⟨⟨rfl, rfl⟩, 3, 4, 5, 6, w, hw, rfl⟩, LTS.run_of_exec hs⟩,
    of_decide_eq_true hP⟩

namespace Server

variable {s s' : Server Q n} {c : ℕ}

/-- The connection was closed, or its descriptor is queued, or the accept thread took it off the
queue. -/
def Closing (c : ℕ) (s : Server Q n) : Prop :=
  c ∈ s.world.kernel.closedConns ∨ ∃ fd, s.world.kernel.files fd = some (.conn c) ∧
    (s.acceptPc.closes = some fd ∨ ∃ v ∈ s.world.endpoint.disconnectQueue, wordToFd v = fd)

omit [FifoQueue Q Pointer] in
/-- Nothing is closed, and the accept thread takes nothing off the queue. -/
lemma Closing.frame (h : s.Closing c) (hcloses : s.acceptPc.closes = none)
    (hclosed : s'.world.kernel.closed = s.world.kernel.closed)
    (hfiles : ∀ fd, s.world.kernel.files fd = some (.conn c) →
      s'.world.kernel.files fd = some (.conn c))
    (hqueue : ∀ v ∈ s.world.endpoint.disconnectQueue, v ∈ s'.world.endpoint.disconnectQueue) :
    s'.Closing c := by
  rcases h with hc | ⟨fd, hfd, hfd' | ⟨v, hv, rfl⟩⟩
  · left
    rwa [Kernel.closedConns, hclosed]
  · rw [hcloses] at hfd'
    cases hfd'
  · exact .inr ⟨_, hfiles _ hfd, .inr ⟨v, hqueue v hv, rfl⟩⟩

omit [FifoQueue Q Pointer] in
/-- The accept thread keeps the descriptor that it took off the queue. -/
lemma Closing.keep (h : s.Closing c) (hcloses : s'.acceptPc.closes = s.acceptPc.closes)
    (hclosed : s'.world.kernel.closed = s.world.kernel.closed)
    (hfiles : s'.world.kernel.files = s.world.kernel.files)
    (hqueue : s'.world.endpoint.disconnectQueue = s.world.endpoint.disconnectQueue) :
    s'.Closing c := by
  unfold Closing
  rw [Kernel.closedConns, hclosed, hfiles, hcloses, hqueue]
  exact h

omit [FifoQueue Q Pointer] in
lemma Closing.acceptProc (h : s.Closing c) (hrule : s.AcceptRule s') : s'.Closing c := by
  cases hrule with
  | register hpc | test hpc | lockQueue hpc | empty hpc | unlockQueue hpc =>
    exact h.frame (by rw [hpc]; rfl) rfl (fun _ => id) fun _ => id
  | @epollAdd fd hpc =>
    apply h.frame
    · rw [hpc]
      rfl
    · exact Kernel.closed_epollAdd
    · intro fd' hfd'
      rw [Kernel.files_epollAdd]
      exact hfd'
    · exact fun _ => id
  | deregister hpc | epollDel hpc | shutdown hpc => exact h.keep (by rw [hpc]; rfl) rfl rfl rfl
  | pop hpc hqueue =>
    rcases h with hc | ⟨fd, hfd, hcloses | ⟨v, hv, rfl⟩⟩
    · exact .inl hc
    · rw [hpc] at hcloses
      cases hcloses
    · refine .inr ⟨_, hfd, ?_⟩
      rw [hqueue] at hv
      rcases List.mem_cons.mp hv with rfl | hv
      · exact .inl rfl
      · exact .inr ⟨v, hv, rfl⟩
  | @close fd hpc =>
    have hclosed : (s.world.kernel.close fd).closedConns = s.world.kernel.closedConns ++
        ((s.world.kernel.files fd).bind File.conn?).toList := Kernel.closedConns_close
    rcases h with hc | ⟨fd', hfd', hcloses⟩
    · left
      rw [hclosed]
      exact List.mem_append_left _ hc
    · by_cases heq : fd' = fd
      · left
        rw [hclosed, ← heq, hfd']
        exact List.mem_append_right _ List.mem_cons_self
      · refine .inr ⟨fd', ?_, .inr (hcloses.resolve_left ?_)⟩
        · rw [Kernel.files_close, if_neg heq, hfd']
        · rw [hpc]
          rintro ⟨⟩
          exact heq rfl

omit [FifoQueue Q Pointer] in
/-- What is about to be closed stays so until it is closed. -/
theorem Closing.step (h : s.Closing c) (hrule : s.Rule s') : s'.Closing c := by
  cases hrule with
  | arrive | hangup => exact h.keep rfl rfl rfl rfl
  | listened hpc =>
    refine h.frame ?_ rfl (fun _ => id) fun _ => id
    rcases hpc with hpc | hpc
    · rw [hpc]
      rfl
    · rw [hpc]
      rfl
  | @accept fd kernel hpc hk =>
    obtain ⟨c', backlog, -, hnone, -, hfiles, -⟩ := Kernel.accept_spec hk
    apply h.frame
    · rw [hpc]
      rfl
    · exact Kernel.closed_accept hk
    · intro fd' hfd'
      have hne : fd' ≠ fd := by
        rintro rfl
        cases hnone.symm.trans hfd'
      rw [hfiles, Function.update_of_ne hne]
      exact hfd'
    · exact fun _ => id
  | lost hpc hk =>
    obtain ⟨-, -, -, -, -, -, hfiles, -⟩ := Kernel.lose_spec hk
    refine h.frame ?_ (Kernel.closed_lose hk) (fun fd hfd => ?_) fun _ => id
    · rw [hpc]
      rfl
    · rw [hfiles]
      exact hfd
  | acceptProc hrule => exact h.acceptProc hrule
  | enqueue =>
    refine h.imp id ?_
    rintro ⟨fd, hfd, hcloses⟩
    refine ⟨fd, hfd, hcloses.imp id ?_⟩
    rintro ⟨v, hv, rfl⟩
    exact ⟨v, List.mem_cons_of_mem _ hv, rfl⟩
  | other hworld _ haccept =>
    unfold Closing
    rw [hworld, haccept]
    exact h

omit [FifoQueue Q Pointer] in
/-- When the accept thread gives the queue lock back, what was about to be closed is closed. -/
lemma Closing.closed (h : s.Closing c) (hlock : s.QueueLock) (hpc : s.acceptPc = .unlockQueue) :
    c ∈ s.world.kernel.closedConns := by
  rcases h with hc | ⟨fd, -, hcloses | ⟨v, hv, -⟩⟩
  · exact hc
  · rw [hpc] at hcloses
    cases hcloses
  · rw [hlock.empty hpc] at hv
    cases hv

end Server

/-- A client whose hang-up is on the disconnection queue is closed once, whatever is queued besides
and whichever numbers are handed out meanwhile: when the accept thread gives the queue lock back,
the connection has been closed exactly once and is open under no number. -/
theorem queued_hangup_closed {s s' : PageServer Q n} {as : List (PageServerAct n)} {c : ℕ}
    {v : BitVec 64} (h : (pageServerSystem Q n k).Reachable s)
    (hv : v ∈ s.world.endpoint.disconnectQueue)
    (hc : s.world.kernel.files (wordToFd v) = some (.conn c))
    (hrun : (pageServerSystem Q n k).Run s as s') (hreturned : s'.returned = false)
    (hpc : s'.acceptPc = .unlockQueue) :
    s'.world.kernel.closedConns.count c = 1 ∧
      ∀ fd, s'.world.kernel.files fd ≠ some (.conn c) := by
  have hclosing : s'.toServer.Closing c := by
    apply hrun.invariant (I := fun s => s.returned = false → s.toServer.Closing c) ?_ ?_ hreturned
    · exact fun _ => .inr ⟨_, hc, .inr ⟨v, hv, rfl⟩⟩
    · intro s a s' hs hstep hreturned
      obtain ⟨hreturned, a, hserver⟩ := PageServer.step_server hstep hreturned
      exact (hs hreturned).step (Server.Rule.of_step hserver)
  have hR := PageServer.records_of_reachable (h.append hrun) hreturned
  have hclosed := hclosing.closed hR.lock hpc
  exact ⟨List.count_eq_one_of_mem hR.ledger.nodup hclosed, (hR.ledger.closed c hclosed).2⟩

/-- The hang-up of client 7 is reported twice before the accept thread looks at the queue. -/
theorem queued_hangup_closed_twice : ∃ s : PageServer (RingQueue Pointer) 1,
    s.world.kernel.closed = [(7, some (.conn 0)), (7, none)] ∧
      s.world.kernel.closedConns.count 0 = 1 ∧ ∀ fd, s.world.kernel.files fd ≠ some (.conn 0) := by
  let system := pageServerSystem (RingQueue Pointer) 1 .initial
  let posts : List (ServerAct 1) :=
    [.pool (.post (.client ())), .pool (.post (.client ())), .pool (.post (.client ())),
      .pool (.post (.client ())), .pool (.postSignal (.client ()) none)]
  let report : List (ServerAct 1) := [.eventWait (.event 7 EPOLLRDHUP), .clientEventProcessor]
  let acts : List (ServerAct 1) :=
    [.arrive, .acceptWait EPOLLIN, .accept 0 (some 7), .acceptProc, .acceptProc] ++ report ++
      [.clientEventProcessor, .clientEventProcessor] ++ posts ++ [.clientEventProcessor] ++ report
  let drain : List (PageServerAct 1) := List.replicate 13 (.server .acceptProc)
  obtain ⟨s, hs, hqueue, hc, hdrain⟩ := PageServer.reachable_of_exec
    (P := fun s => s.world.endpoint.disconnectQueue = [7, 7] ∧
      s.world.kernel.files 7 = some (.conn 0) ∧ (system.exec s drain).any (fun s' =>
        s'.returned = false ∧ s'.acceptPc = .unlockQueue ∧
          s'.world.kernel.closed = [(7, some (.conn 0)), (7, none)]) = true)
    (acts.map .server) (by decide +kernel)
  obtain ⟨s', hs', hdrain⟩ := (Option.any_eq_true ..).mp hdrain
  obtain ⟨hreturned, hpc, hclosed⟩ := of_decide_eq_true hdrain
  have hv : 7 ∈ s.world.endpoint.disconnectQueue := by
    rw [hqueue]
    exact List.mem_cons_self
  exact ⟨s', hclosed, queued_hangup_closed hs hv hc (LTS.run_of_exec hs') hreturned hpc⟩

end C10K
