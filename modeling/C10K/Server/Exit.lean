import C10K.Server.Agreement
import C10K.Workers.Shutdown

/-!
# How the page server stops

`main` sets `stop`, joins the accept thread and the event thread, joins the pool and closes the
endpoint. Each of the two threads waits at most once more, and in the end the process has the
descriptors that it started with.
-/

namespace C10K

/-- Only the call of `w_join` makes the pool be joined. -/
lemma Pool.notCalled_step {Q W ι : Type} [FifoQueue Q W] [LawfulFifoQueue Q W] [DecidableEq ι]
    {n : ℕ} {p p' : Pool Q W n ι} {a : PoolAct W n ι} (h : p.step a = some p') (ha : a ≠ .callJoin)
    (hjoin : p.join = .notCalled) : p'.join = .notCalled := by
  cases PoolRule.of_step h with
  | callJoin => exact absurd rfl ha
  | joinTestSet hpc | joinTestUnset hpc | setStop hpc | joinSignal hpc | joinOne hpc
  | joinAll hpc =>
    cases hpc.symm.trans hjoin
  | signal _ _ hwake | postSignal _ hwake =>
    cases hwake with
    | _ => exact hjoin
  | _ => exact hjoin

variable {Q : Type} [FifoQueue Q Pointer] {n : ℕ}

/-! ### Turns -/

namespace Server

variable {s s' : Server Q n} {a : ServerAct n}

/-- Whose turn a step is: it leaves alone what the other threads have for themselves. -/
inductive Turn (s : Server Q n) : ServerAct n → Server Q n → Prop where
  | arrive : Turn s .arrive { s with world := { s.world with kernel := s.world.kernel.arrive } }
  | setStop : Turn s .setStop { s with stop := true }
  | acceptWait {events : BitVec 32} {acceptPc : AcceptPc} (h : s.acceptPc = .epollWait)
      (hpc : acceptPc = .accept ∨ acceptPc = .test (-1)) :
      Turn s (.acceptWait events) { s with acceptPc }
  | accept {clientAddressLen : BitVec 32} {answer : Option Fd} {world : World}
      {acceptPc : AcceptPc} (h : s.acceptPc = .accept)
      (hpc : acceptPc = .test 0 ∨ ∃ fd, acceptPc = .register fd) :
      Turn s (.accept clientAddressLen answer) { s with world, acceptPc }
  | acceptProc {s' : Server Q n} (h : s.AcceptRule s') : Turn s .acceptProc s'
  | eventWait {answer : WaitAnswer} {report : Report} {eventPc : EventPc}
      (h : s.eventPc = .epollWait) (hpc : eventPc = .enqueue ∨ ∃ count, eventPc = .test count) :
      Turn s (.eventWait answer) { s with report, eventPc }
  | clientEventProcessor {s' : Server Q n} (h : s.EventEffect s') : Turn s .clientEventProcessor s'
  | pool {a : PoolAct Pointer n Unit} {pool : Pool Q Pointer n Unit} {clientPc : Fin n → ClientPc}
      (h : s.pool.step a = some pool) (hpost : ∀ t job args, a ≠ .callPost t job args)
      (hjoin : a = .callJoin → s.stop = true ∧ s.acceptPc = .returned ∧ s.eventPc = .returned) :
      Turn s (.pool a) { s with pool, clientPc }
  | recv {i : Fin n} {received : Bool} {clientPc : Fin n → ClientPc} {io : List IoCall} :
      Turn s (.recv i received) { s with clientPc, io }
  | send {i : Fin n} {clientPc : Fin n → ClientPc} {io : List IoCall} :
      Turn s (.send i) { s with clientPc, io }

omit [FifoQueue Q Pointer] in
lemma ioCall_spec {i : Fin n} {next : ClientPc} (h : s.ioCall i next = some s') :
    ∃ clientPc io, s' = { s with clientPc, io } := by
  unfold ioCall at h
  split at h
  · cases h
    exact ⟨_, _, rfl⟩
  · cases h

lemma turn_of_acceptAnswer {clientAddressLen : BitVec 32} {answer : Option Fd}
    (h : s.acceptAnswer clientAddressLen answer = some s') :
    s.Turn (.accept clientAddressLen answer) s' := by
  obtain ⟨hpc, rfl | ⟨fd, kernel, -, rfl⟩ | ⟨fd, kernel, -, -, rfl⟩⟩ := acceptAnswer_spec h
  · have hturn : s.Turn (.accept clientAddressLen answer)
        { s with world := s.world, acceptPc := .test 0 } := .accept hpc (.inl rfl)
    exact hturn
  · exact .accept hpc (.inl rfl)
  · exact .accept hpc (.inr ⟨fd, rfl⟩)

lemma turn_of_eventWait {answer : WaitAnswer} (h : s.eventWait answer = some s') :
    s.Turn (.eventWait answer) s' := by
  unfold eventWait at h
  split at h
  · rename_i hpc
    cases h
    exact .eventWait hpc (.inr ⟨_, rfl⟩)
  · rename_i hpc
    cases h
    exact .eventWait hpc (.inr ⟨_, rfl⟩)
  · rename_i hpc
    obtain ⟨event, -, h⟩ := Option.bind_eq_some_iff.mp h
    cases h
    refine .eventWait hpc ?_
    split_ifs
    · exact .inl rfl
    · exact .inr ⟨1, rfl⟩
  · cases h

lemma turn_of_poolStep {a : PoolAct Pointer n Unit} (h : s.poolStep a = some s') :
    s.Turn (.pool a) s' := by
  obtain ⟨hpost, pool, clientPc, hpool, rfl⟩ := poolStep_spec h
  refine .pool hpool hpost ?_
  rintro rfl
  exact (Option.ite_none_right_eq_some.mp h).1

/-- Every step is somebody's turn. -/
theorem Turn.of_step (h : s.step a = some s') : s.Turn a s' := by
  cases a with
  | arrive =>
    cases h
    exact .arrive
  | setStop =>
    cases h
    exact .setStop
  | acceptWait events =>
    simp only [Server.step, Server.acceptWait] at h
    split at h
    · rename_i hpc
      cases h
      refine .acceptWait hpc ?_
      split_ifs
      · exact .inr rfl
      · exact .inl rfl
    · cases h
  | accept clientAddressLen answer => exact turn_of_acceptAnswer h
  | acceptProc => exact .acceptProc (AcceptRule.of_step h)
  | eventWait answer => exact turn_of_eventWait h
  | clientEventProcessor => exact .clientEventProcessor (eventEffect_of_clientEventProcessor h)
  | pool a => exact turn_of_poolStep h
  | recv i received =>
    obtain ⟨clientPc, io, rfl⟩ := ioCall_spec (Option.ite_none_right_eq_some.mp h).2
    exact .recv
  | send i =>
    obtain ⟨clientPc, io, rfl⟩ := ioCall_spec (Option.ite_none_right_eq_some.mp h).2
    exact .send

end Server

/-! ### The last round -/

def ServerAct.isAcceptWait : ServerAct n → Bool
  | .acceptWait _ => true
  | _             => false

def ServerAct.isAccept : ServerAct n → Bool
  | .accept _ _ => true
  | _           => false

def ServerAct.isEventWait : ServerAct n → Bool
  | .eventWait _ => true
  | _            => false

/-- How often a thread that saw `stop` can still wait for a connection. -/
def AcceptPc.waitsLeft : AcceptPc → ℕ
  | .epollWait | .lockQueue | .pop | .deregister _ | .epollDel _ | .shutdown _ | .close _
  | .unlockQueue => 1
  | .accept | .register _ | .epollAdd _ | .test _ | .returned => 0

/-- How often it can still call `accept`. -/
def AcceptPc.acceptsLeft : AcceptPc → ℕ
  | .epollWait | .lockQueue | .pop | .deregister _ | .epollDel _ | .shutdown _ | .close _
  | .unlockQueue | .accept => 1
  | .register _ | .epollAdd _ | .test _ | .returned => 0

/-- How often it can still wait for an event. -/
def EventPc.waitsLeft : EventPc → ℕ
  | .epollWait | .callPost | .posting => 1
  | .enqueue | .test _ | .returned    => 0

/-- How often it can still post. -/
def EventPc.postsLeft : EventPc → ℕ
  | .callPost => 1
  | .epollWait | .enqueue | .test _ | .posting | .returned => 0

lemma AcceptPc.waitsLeft_le (pc : AcceptPc) : pc.waitsLeft ≤ 1 := by
  cases pc with
  | _ => simp [waitsLeft]

lemma AcceptPc.acceptsLeft_le (pc : AcceptPc) : pc.acceptsLeft ≤ 1 := by
  cases pc with
  | _ => simp [acceptsLeft]

lemma EventPc.waitsLeft_le (pc : EventPc) : pc.waitsLeft ≤ 1 := by
  cases pc with
  | _ => simp [waitsLeft]

lemma EventPc.postsLeft_le (pc : EventPc) : pc.postsLeft ≤ 1 := by
  cases pc with
  | _ => simp [postsLeft]

namespace Server

variable {s s' : Server Q n} {a : ServerAct n}

omit [FifoQueue Q Pointer] in
lemma not_goesOn {count : ℤ} (hstop : s.stop = true) : ¬ (count > -1 ∧ s.stop = false) := by
  rintro ⟨-, hrun⟩
  cases hrun.symm.trans hstop

lemma stop_step (hstop : s.stop = true) (h : s.Turn a s') : s'.stop = true := by
  cases h with
  | setStop => rfl
  | acceptProc h =>
    cases h with
    | _ => exact hstop
  | clientEventProcessor h =>
    cases h with
    | _ => exact hstop
  | _ => exact hstop

/-- A turn uses up what is left to the accept thread. -/
lemma accept_left (hstop : s.stop = true) (h : s.Turn a s') :
    (if a.isAcceptWait then 1 else 0) + s'.acceptPc.waitsLeft ≤ s.acceptPc.waitsLeft ∧
      (if a.isAccept then 1 else 0) + s'.acceptPc.acceptsLeft ≤ s.acceptPc.acceptsLeft := by
  cases h with
  | acceptWait h hpc =>
    rw [h]
    rcases hpc with rfl | rfl
    · exact ⟨le_rfl, le_rfl⟩
    · exact ⟨le_rfl, Nat.zero_le _⟩
  | accept h hpc =>
    rw [h]
    rcases hpc with rfl | ⟨fd, rfl⟩
    · exact ⟨le_rfl, le_rfl⟩
    · exact ⟨le_rfl, le_rfl⟩
  | acceptProc h =>
    cases h with
    | test h =>
      rw [h, if_neg (not_goesOn hstop)]
      exact ⟨le_rfl, le_rfl⟩
    | register h | epollAdd h | lockQueue h | empty h | pop h | deregister h | epollDel h
    | shutdown h | close h | unlockQueue h =>
      rw [h]
      exact ⟨le_rfl, le_rfl⟩
  | clientEventProcessor h =>
    cases h with
    | _ => exact ⟨(Nat.zero_add _).le, (Nat.zero_add _).le⟩
  | _ => exact ⟨(Nat.zero_add _).le, (Nat.zero_add _).le⟩

/-- A turn uses up what is left to the event thread. -/
lemma event_left (hstop : s.stop = true) (h : s.Turn a s') :
    (if a.isEventWait then 1 else 0) + s'.eventPc.waitsLeft ≤ s.eventPc.waitsLeft ∧
      s'.posted.length + s'.eventPc.postsLeft ≤ s.posted.length + s.eventPc.postsLeft := by
  cases h with
  | eventWait h hpc =>
    rw [h]
    rcases hpc with rfl | ⟨count, rfl⟩
    · exact ⟨le_rfl, le_rfl⟩
    · exact ⟨le_rfl, le_rfl⟩
  | acceptProc h =>
    cases h with
    | _ => exact ⟨(Nat.zero_add _).le, le_rfl⟩
  | clientEventProcessor h =>
    cases h with
    | enqueue h | posting h =>
      rw [h]
      exact ⟨le_rfl, le_rfl⟩
    | test h =>
      rw [h, if_neg (not_goesOn hstop)]
      exact ⟨le_rfl, le_rfl⟩
    | callPost h =>
      rw [h, List.length_append]
      exact ⟨le_rfl, le_rfl⟩
  | _ => exact ⟨(Nat.zero_add _).le, le_rfl⟩

/-- Once `stop` is set, the accept thread waits at most once more and calls `accept` at most once
more, and the event thread waits at most once more and posts at most one event more, however the
threads, the clients and the workers are scheduled. -/
theorem stop_ends_waiting {as : List (ServerAct n)} (hrun : (serverSystem Q n).Run s as s')
    (hstop : s.stop = true) :
    as.countP ServerAct.isAcceptWait ≤ 1 ∧ as.countP ServerAct.isAccept ≤ 1 ∧
      as.countP ServerAct.isEventWait ≤ 1 ∧ s'.posted.length ≤ s.posted.length + 1 := by
  have hstep : ∀ s a s', s.stop = true → (serverSystem Q n).step s a = some s' →
      s'.stop = true := fun s a s' hs h => stop_step hs (Turn.of_step h)
  have hwaits := hrun.countP_add_le (m := fun s => s.acceptPc.waitsLeft) hstop hstep
    fun s a s' hs h => (accept_left hs (Turn.of_step h)).1
  have haccepts := hrun.countP_add_le (m := fun s => s.acceptPc.acceptsLeft) hstop hstep
    fun s a s' hs h => (accept_left hs (Turn.of_step h)).2
  have hevents := hrun.countP_add_le (m := fun s => s.eventPc.waitsLeft) hstop hstep
    fun s a s' hs h => (event_left hs (Turn.of_step h)).1
  have hposts : s'.stop = true ∧ s'.posted.length + s'.eventPc.postsLeft ≤
      s.posted.length + s.eventPc.postsLeft := by
    apply hrun.invariant (I := fun t => t.stop = true ∧ t.posted.length + t.eventPc.postsLeft ≤
      s.posted.length + s.eventPc.postsLeft)
    · exact ⟨hstop, le_rfl⟩
    · rintro t a t' ⟨ht, hle⟩ h
      exact ⟨hstep t a t' ht h, ((event_left ht (Turn.of_step h)).2).trans hle⟩
  refine ⟨?_, ?_, ?_, ?_⟩
  · exact (Nat.le_of_add_right_le hwaits).trans s.acceptPc.waitsLeft_le
  · exact (Nat.le_of_add_right_le haccepts).trans s.acceptPc.acceptsLeft_le
  · exact (Nat.le_of_add_right_le hevents).trans s.eventPc.waitsLeft_le
  · exact (Nat.le_of_add_right_le hposts.2).trans
      (Nat.add_le_add_left s.eventPc.postsLeft_le _)

end Server

/-- `stop` is set while the event thread is about to post: it posts, waits once more and returns. -/
theorem stop_ends_waiting_posting : ∃ (s s' : Server (RingQueue Pointer) 1)
    (as : List (ServerAct 1)), s.stop = true ∧ s.eventPc = .callPost ∧
      as.countP ServerAct.isEventWait = 1 ∧ s'.eventPc = .returned ∧
      as.countP ServerAct.isAcceptWait ≤ 1 ∧ s'.posted.length ≤ s.posted.length + 1 := by
  let system := serverSystem (RingQueue Pointer) 1
  let acts : List (ServerAct 1) := [.arrive, .acceptWait EPOLLIN, .accept 0 (some 7), .acceptProc,
    .acceptProc, .eventWait (.event 7 EPOLLIN), .clientEventProcessor, .setStop]
  let last : List (ServerAct 1) := [.clientEventProcessor, .pool (.post (.client ())),
    .pool (.post (.client ())), .pool (.post (.client ())), .pool (.post (.client ())),
    .pool (.postSignal (.client ()) none), .clientEventProcessor,
    .eventWait (.event 7 EPOLLIN), .clientEventProcessor]
  have hrun : ((endpointCreate .initial 3 4 5 6).bind fun w => system.exec (.initial w) acts).any
      (fun s => s.stop = true ∧ s.eventPc = .callPost ∧
        (system.exec s last).any (·.eventPc = .returned) = true) = true := by decide +kernel
  obtain ⟨s, -, hs⟩ := (Option.any_eq_true ..).mp hrun
  obtain ⟨hstop, hpc, hlast⟩ := of_decide_eq_true hs
  obtain ⟨s', hs', hreturned⟩ := (Option.any_eq_true ..).mp hlast
  obtain ⟨hwaits, -, -, hposted⟩ := Server.stop_ends_waiting (LTS.run_of_exec hs') hstop
  exact ⟨s, s', last, hstop, hpc, rfl, of_decide_eq_true hreturned, hwaits, hposted⟩

/-! ### The end of the run -/

section Close

variable {w : World} {clients : List Fd} {fd : Fd}

lemma files_foldl_disconnectAllForeach (clients : List Fd) (w : World) :
    ((clients.map fdToWord).foldl disconnectAllForeach w).kernel.files fd =
      if fd ∈ clients then none else w.kernel.files fd := by
  induction clients generalizing w with
  | nil => rfl
  | cons client clients ih =>
    rw [List.map_cons, List.foldl_cons, disconnectAllForeach_fdToWord, ih,
      files_endpointDisconnectClient]
    by_cases hfd : fd = client
    · simp [hfd]
    · simp [hfd]

lemma ledger_foldl_disconnectAllForeach (h : w.kernel.Ledger) (clients : List Fd) :
    ((clients.map fdToWord).foldl disconnectAllForeach w).kernel.Ledger := by
  induction clients generalizing w with
  | nil => exact h
  | cons client clients ih =>
    rw [List.map_cons, List.foldl_cons, disconnectAllForeach_fdToWord]
    exact ih (h.epollDel.shutdown client).close

/-- What `endpoint_close` leaves: the descriptors of the endpoint and of its clients denote
nothing. -/
lemma endpointClose_spec (hsize : w.endpoint.connectedClientsFds.size ≤ 2 ^ 58)
    (hmembers : w.endpoint.connectedClientsFds.members = clients.map fdToWord)
    (hL : w.kernel.Ledger) : ∃ k, endpointClose w = some (k, []) ∧ k.Ledger ∧
      ∀ fd, k.files fd =
        if fd ∈ w.endpoint.closeOrder clients then none else w.kernel.files fd := by
  let w₀ := { w with kernel := w.kernel.close w.endpoint.srvFd }
  obtain ⟨-, hendpoint⟩ := foldl_disconnectAllForeach_closed clients [] w₀
  have hL₁ := ledger_foldl_disconnectAllForeach (w := w₀) hL.close clients
  have hfiles : ∀ fd, ((clients.map fdToWord).foldl disconnectAllForeach w₀).kernel.files fd =
      if fd ∈ clients then none else w₀.kernel.files fd :=
    fun fd => files_foldl_disconnectAllForeach clients w₀
  have hdisconnect := World.endpointDisconnectAllClients_eq (w := w₀) hsize
  rw [show w₀.endpoint.connectedClientsFds.members = _ from hmembers] at hdisconnect
  set w₁ := (clients.map fdToWord).foldl disconnectAllForeach w₀
  have hlistener : w₁.endpoint.epListener = w.endpoint.epListener := by rw [hendpoint]
  have hselector : w₁.endpoint.epSelector = w.endpoint.epSelector := by rw [hendpoint]
  have hshutdown : w₁.endpoint.shutdownFd = w.endpoint.shutdownFd := by rw [hendpoint]
  unfold endpointClose
  simp only [bind, Option.bind]
  rw [show endpointDisconnectAllClients { w with kernel := _ } = _ from hdisconnect]
  refine ⟨_, rfl, hL₁.epollDel.epollDel.epollDel.close.close.close, ?_⟩
  intro fd
  simp only [endpointClearDisconnectionQueue, World.setQueue, Kernel.files_close,
    Kernel.files_epollDel, hlistener, hselector, hshutdown, hfiles, w₀]
  simp only [Endpoint.closeOrder, List.mem_cons, List.mem_append, List.not_mem_nil, or_false]
  clear * -
  grind

end Close

section Join

variable [LawfulFifoQueue Q Pointer] {s s' : Server Q n} {a : ServerAct n}

/-- `w_join` is called when the two threads have returned. -/
def Server.Joins (s : Server Q n) : Prop :=
  s.pool.join ≠ .notCalled → s.acceptPc = .returned ∧ s.eventPc = .returned

lemma Server.Joins.step (h : s.Joins) (hturn : s.Turn a s') : s'.Joins := by
  cases hturn with
  | acceptWait hpc | accept hpc =>
    intro hjoin
    cases hpc.symm.trans (h hjoin).1
  | eventWait hpc =>
    intro hjoin
    cases hpc.symm.trans (h hjoin).2
  | acceptProc hrule =>
    cases hrule with
    | register hpc | epollAdd hpc | test hpc | lockQueue hpc | empty hpc | pop hpc | deregister hpc
    | epollDel hpc | shutdown hpc | close hpc | unlockQueue hpc =>
      intro hjoin
      cases hpc.symm.trans (h hjoin).1
  | clientEventProcessor heffect =>
    cases heffect with
    | enqueue hpc | test hpc | posting hpc =>
      intro hjoin
      cases hpc.symm.trans (h hjoin).2
    | callPost hpc hpool =>
      intro hjoin
      have hcalled : s.pool.join ≠ .notCalled := fun hnot =>
        hjoin (Pool.notCalled_step hpool nofun hnot)
      cases hpc.symm.trans (h hcalled).2
  | @pool a pool clientPc hpool _ hcall =>
    intro hjoin
    by_cases ha : a = .callJoin
    · exact (hcall ha).2
    · exact h fun hnot => hjoin (Pool.notCalled_step hpool ha hnot)
  | _ => exact h

lemma Server.joins_of_reachable (h : (serverSystem Q n).Reachable s) : s.Joins := by
  apply h.invariant (I := Server.Joins)
  · rintro _ ⟨-, -, -, -, -, w, -, rfl⟩ hjoin
    exact absurd rfl hjoin
  · intro s a s' hs hstep
    exact hs.step (Server.Turn.of_step hstep)

end Join

namespace PageServer

variable {k : Kernel Fd} {s : PageServer Q n}

lemma server_of_reachable (h : (pageServerSystem Q n k).Reachable s) (hrun : s.returned = false) :
    (serverSystem Q n).Reachable s.toServer := by
  apply h.invariant (I := fun s => s.returned = false → (serverSystem Q n).Reachable s.toServer)
    ?_ ?_ hrun
  · rintro _ ⟨-, srvFd, epListener, epSelector, shutdownFd, w, hw, rfl⟩ -
    exact ⟨_, [], ⟨k, srvFd, epListener, epSelector, shutdownFd, w, hw, rfl⟩, .nil⟩
  · intro s a s' hs hstep hrun
    obtain ⟨hrun, a, hserver⟩ := step_server hstep hrun
    exact (hs hrun).snoc hserver

/-- `main` returned from a state in which the pool was joined, by closing the endpoint. -/
lemma exists_endpointClose (h : (pageServerSystem Q n k).Reachable s)
    (hreturned : s.returned = true) :
    ∃ t : PageServer Q n, (pageServerSystem Q n k).Reachable t ∧ t.returned = false ∧
      t.pool.join = .returned ∧ ∃ kernel disconnectQueue,
        endpointClose t.world = some (kernel, disconnectQueue) ∧ s = { t with
          world := ⟨kernel, { t.world.endpoint with disconnectQueue }⟩
          returned := true } := by
  obtain ⟨s₀, as, hinit, hrun⟩ := h
  cases hrun with
  | nil =>
    obtain ⟨-, srvFd, epListener, epSelector, shutdownFd, w, -, rfl⟩ := hinit
    cases hreturned
  | @snoc t _ as a hrun hstep =>
    cases a with
    | server a =>
      have hstep : t.step (.server a) = some s := hstep
      simp only [step] at hstep
      split_ifs at hstep with ht
      simp only [bind, Option.bind_eq_some_iff, pure, Option.some.injEq] at hstep
      obtain ⟨server, -, rfl⟩ := hstep
      exact absurd hreturned ht
    | endpointClose =>
      have hstep : t.step .endpointClose = some s := hstep
      simp only [step, Option.ite_none_right_eq_some, bind, Option.bind_eq_some_iff, pure,
        Option.some.injEq, Prod.exists] at hstep
      obtain ⟨⟨hjoin, ht⟩, kernel, queue, hclose, rfl⟩ := hstep
      exact ⟨t, ⟨s₀, as, hinit, hrun⟩, ht, hjoin, kernel, queue, hclose, rfl⟩

end PageServer

omit [FifoQueue Q Pointer] in
/-- The endpoint of a server whose accept thread returned is closed: the table is the one that the
process started with. -/
lemma Server.Records.endpointClose {k : Kernel Fd} {s : Server Q n} (hR : s.Records k)
    (hk : k.Fresh) (hpc : s.acceptPc = .returned) :
    ∃ kernel, endpointClose s.world = some (kernel, []) ∧ kernel.Ledger ∧
      kernel.files = k.files := by
  obtain ⟨hI, -, -⟩ := hR.settles.world (by rw [hpc]; rfl)
  obtain ⟨clients, hmembers, -, hclients⟩ := hI.exists_clients
  obtain ⟨kernel, hclose, hL, hfiles⟩ := endpointClose_spec hI.size_le hmembers hR.ledger
  refine ⟨kernel, hclose, hL, funext fun fd => ?_⟩
  rw [hfiles]
  have hmem : fd ∈ s.world.endpoint.closeOrder clients ↔
      fd ∈ s.world.endpoint.closeOrder [] ∨ s.world.Accepted fd := by
    rw [← hclients]
    simp only [Endpoint.closeOrder, List.mem_cons, List.mem_append, List.nil_append]
    tauto
  by_cases hfd : fd ∈ s.world.endpoint.closeOrder clients
  · rw [if_pos hfd, eq_comm]
    rcases hmem.mp hfd with hown | ⟨c, hc⟩
    · exact hR.unused fd hown
    · by_contra hne
      exact hk.not_conn ((hR.files_eq hne).symm.trans hc)
  · rw [if_neg hfd]
    rw [hmem, not_or] at hfd
    have htable : s.world.endpoint.table k.files fd = k.files fd := Endpoint.table_of_not_mem hfd.1
    rcases hR.clients.world.files fd with heq | ⟨-, hclient⟩
    · exact heq.trans htable
    · exact absurd hclient hfd.2

/-- When `main` returns, however the run went: the process has the descriptors that it started with
and no other, every connection that was ever accepted was closed exactly once, nothing is queued for
disconnection, both threads returned and every worker left, and every job that a worker took was
called once and returned once. -/
theorem page_server_exits_clean [LawfulFifoQueue Q Pointer] {k : Kernel Fd} {s : PageServer Q n}
    (h : (pageServerSystem Q n k).Reachable s) (hreturned : s.returned = true) :
    s.world.kernel.files = k.files ∧
      (∀ c, s.world.kernel.Seen c → s.world.kernel.closedConns.count c = 1) ∧
      s.world.endpoint.disconnectQueue = [] ∧ s.acceptPc = .returned ∧ s.eventPc = .returned ∧
      (∀ i, s.pool.worker i = .exited) ∧ ∀ t < s.pool.hist.plucked.length, s.pool.RanOnce t := by
  obtain ⟨_, _, ⟨hk, -⟩, -⟩ := id h
  obtain ⟨t, ht, hrun, hjoin, kernel, queue, hclose, rfl⟩ :=
    PageServer.exists_endpointClose h hreturned
  have hR := PageServer.records_of_reachable ht hrun
  have hserver := PageServer.server_of_reachable ht hrun
  obtain ⟨haccept, hevent⟩ := Server.joins_of_reachable hserver (by rw [hjoin]; exact nofun)
  obtain ⟨_, hkernel, hL, hfiles⟩ := hR.endpointClose hk haccept
  cases hclose.symm.trans hkernel
  obtain ⟨loop, hloop, hF⟩ := Server.exists_follows hserver
  obtain ⟨sent, hloop⟩ := EventLoop.Inv.of_reachable hloop
  have hpool : t.pool.Inv := hF.pool ▸ hloop.pool
  have hexited : ∀ i, t.pool.worker i = .exited := by
    have hinv := hpool.join
    rw [Pool.JoinInv, hjoin] at hinv
    exact hinv.2
  refine ⟨hfiles, ?_, rfl, haccept, hevent, hexited, fun _ => hpool.ranOnce hexited⟩
  intro c hc
  rcases hL.accounted c hc with ⟨fd, hfd⟩ | hclosed
  · exact absurd (hfiles ▸ hfd) hk.not_conn
  · exact List.count_eq_one_of_mem hL.nodup hclosed

/-- A client is still connected when `stop` is set, and `endpoint_close` closes it. -/
theorem page_server_exits_clean_client : ∃ s : PageServer (RingQueue Pointer) 1,
    s.returned = true ∧ s.world.kernel.Seen 0 ∧ s.world.kernel.files = (fun _ => none) ∧
      s.world.kernel.closedConns.count 0 = 1 := by
  let acts : List (ServerAct 1) :=
    [.arrive, .acceptWait EPOLLIN, .accept 0 (some 7), .acceptProc, .acceptProc, .setStop,
      .acceptProc, .eventWait .timeout, .clientEventProcessor, .pool .callJoin, .pool .join,
      .pool .join, .pool (.joinSignal none), .pool (.work 0), .pool (.work 0), .pool .join,
      .pool .join]
  obtain ⟨s, hs, hreturned, harrived, hunopened⟩ := PageServer.reachable_of_exec
    (Q := RingQueue Pointer) (n := 1) (P := fun s => s.returned = true ∧
      s.world.kernel.arrived = 1 ∧ s.world.kernel.backlog ++ s.world.kernel.lost = [])
    (acts.map .server ++ [.endpointClose]) (by decide +kernel)
  have hseen : s.world.kernel.Seen 0 := by
    constructor
    · rw [harrived]
      exact Nat.zero_lt_one
    · rw [hunopened]
      exact List.not_mem_nil
  obtain ⟨hfiles, hclosed, -⟩ := page_server_exits_clean hs hreturned
  exact ⟨s, hreturned, hseen, hfiles, hclosed 0 hseen⟩

end C10K
