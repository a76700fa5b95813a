import C10K.Server.Program

/-!
# The steps of the server, as the endpoint sees them

`Server.AcceptRule` has one rule for each step of the accept thread outside its system calls, and
`Server.Rule` says what any step of the server does to the endpoint. While the accept thread has a
descriptor in its hand, its steps are towards `Server.settled`.
-/

namespace C10K

variable {Q : Type} {n : ℕ} {fd : Fd}

lemma Kernel.interest_epollAdd_of_fd_ne {k : Kernel Fd} {ep ep' fd' : Fd} {e : EpollEvent Fd}
    (h : fd' ≠ fd) : (k.epollAdd ep fd e).interest ep' fd' = k.interest ep' fd' := by
  unfold Kernel.epollAdd
  split_ifs
  · exact if_neg fun heq => h heq.2
  · rfl

namespace Server

variable {s s' : Server Q n}

/-! ### The settled world -/

lemma settled_of_hand (h : s.acceptPc.hand = none) : s.settled = s.world := by
  unfold settled
  cases hpc : s.acceptPc with
  | register | epollAdd | deregister | epollDel | shutdown | close => rw [hpc] at h; cases h
  | epollWait | accept | test | lockQueue | pop | unlockQueue | returned => rfl

/-- Only the bit set of the endpoint is different. -/
lemma endpoint_settled : s.settled.endpoint =
    { s.world.endpoint with connectedClientsFds := s.settled.endpoint.connectedClientsFds } := by
  unfold settled
  cases s.acceptPc with
  | _ => rfl

/-- The other descriptors denote what they denote. -/
lemma files_settled (h : s.acceptPc.hand ≠ some fd) :
    s.settled.kernel.files fd = s.world.kernel.files fd := by
  unfold settled
  cases hpc : s.acceptPc with
  | register | epollAdd => exact congrFun Kernel.files_epollAdd fd
  | deregister fd' | epollDel fd' | shutdown fd' | close fd' =>
    have hne : fd ≠ fd' := by
      rintro rfl
      rw [hpc] at h
      exact h rfl
    exact Function.update_of_ne hne ..
  | epollWait | accept | test | lockQueue | pop | unlockQueue | returned => rfl

/-- No descriptor gets a new meaning. -/
lemma files_settled_le {file : File} (h : s.settled.kernel.files fd = some file) :
    s.world.kernel.files fd = some file := by
  by_cases hhand : s.acceptPc.hand = some fd
  · revert h
    unfold settled
    cases hpc : s.acceptPc with
    | register | epollAdd => exact fun h => (congrFun Kernel.files_epollAdd fd).symm.trans h
    | deregister fd' | epollDel fd' | shutdown fd' | close fd' =>
      rw [hpc] at hhand
      cases hhand
      intro h
      exact absurd ((Function.update_self ..).symm.trans h) (by simp)
    | epollWait | accept | test | lockQueue | pop | unlockQueue | returned => exact id
  · rwa [← files_settled hhand]

lemma bit_settled {i : BitVec 64} (h : ∀ fd, s.acceptPc.hand = some fd → i ≠ fdToWord fd) :
    s.settled.endpoint.connectedClientsFds.bit i = s.world.endpoint.connectedClientsFds.bit i := by
  unfold settled
  cases hpc : s.acceptPc with
  | register fd | deregister fd =>
    have hne : i ≠ fdToWord fd := h fd (by rw [hpc]; rfl)
    exact (bit_boolsetSet ..).trans (if_neg hne)
  | epollAdd | epollDel | shutdown | close => rfl
  | epollWait | accept | test | lockQueue | pop | unlockQueue | returned => rfl

/-- The entries of the other descriptors are as they are. -/
lemma interest_settled {ep : Fd} (hep : s.acceptPc.hand ≠ some ep) (h : s.acceptPc.hand ≠ some fd) :
    s.settled.kernel.interest ep fd = s.world.kernel.interest ep fd := by
  unfold settled
  cases hpc : s.acceptPc with
  | register fd' | epollAdd fd' =>
    rw [hpc] at h
    exact Kernel.interest_epollAdd_of_fd_ne fun heq => h (heq ▸ rfl)
  | deregister fd' | epollDel fd' | shutdown fd' | close fd' =>
    rw [hpc] at h hep
    have hne : ¬ (ep = fd' ∨ fd = fd') := by
      rintro (rfl | rfl)
      · exact hep rfl
      · exact h rfl
    simp [not_or.mp hne]
  | epollWait | accept | test | lockQueue | pop | unlockQueue | returned => rfl

/-- The queue has no part in it. -/
lemma settled_setQueue (queue : Stack (BitVec 64)) :
    settled { s with world := s.world.setQueue queue } = s.settled.setQueue queue := by
  unfold settled
  cases s.acceptPc with
  | _ => rfl

/-! ### The steps of the accept thread -/

/-- What `accept_proc` does outside `epoll_wait` and `accept`. -/
inductive AcceptRule (s : Server Q n) : Server Q n → Prop where
  | register {fd : Fd} (h : s.acceptPc = .register fd) : AcceptRule s { s with
      world := endpointRegisterClient s.world fd
      acceptPc := .epollAdd fd }
  | epollAdd {fd : Fd} (h : s.acceptPc = .epollAdd fd) : AcceptRule s { s with
      world := { s.world with
        kernel := s.world.kernel.epollAdd s.world.endpoint.epSelector fd (clientEntry fd) }
      acceptPc := .test 1 }
  | test {count : ℤ} (h : s.acceptPc = .test count) : AcceptRule s { s with
      acceptPc := if count > -1 ∧ s.stop = false then .lockQueue else .returned }
  | lockQueue (h : s.acceptPc = .lockQueue) (hfree : s.queueLocked = false) :
      AcceptRule s { s with queueLocked := true, acceptPc := .pop }
  | empty (h : s.acceptPc = .pop) (hqueue : s.world.endpoint.disconnectQueue = []) :
      AcceptRule s { s with acceptPc := .unlockQueue }
  | pop {val : BitVec 64} {queue : Stack (BitVec 64)} (h : s.acceptPc = .pop)
      (hqueue : s.world.endpoint.disconnectQueue = val :: queue) : AcceptRule s { s with
        world := s.world.setQueue queue
        acceptPc := .deregister (wordToFd val) }
  | deregister {fd : Fd} (h : s.acceptPc = .deregister fd) : AcceptRule s { s with
      world := endpointDeregisterClient s.world fd
      acceptPc := .epollDel fd }
  | epollDel {fd : Fd} (h : s.acceptPc = .epollDel fd) : AcceptRule s { s with
      world := { s.world with
        kernel := s.world.kernel.epollDel s.world.endpoint.epSelector fd }
      acceptPc := .shutdown fd }
  | shutdown {fd : Fd} (h : s.acceptPc = .shutdown fd) : AcceptRule s { s with
      world := { s.world with kernel := s.world.kernel.shutdown fd }
      acceptPc := .close fd }
  | close {fd : Fd} (h : s.acceptPc = .close fd) : AcceptRule s { s with
      world := { s.world with kernel := s.world.kernel.close fd }
      acceptPc := .pop }
  | unlockQueue (h : s.acceptPc = .unlockQueue) :
      AcceptRule s { s with queueLocked := false, acceptPc := .epollWait }

lemma AcceptRule.of_step (h : s.acceptProc = some s') : s.AcceptRule s' := by
  unfold Server.acceptProc at h
  cases hpc : s.acceptPc with
  | epollWait | accept | returned => simp [hpc] at h
  | lockQueue =>
    simp only [hpc] at h
    split_ifs at h with hlocked
    cases h
    exact .lockQueue hpc (Bool.eq_false_iff.mpr hlocked)
  | pop =>
    simp only [hpc, bind, pure] at h
    cases hqueue : s.world.endpoint.disconnectQueue with
    | nil =>
      rw [hqueue] at h
      cases h
      exact .empty hpc hqueue
    | cons val queue =>
      rw [hqueue] at h
      cases h
      exact .pop hpc hqueue
  | register | epollAdd | test | deregister | epollDel | shutdown | close | unlockQueue =>
    simp only [hpc, Option.some.injEq] at h
    subst h
    constructor
    exact hpc

/-- What the accept thread does to a descriptor in its hand is settled; otherwise it takes one off
the queue. -/
lemma AcceptRule.settled (h : s.AcceptRule s') : s'.settled = s.settled ∨ ∃ val queue,
    s.settled.endpoint.disconnectQueue = val :: queue ∧
      s'.settled = endpointDisconnectClient (s.settled.setQueue queue) (wordToFd val) := by
  cases h with
  | pop h hqueue =>
    have hsettled : s.settled = s.world := settled_of_hand (by rw [h]; rfl)
    rw [hsettled]
    exact .inr ⟨_, _, hqueue, rfl⟩
  | test h =>
    left
    rw [settled_of_hand (s := s) (by rw [h]; rfl), settled_of_hand]
    split_ifs
    · rfl
    · rfl
  | deregister h =>
    left
    unfold Server.settled
    rw [h]
    rfl
  | register h | epollAdd h | lockQueue h | empty h | epollDel h | shutdown h | close h
  | unlockQueue h =>
    left
    unfold Server.settled
    rw [h]

/-! ### The steps of the server -/

/-- What a step of the server does to the endpoint, to the accept thread and to the descriptor that
the event thread is about to enqueue. -/
inductive Rule (s : Server Q n) : Server Q n → Prop where
  | arrive : Rule s { s with world := { s.world with kernel := s.world.kernel.arrive } }
  | listened {acceptPc : AcceptPc} (h : s.acceptPc = .epollWait ∨ s.acceptPc = .accept)
      (hhand : acceptPc.hand = none) (hholds : acceptPc.holdsQueue = false) :
      Rule s { s with acceptPc }
  | accept {fd : Fd} {kernel : Kernel Fd} (h : s.acceptPc = .accept)
      (hk : s.world.kernel.accept s.world.endpoint.srvFd fd = some kernel) :
      Rule s { s with world := { s.world with kernel }, acceptPc := .register fd }
  | lost {fd : Fd} {kernel : Kernel Fd} (h : s.acceptPc = .accept)
      (hk : s.world.kernel.lose s.world.endpoint.srvFd fd = some kernel) :
      Rule s { s with world := { s.world with kernel }, acceptPc := .test 0 }
  | acceptProc {s' : Server Q n} (h : s.AcceptRule s') : Rule s s'
  | hangup {report : Report} {fd : Fd} {e : EpollEvent Fd}
      (he : s.world.kernel.interest s.world.endpoint.epSelector fd = some e)
      (hclient : report.client = e.data) (hrdhup : report.eventFlag &&& EPOLLRDHUP ≠ 0)
      (hwatched : report.eventFlag &&& ~~~e.events = 0) :
      Rule s { s with report, eventPc := .enqueue }
  | enqueue (h : s.eventPc = .enqueue) (hfree : s.queueLocked = false) : Rule s { s with
      world := endpointEnqueueClientForDisconnection s.world s.report.client
      eventPc := .test 1 }
  | other {s' : Server Q n} (hworld : s'.world = s.world) (hlocked : s'.queueLocked = s.queueLocked)
      (haccept : s'.acceptPc = s.acceptPc)
      (hevent : s'.eventPc = .enqueue → s.eventPc = .enqueue ∧ s'.report = s.report) : Rule s s'

lemma rule_of_acceptAnswer {clientAddressLen : BitVec 32} {answer : Option Fd}
    (h : s.acceptAnswer clientAddressLen answer = some s') : s.Rule s' := by
  obtain ⟨hpc, rfl | ⟨fd, k, hk, rfl⟩ | ⟨fd, k, -, hk, rfl⟩⟩ := acceptAnswer_spec h
  · exact .listened (.inr hpc) rfl rfl
  · exact .lost hpc hk
  · exact .accept hpc hk

lemma rule_of_eventWait {answer : WaitAnswer} (h : s.eventWait answer = some s') : s.Rule s' := by
  unfold Server.eventWait at h
  split at h
  · cases h
    exact .other rfl rfl rfl nofun
  · cases h
    exact .other rfl rfl rfl nofun
  · obtain ⟨event, hevent, h⟩ := Option.bind_eq_some_iff.mp h
    cases h
    obtain ⟨e, he, hdata, hevents, hwatched⟩ := Kernel.report_spec hevent
    by_cases hrdhup : event.events &&& EPOLLRDHUP ≠ 0
    · rw [if_pos hrdhup]
      exact .hangup he hdata hrdhup (hevents ▸ hwatched)
    · rw [if_neg hrdhup]
      exact .other rfl rfl rfl nofun
  · cases h

lemma rule_of_ioCall {i : Fin n} {next : ClientPc} (h : s.ioCall i next = some s') : s.Rule s' := by
  unfold Server.ioCall at h
  split at h
  · cases h
    exact .other rfl rfl rfl fun h => ⟨h, rfl⟩
  · cases h

section Step

variable [FifoQueue Q Pointer]

lemma rule_of_clientEventProcessor (h : s.clientEventProcessor = some s') : s.Rule s' := by
  cases eventEffect_of_clientEventProcessor h with
  | enqueue hpc =>
    refine .enqueue hpc ?_
    unfold Server.clientEventProcessor at h
    simp only [hpc] at h
    split_ifs at h with hlocked
    exact Bool.eq_false_iff.mpr hlocked
  | test hpc =>
    refine .other rfl rfl rfl fun h => ?_
    simp only at h
    split_ifs at h
  | callPost | posting => exact .other rfl rfl rfl nofun

theorem Rule.of_step {a : ServerAct n} (h : s.step a = some s') : s.Rule s' := by
  cases a with
  | arrive =>
    cases h
    exact .arrive
  | setStop =>
    cases h
    exact .other rfl rfl rfl fun h => ⟨h, rfl⟩
  | acceptWait events =>
    simp only [Server.step, Server.acceptWait] at h
    split at h
    · rename_i hpc
      cases h
      refine .listened (.inl hpc) ?_ ?_
      · split_ifs <;> rfl
      · split_ifs <;> rfl
    · cases h
  | accept clientAddressLen answer => exact rule_of_acceptAnswer h
  | acceptProc => exact .acceptProc (AcceptRule.of_step h)
  | eventWait answer => exact rule_of_eventWait h
  | clientEventProcessor => exact rule_of_clientEventProcessor h
  | pool a =>
    obtain ⟨-, pool, clientPc, -, rfl⟩ := poolStep_spec h
    exact .other rfl rfl rfl fun h => ⟨h, rfl⟩
  | recv i received =>
    obtain ⟨-, h⟩ := Option.ite_none_right_eq_some.mp h
    exact rule_of_ioCall h
  | send i =>
    obtain ⟨-, h⟩ := Option.ite_none_right_eq_some.mp h
    exact rule_of_ioCall h

end Step

end Server

end C10K
