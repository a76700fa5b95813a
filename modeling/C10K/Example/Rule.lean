import C10K.Example.Basic

/-!
# What a step of the example server can do
-/

namespace C10K

/-- The entry of the listening socket. -/
def srvEvents (srvFd : Fd) : EpollEvent Fd :=
  createEpollEventTest srvFd (EPOLLIN ||| EPOLLET ||| EPOLLWAKEUP)

/-- The entry of the `eventfd`. -/
def signalerEvents (signaler : Fd) : EpollEvent Fd := createEpollEventTest signaler EPOLLIN

/-- The listening socket is listed edge-triggered. -/
lemma edge_srvEvents (srvFd : Fd) :
    ((srvEvents srvFd).watched.events &&& EPOLLET == 0) = false := by
  change ((EPOLLIN ||| EPOLLET ||| EPOLLWAKEUP ||| EPOLLERR ||| EPOLLHUP) &&& EPOLLET == 0) = false
  decide

/-- The `eventfd` is not. -/
lemma level_signalerEvents (signaler : Fd) :
    ((signalerEvents signaler).watched.events &&& EPOLLET == 0) = true := by
  change ((EPOLLIN ||| EPOLLERR ||| EPOLLHUP) &&& EPOLLET == 0) = true
  decide

namespace ExampleServer

variable {s s' : ExampleServer} {a : ExampleAct}

/-- The test sends the thread back to `epoll_wait`. -/
def Repeats (count : ℤ) (interrupted : Bool) : Prop :=
  count = 0 ∨ count = -1 ∧ interrupted = true

/-- The steps of the program. -/
inductive Rule (s : ExampleServer) : ExampleAct → ExampleServer → Prop where
  | arrive : Rule s .arrive s.arrive
  | addServer (h : s.mainPc = .addServer) :
      Rule s .main { s with
        kernel := s.kernel.epollAdd s.epInstance s.srvFd (srvEvents s.srvFd)
        onReadyList := !s.kernel.backlog.isEmpty
        mainPc := .eventfd }
  | eventfd {fd kernel} (h : s.mainPc = .eventfd)
      (hopen : openFd s.kernel fd .event = some kernel) :
      Rule s (.eventfd fd) { s with kernel, signaler := fd, mainPc := .createThread }
  | createThread (h : s.mainPc = .createThread) :
      Rule s .main { s with sidePc := .epollWait, mainPc := .read }
  | read (h : s.mainPc = .read) : Rule s .main { s with mainPc := .addSignaler }
  | addSignaler (h : s.mainPc = .addSignaler) :
      Rule s .main { s with
        kernel := s.kernel.epollAdd s.epInstance s.signaler (signalerEvents s.signaler)
        mainPc := .join }
  | join (h : s.mainPc = .join) (hside : s.sidePc = .returned) :
      Rule s .main { s with mainPc := .closeSignaler }
  | closeSignaler (h : s.mainPc = .closeSignaler) :
      Rule s .main { s with kernel := s.kernel.close s.signaler, mainPc := .closeInstance }
  | closeInstance (h : s.mainPc = .closeInstance) :
      Rule s .main { s with kernel := s.kernel.close s.epInstance, mainPc := .returned }
  | failed (h : s.sidePc = .epollWait) (hfile : s.kernel.files s.epInstance ≠ some .epoll) :
      Rule s (.epollWait .failed) { s with sidePc := .test (-1) false }
  | interrupted (h : s.sidePc = .epollWait) :
      Rule s (.epollWait .interrupted) { s with sidePc := .test (-1) true }
  | timeout (h : s.sidePc = .epollWait) (hsrv : s.pending s.srvFd = none)
      (hsignaler : s.pending s.signaler = none) :
      Rule s (.epollWait .timeout) { s with sidePc := .test 0 false }
  | report {fd e} (h : s.sidePc = .epollWait) (hpending : s.pending fd = some e) :
      Rule s (.epollWait (.event fd)) { s with
        event := some e.data
        onReadyList := s.onReadyList && e.events &&& EPOLLET == 0
        sidePc := .test 1 false }
  | acceptNone {prior} (h : s.sidePc = .accept) :
      Rule s (.accept prior none) { s with sidePc := .epollWait }
  | acceptLost {prior fd kernel} (h : s.sidePc = .accept)
      (hlen : (s.clientAddressLen.getD prior).toInt < 0)
      (hlose : s.kernel.lose s.srvFd fd = some kernel) :
      Rule s (.accept prior (some fd)) { s with kernel, sidePc := .epollWait }
  | acceptSome {prior fd kernel} (h : s.sidePc = .accept) (hfd : 0 ≤ fd.toInt)
      (hlen : 0 ≤ (s.clientAddressLen.getD prior).toInt)
      (haccept : s.kernel.accept s.srvFd fd = some kernel) :
      Rule s (.accept prior (some fd)) { s with
        kernel
        clientAddressLen := some sizeofSockaddrIn
        sidePc := .send fd }
  | again {count interrupted} (h : s.sidePc = .test count interrupted)
      (hrepeats : Repeats count interrupted) : Rule s .sideProc { s with sidePc := .epollWait }
  | leave {count interrupted} (h : s.sidePc = .test count interrupted)
      (hrepeats : ¬ Repeats count interrupted) (hevent : s.event = some s.signaler) :
      Rule s .sideProc { s with sidePc := .returned }
  | connect {count interrupted fd} (h : s.sidePc = .test count interrupted)
      (hrepeats : ¬ Repeats count interrupted) (hevent : s.event = some fd)
      (hne : fd ≠ s.signaler) :
      Rule s .sideProc { s with clientAddressLen := none, sidePc := .accept }
  | send {newSocket answer sent} (h : s.sidePc = .send newSocket) :
      Rule s (.send answer) { s with
        sends := s.sends ++ [⟨s.kernel.files newSocket, greeting, sent⟩]
        sidePc := .shutdown newSocket }
  | sigpipe {newSocket} (h : s.sidePc = .send newSocket) :
      Rule s (.send .sigpipe) { s with killed := true }
  | shutdown {newSocket} (h : s.sidePc = .shutdown newSocket) :
      Rule s .sideProc { s with
        kernel := s.kernel.shutdown newSocket
        sidePc := .close newSocket }
  | close {newSocket} (h : s.sidePc = .close newSocket) :
      Rule s .sideProc { s with kernel := s.kernel.close newSocket, sidePc := .accept }

lemma rule_of_main (h : s.main = some s') : s.Rule .main s' := by
  unfold main at h
  split at h <;> rename_i hpc
  · cases h
    exact .addServer hpc
  · cases h
    exact .createThread hpc
  · cases h
    exact .read hpc
  · cases h
    exact .addSignaler hpc
  · split_ifs at h with hside
    cases h
    exact .join hpc hside
  · cases h
    exact .closeSignaler hpc
  · cases h
    exact .closeInstance hpc
  all_goals cases h

lemma rule_of_epollWait {answer : ExampleAnswer} (h : s.epollWait answer = some s') :
    s.Rule (.epollWait answer) s' := by
  unfold epollWait at h
  split at h
  · split_ifs at h with hfile
    cases h
    exact .failed ‹_› hfile
  · cases h
    exact .interrupted ‹_›
  · split_ifs at h with hnone
    cases h
    exact .timeout ‹_› hnone.1 hnone.2
  · obtain ⟨e, he, hs⟩ := Option.bind_eq_some_iff.mp h
    cases hs
    exact .report ‹_› he
  · cases h

lemma rule_of_accept {prior : BitVec 32} {answer : Option Fd}
    (h : s.accept prior answer = some s') : s.Rule (.accept prior answer) s' := by
  unfold accept at h
  split at h
  · cases h
    exact .acceptNone ‹_›
  · split_ifs at h with hfd hlen
    · obtain ⟨kernel, hkernel, hs⟩ := Option.bind_eq_some_iff.mp h
      cases hs
      exact .acceptLost ‹_› hlen hkernel
    · obtain ⟨kernel, hkernel, hs⟩ := Option.bind_eq_some_iff.mp h
      cases hs
      exact .acceptSome ‹_› hfd (Int.not_lt.mp hlen) hkernel
  · cases h

lemma rule_of_send {answer : SendAnswer} (h : s.send answer = some s') :
    s.Rule (.send answer) s' := by
  unfold send at h
  split at h <;> rename_i hpc
  · cases h
    exact .sigpipe hpc
  · cases h
    exact .send hpc
  · cases h
    exact .send hpc
  · cases h

lemma rule_of_sideProc (h : s.sideProc = some s') : s.Rule .sideProc s' := by
  unfold sideProc at h
  split at h <;> rename_i hpc
  · split_ifs at h with hzero hinterrupted
    · cases h
      exact .again hpc (.inl hzero)
    · cases h
      exact .again hpc (.inr hinterrupted)
    · have hrepeats : ¬ Repeats _ _ := not_or.mpr ⟨hzero, hinterrupted⟩
      obtain ⟨fd, hfd, hs⟩ := Option.bind_eq_some_iff.mp h
      split_ifs at hs with hsignaler
      · cases hs
        exact .leave hpc hrepeats (hsignaler ▸ hfd)
      · cases hs
        exact .connect hpc hrepeats hfd hsignaler
  · cases h
    exact .shutdown hpc
  · cases h
    exact .close hpc
  all_goals cases h

lemma not_killed_of_step (h : s.step a = some s') : s.killed = false := by
  unfold step at h
  split_ifs at h with hkilled
  exact Bool.eq_false_iff.mpr hkilled

/-- Every step of the program is an instance of one of the rules. -/
theorem Rule.of_step (h : s.step a = some s') : s.Rule a s' := by
  simp only [step, not_killed_of_step h, Bool.false_eq_true, if_false] at h
  cases a with
  | arrive =>
    cases h
    exact .arrive
  | eventfd fd =>
    simp only [ExampleServer.eventfd] at h
    split at h
    · obtain ⟨kernel, hkernel, hs⟩ := Option.bind_eq_some_iff.mp h
      cases hs
      exact .eventfd ‹_› hkernel
    · cases h
  | main => exact rule_of_main h
  | epollWait answer => exact rule_of_epollWait h
  | accept prior answer => exact rule_of_accept h
  | send answer => exact rule_of_send h
  | sideProc => exact rule_of_sideProc h

end ExampleServer

end C10K
