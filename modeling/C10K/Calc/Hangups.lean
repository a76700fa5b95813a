import C10K.Calc.Replies

/-!
# The hang-ups that the calculator keeps

The accept thread of `Run_calc_srv.c` calls `endpoint_close_hungups` before its loop and never in
it. At that time there is no client, so the descriptors that the event thread enqueues stay on the
queue until `main` closes the endpoint.
-/

namespace C10K

variable {Q : Type} {n : ℕ}

lemma closed_openFd {k k' : Kernel Fd} {fd : Fd} {file : File} (h : openFd k fd file = some k') :
    k'.closed = k.closed := by
  unfold openFd Kernel.openFile at h
  split_ifs at h
  cases h
  rfl

/-- `endpoint_create` closes nothing. -/
lemma closed_endpointCreate {k : Kernel Fd} {srvFd epListener epSelector shutdownFd : Fd}
    {w : World} (h : endpointCreate k srvFd epListener epSelector shutdownFd = some w) :
    w.kernel.closed = k.closed := by
  simp only [endpointCreate, bind, Option.bind_eq_some_iff, pure, Option.some.injEq] at h
  obtain ⟨k₁, h₁, k₂, h₂, k₃, h₃, k₄, h₄, rfl⟩ := h
  rw [Kernel.closed_epollAdd, Kernel.closed_epollAdd, Kernel.closed_epollAdd, closed_openFd h₄,
    closed_openFd h₃, closed_openFd h₂, closed_openFd h₁]

/-! ### `endpoint_close_hungups` -/

/-- The accept thread is in `endpoint_close_hungups`. -/
def AcceptPc.inHungups : AcceptPc → Bool
  | .lockQueue | .pop | .deregister _ | .epollDel _ | .shutdown _ | .close _ | .unlockQueue => true
  | .epollWait | .accept | .register _ | .epollAdd _ | .test _ | .returned => false

lemma AcceptPc.closes_of_outside {pc : AcceptPc} (h : pc.inHungups = false) : pc.closes = none := by
  cases pc with
  | lockQueue | pop | deregister | epollDel | shutdown | close | unlockQueue => cases h
  | epollWait | accept | register | epollAdd | test | returned => rfl

lemma AcceptPc.outside_of_holdsQueue {pc : AcceptPc} (h : pc.holdsQueue = false)
    (hne : pc ≠ .lockQueue) : pc.inHungups = false := by
  cases pc with
  | lockQueue => exact absurd rfl hne
  | pop | deregister | epollDel | shutdown | close | unlockQueue => cases h
  | epollWait | accept | register | epollAdd | test | returned => rfl

/-- Only the loop condition leads to the next `endpoint_close_hungups`. -/
lemma Server.lockQueue_of_turn [FifoQueue Q Pointer] {s s' : Server Q n} {a : ServerAct n}
    (h : s.Turn a s') (htest : ∀ count, s.acceptPc = .test count → a ≠ .acceptProc)
    (hpc : s'.acceptPc = .lockQueue) : s.acceptPc = .lockQueue := by
  cases h with
  | acceptWait _ hnext =>
    rcases hnext with rfl | rfl
    · cases hpc
    · cases hpc
  | accept _ hnext =>
    rcases hnext with rfl | ⟨fd, rfl⟩
    · cases hpc
    · cases hpc
  | acceptProc h =>
    cases h with
    | test htest' => exact absurd rfl (htest _ htest')
    | lockQueue h => exact h
    | register | epollAdd | empty | pop | deregister | epollDel | shutdown | close
    | unlockQueue => cases hpc
  | clientEventProcessor h =>
    cases h with
    | _ => exact hpc
  | _ => exact hpc

/-- A worker that is about to close a connection. -/
def RequestPc.closes : RequestPc → ℕ
  | .deregister _ | .epollDel _ | .shutdown _ | .close _ => 1
  | .outside | .answer _ | .goodbye _ => 0

lemma Request.tooLong_of_next {r : Request} (h : r.next = .goodbye r) :
    tooLong r.message = true := by
  unfold Request.next at h
  split_ifs at h with hlong
  exact hlong

namespace CalcServer

variable {s s' : CalcServer Q n}

/-- When the accept thread calls `endpoint_close_hungups`, there is no client yet that could have
hung up. -/
structure ClosesNone (s : Server Q n) : Prop where
  closes : s.acceptPc.closes = none
  start : s.acceptPc.inHungups = true →
    s.world.endpoint.disconnectQueue = [] ∧ s.eventPc ≠ .enqueue ∧
      ∀ fd e, s.world.kernel.interest s.world.endpoint.epSelector fd = some e →
        e.events &&& EPOLLRDHUP = 0

lemma ClosesNone.of_outside {s : Server Q n} (h : s.acceptPc.inHungups = false) : ClosesNone s where
  closes := AcceptPc.closes_of_outside h
  start hpc := absurd (h.symm.trans hpc) Bool.false_ne_true

lemma ClosesNone.acceptProc {s s' : Server Q n} (h : ClosesNone s) (hrule : s.AcceptRule s')
    (hlock : s'.acceptPc = .lockQueue → s.acceptPc = .lockQueue) : ClosesNone s' := by
  have hcloses := h.closes
  cases hrule with
  | register | epollAdd | unlockQueue => exact .of_outside rfl
  | @test count hpc =>
    have hne : ¬ (count > -1 ∧ s.stop = false) := by
      intro hgo
      rw [if_pos hgo] at hlock
      cases hpc.symm.trans (hlock rfl)
    rw [if_neg hne]
    exact .of_outside rfl
  | lockQueue hpc => exact ⟨rfl, fun _ => h.start (by rw [hpc]; rfl)⟩
  | empty hpc => exact ⟨rfl, fun _ => h.start (by rw [hpc]; rfl)⟩
  | pop hpc hqueue =>
    obtain ⟨hempty, -⟩ := h.start (by rw [hpc]; rfl)
    cases hempty.symm.trans hqueue
  | deregister hpc | epollDel hpc | shutdown hpc | close hpc =>
    rw [hpc] at hcloses
    cases hcloses

lemma ClosesNone.server {s s' : Server Q n} (h : ClosesNone s) (hrule : s.Rule s')
    (hlock : s'.acceptPc = .lockQueue → s.acceptPc = .lockQueue) : ClosesNone s' := by
  cases hrule with
  | arrive => exact ⟨h.closes, h.start⟩
  | listened hpc _ hholds =>
    refine .of_outside (AcceptPc.outside_of_holdsQueue hholds fun hnext => ?_)
    have hbefore : s.acceptPc = .lockQueue := hlock hnext
    rcases hpc with hpc | hpc
    · cases hpc.symm.trans hbefore
    · cases hpc.symm.trans hbefore
  | accept | lost => exact .of_outside rfl
  | acceptProc hrule => exact h.acceptProc hrule hlock
  | hangup he _ hrdhup hwatched =>
    refine ⟨h.closes, fun hpc => ?_⟩
    obtain ⟨-, -, hentry⟩ := h.start hpc
    exact absurd (not_reported hwatched (hentry _ _ he)) hrdhup
  | enqueue hpc =>
    refine ⟨h.closes, fun hstart => ?_⟩
    exact absurd hpc (h.start hstart).2.1
  | other hworld _ haccept hevent =>
    constructor
    · rw [haccept]
      exact h.closes
    · rw [haccept, hworld]
      intro hpc
      obtain ⟨hqueue, henqueue, hentry⟩ := h.start hpc
      exact ⟨hqueue, fun hpc => henqueue (hevent hpc).1, hentry⟩

/-- `calc_request` does not touch the queue. -/
lemma RequestRule.queue {i : Fin n} (h : s.RequestRule i s') :
    s'.world.endpoint.disconnectQueue = s.world.endpoint.disconnectQueue := by
  cases h with
  | _ => rfl

/-! ### What is closed -/

/-- Outside `calc_request` nothing is closed. -/
lemma ClosesNone.closed_server (h : ClosesNone s.toServer) {server : Server Q n}
    (hrule : s.toServer.Rule server) :
    server.world.kernel.closed = s.world.kernel.closed := by
  cases hrule with
  | accept _ hk => exact Kernel.closed_accept hk
  | lost _ hk => exact Kernel.closed_lose hk
  | acceptProc hrule =>
    cases hrule with
    | close hpc =>
      have hcloses := h.closes
      rw [hpc] at hcloses
      cases hcloses
    | epollAdd => exact Kernel.closed_epollAdd
    | _ => rfl
  | other hworld => rw [hworld]
  | _ => rfl

/-- Where a connection is closed, one of the messages before was too long. -/
structure ClosesPaid (s : CalcServer Q n) : Prop where
  none : ClosesNone s.toServer
  paid : s.world.kernel.closedConns.length + ∑ i, (s.request i).closes ≤
    s.replies.countP fun reply => tooLong reply.request.message

lemma sum_goTo (i : Fin n) (pc : RequestPc) :
    ∑ j, ((s.goTo i pc).request j).closes + (s.request i).closes =
      ∑ j, (s.request j).closes + pc.closes :=
  Places.sum_update RequestPc.closes

/-- A worker moves on, and the connections that are closed and those that are about to be are as
many as before, or one more after a message that is too long. -/
lemma paid_goTo (i : Fin n) (pc : RequestPc) (kernel : Kernel Fd) (replies : List Reply)
    (h : s.ClosesPaid)
    (hle : kernel.closedConns.length + pc.closes +
        s.replies.countP (fun reply => tooLong reply.request.message) ≤
      s.world.kernel.closedConns.length + (s.request i).closes +
        replies.countP fun reply => tooLong reply.request.message) :
    kernel.closedConns.length + ∑ j, ((s.goTo i pc).request j).closes ≤
      replies.countP fun reply => tooLong reply.request.message := by
  have hsum := sum_goTo (s := s) i pc
  have hpaid := h.paid
  omega

lemma RequestRule.paid {i : Fin n} (h : s.RequestRule i s') (hA : s.Answers)
    (hpaid : s.ClosesPaid) :
    s'.world.kernel.closedConns.length + ∑ i, (s'.request i).closes ≤
      s'.replies.countP fun reply => tooLong reply.request.message := by
  cases h with
  | answer hpc =>
    refine paid_goTo i .outside s.world.kernel (s.replies ++ [_]) hpaid ?_
    rw [hpc, List.countP_append]
    simp only [RequestPc.closes]
    omega
  | @goodbye r text hpc =>
    have hlong : tooLong r.message = true := by
      obtain ⟨hnext, -⟩ := hA.pending i r (by rw [hpc]; rfl)
      exact Request.tooLong_of_next (hnext.symm.trans hpc)
    refine paid_goTo i (.deregister r.fd) s.world.kernel (s.replies ++ [_]) hpaid ?_
    rw [hpc, List.countP_append, List.countP_singleton, if_pos hlong]
    simp only [RequestPc.closes]
    omega
  | deregister hpc | epollDel hpc | shutdown hpc =>
    refine paid_goTo i _ s.world.kernel s.replies hpaid ?_
    rw [hpc]
    exact le_rfl
  | @close fd hpc =>
    refine paid_goTo i .outside (s.world.kernel.close fd) s.replies hpaid ?_
    rw [hpc, Kernel.closedConns_close, List.length_append]
    have hone : ((s.world.kernel.files fd).bind File.conn?).toList.length ≤ 1 := by
      cases (s.world.kernel.files fd).bind File.conn? with
      | none => exact Nat.zero_le _
      | some c => exact le_rfl
    simp only [RequestPc.closes]
    omega

/-! ### Every step -/

variable [FifoQueue Q Pointer]

theorem ClosesNone.step (h : ClosesNone s.toServer) (hrule : s.Rule s') :
    ClosesNone s'.toServer := by
  cases hrule with
  | server hstep _ _ htest =>
    exact h.server (Server.Rule.of_step hstep)
      (Server.lockQueue_of_turn (Server.Turn.of_step hstep) htest)
  | test _ hpc =>
    rcases hpc with rfl | rfl
    · exact .of_outside rfl
    · exact .of_outside rfl
  | recvNothing | recv => exact ⟨h.closes, h.start⟩
  | request hrequest =>
    have hentry := hrequest.entry
    have hqueue := hrequest.queue
    obtain ⟨world, request, replies, rfl⟩ := hrequest.frame
    refine ⟨h.closes, fun hpc => ?_⟩
    obtain ⟨hempty, henqueue, hentry'⟩ := h.start hpc
    exact ⟨hqueue.trans hempty, henqueue, fun fd e he => hentry' fd e (hentry fd e he)⟩

lemma ClosesNone.initial {k : Kernel Fd} {srvFd epListener epSelector shutdownFd : Fd} {w : World}
    (h : endpointCreate k srvFd epListener epSelector shutdownFd = some w) :
    ClosesNone (initial w : CalcServer Q n).toServer := by
  obtain ⟨hendpoint, -, -, -, hinterest⟩ := World.endpointCreate_spec h
  refine ⟨rfl, fun _ => ⟨?_, nofun, ?_⟩⟩
  · change w.endpoint.disconnectQueue = []
    rw [hendpoint]
    rfl
  · intro fd e he
    have he : w.kernel.interest w.endpoint.epSelector fd = some e := he
    rw [hendpoint, hinterest] at he
    split_ifs at he
    cases he
    exact (by decide : (EPOLLIN ||| EPOLLERR ||| EPOLLHUP) &&& EPOLLRDHUP = 0)

/-- Nothing is taken off the queue. -/
lemma ClosesNone.queue_suffix (h : ClosesNone s.toServer) (hrule : s.Rule s') :
    s.world.endpoint.disconnectQueue <:+ s'.world.endpoint.disconnectQueue := by
  cases hrule with
  | server hstep =>
    cases Server.Rule.of_step hstep with
    | acceptProc hrule =>
      cases hrule with
      | pop hpc hqueue =>
        obtain ⟨hempty, -⟩ := h.start (by rw [hpc]; rfl)
        cases hempty.symm.trans hqueue
      | _ => exact List.suffix_rfl
    | enqueue => exact List.suffix_cons ..
    | other hworld =>
      rw [hworld]
    | _ => exact List.suffix_rfl
  | request hrequest => rw [hrequest.queue]
  | _ => exact List.suffix_rfl

theorem ClosesPaid.step (h : s.ClosesPaid) (hA : s.Answers) (hrule : s.Rule s') :
    s'.ClosesPaid := by
  refine ⟨h.none.step hrule, ?_⟩
  cases hrule with
  | server hstep =>
    have hclosed := h.none.closed_server (Server.Rule.of_step hstep)
    have hpaid := h.paid
    unfold Kernel.closedConns at hpaid ⊢
    rw [hclosed]
    exact hpaid
  | test | recvNothing => exact h.paid
  | @recv i p args r c hpc hworker hargs hticket hfd hfile hconn =>
    refine paid_goTo i r.next s.world.kernel s.replies h ?_
    have hnext : r.next.closes = 0 := by
      unfold Request.next
      split_ifs
      · rfl
      · rfl
      · rfl
    rw [hnext]
    omega
  | request hrequest => exact hrequest.paid hA h

variable [LawfulFifoQueue Q Pointer] {k : Kernel Fd}

lemma closesPaid_of_reachable (h : (calcServerSystem Q n k).Reachable s)
    (hrun : s.returned = false) : s.ClosesPaid := by
  apply reachable_induct (P := ClosesPaid) h hrun
  · intro hk srvFd epListener epSelector shutdownFd w hw
    refine ⟨ClosesNone.initial hw, ?_⟩
    have hclosed : w.kernel.closedConns = [] := by
      rw [Kernel.closedConns, closed_endpointCreate hw, hk.closed]
      rfl
    change w.kernel.closedConns.length + ∑ _ : Fin n, 0 ≤ 0
    rw [hclosed, Finset.sum_const_zero]
    exact le_rfl
  · intro s s' hs hrun hC hrule
    exact hC.step (answers_of_reachable hs hrun) hrule

end CalcServer

variable [FifoQueue Q Pointer] [LawfulFifoQueue Q Pointer] {k : Kernel Fd}

open CalcServer in
/-- While the calculator runs, no descriptor of a client that hung up is ever taken off the queue of
`endpoint_close_hungups`, and no more connections are closed than messages were too long: a client
that hangs up keeps its descriptor open. -/
theorem calc_server_keeps_hangups {s s' : CalcServer Q n} {as : List (CalcServerAct n)}
    (h : (calcServerSystem Q n k).Reachable s) (hrun : (calcServerSystem Q n k).Run s as s')
    (hreturned : s'.returned = false) :
    s.world.endpoint.disconnectQueue <:+ s'.world.endpoint.disconnectQueue ∧
      s'.world.kernel.closedConns.length ≤
        s'.replies.countP fun reply => tooLong reply.request.message := by
  constructor
  · have hboth : (calcServerSystem Q n k).Reachable s' ∧ (s'.returned = false →
        s.world.endpoint.disconnectQueue <:+ s'.world.endpoint.disconnectQueue) := by
      apply hrun.invariant (I := fun t => (calcServerSystem Q n k).Reachable t ∧
        (t.returned = false →
          s.world.endpoint.disconnectQueue <:+ t.world.endpoint.disconnectQueue))
      · exact ⟨h, fun _ => List.suffix_rfl⟩
      · rintro t a t' ⟨ht, hsuffix⟩ ha
        refine ⟨ht.snoc ha, fun hreturned => ?_⟩
        obtain ⟨hbefore, hrule⟩ := Rule.of_step ha hreturned
        have hnone := (closesPaid_of_reachable ht hbefore).none
        exact (hsuffix hbefore).trans (hnone.queue_suffix hrule)
    exact hboth.2 hreturned
  · have hpaid := (closesPaid_of_reachable (h.append hrun) hreturned).paid
    exact Nat.le_of_add_right_le hpaid

/-- A client hangs up and is closed for a message of 127 bytes, and its number stays on the queue
when the next client has it and hangs up as well. -/
theorem calc_server_keeps_hangups_long : ∃ s s' : CalcServer (RingQueue Pointer) 1,
    s.world.endpoint.disconnectQueue = [7] ∧ s'.world.kernel.closedConns = [0] ∧
      s'.world.kernel.files 7 = some (.conn 1) ∧ s'.world.endpoint.disconnectQueue = [7, 7] ∧
      s.world.endpoint.disconnectQueue <:+ s'.world.endpoint.disconnectQueue ∧
      1 ≤ s'.replies.countP fun reply => tooLong reply.request.message := by
  let system := calcServerSystem (RingQueue Pointer) 1 .initial
  let closes : List (CalcServerAct 1) := .recv 0 (some (List.replicate 127 99)) ::
    List.replicate 5 (.calcRequest 0)
  let next : List (ServerAct 1) :=
    [.pool (.jobReturn 0), .arrive, .acceptProc, .acceptWait EPOLLIN, .accept 0 (some 7),
      .acceptProc, .acceptProc, .clientEventProcessor, .eventWait (.event 7 EPOLLRDHUP),
      .clientEventProcessor]
  let goesOn : List (CalcServerAct 1) := closes ++ next.map .server
  obtain ⟨s, hs, hqueue, hgoesOn⟩ := CalcServer.reachable_of_exec
    (Q := RingQueue Pointer) (n := 1) (P := fun s => s.world.endpoint.disconnectQueue = [7] ∧
      (system.exec s goesOn).any (fun s' => s'.returned = false ∧
        s'.world.kernel.closedConns = [0] ∧ s'.world.kernel.files 7 = some (.conn 1) ∧
        s'.world.endpoint.disconnectQueue = [7, 7]) = true)
    (CalcServer.serveFirst 0 (EPOLLIN ||| EPOLLRDHUP)) (by decide +kernel)
  obtain ⟨s', hs', hgoesOn⟩ := (Option.any_eq_true ..).mp hgoesOn
  obtain ⟨hreturned, hclosed, hopen, hqueue'⟩ := of_decide_eq_true hgoesOn
  obtain ⟨hsuffix, hpaid⟩ := calc_server_keeps_hangups hs (LTS.run_of_exec hs') hreturned
  rw [hclosed] at hpaid
  exact ⟨s, s', hqueue, hclosed, hopen, hqueue', hsuffix, hpaid⟩

end C10K
