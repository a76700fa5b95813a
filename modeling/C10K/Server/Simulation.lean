import C10K.Server.EventLoop

/-!
# The event loop inside the server

The event thread of the server is the event loop, with the results that the kernel gives: what is
shown of the loop for all results holds of the server.
-/

namespace C10K

/-- The loop stands where the event thread of the server stands. It has its result already while the
thread puts the descriptor on the disconnection queue. -/
inductive EventPc.At : EventPc → LoopPc → Prop
  | epollWait : At .epollWait .waitEvent
  | enqueue (client : Fd) (eventFlag : BitVec 32) : At .enqueue (.test (.event client eventFlag))
  | test (result : WaitResult) : At (.test result.count) (.test result)
  | callPost : At .callPost .callPost
  | posting : At .posting .posting
  | returned : At .returned .returned

namespace Server

variable {Q : Type} {n : ℕ} {s s' : Server Q n} {t : EventLoop Q n} {r : Report}

/-! ### Descriptors are not negative -/

/-- Neither an entry of the selector nor a descriptor that the accept thread registers is
negative. -/
structure Nonneg (s : Server Q n) : Prop where
  entry : ∀ fd e, s.world.kernel.interest s.world.endpoint.epSelector fd = some e →
    0 ≤ e.data.toInt
  registering : ∀ fd, s.acceptPc = .register fd ∨ s.acceptPc = .epollAdd fd → 0 ≤ fd.toInt

lemma Nonneg.frame (hN : s.Nonneg) (hinterest : s'.world.kernel.interest = s.world.kernel.interest)
    (hselector : s'.world.endpoint.epSelector = s.world.endpoint.epSelector)
    (hpc : ∀ fd, s'.acceptPc = .register fd ∨ s'.acceptPc = .epollAdd fd →
      s.acceptPc = .register fd ∨ s.acceptPc = .epollAdd fd) : s'.Nonneg where
  entry := by
    rw [hinterest, hselector]
    exact hN.entry
  registering fd hfd := hN.registering fd (hpc fd hfd)

lemma Nonneg.acceptAnswer (hN : s.Nonneg) {clientAddressLen : BitVec 32} {answer : Option Fd}
    (h : s.acceptAnswer clientAddressLen answer = some s') : s'.Nonneg := by
  obtain ⟨-, rfl | ⟨fd, k, hk, rfl⟩ | ⟨fd, k, hfd, hk, rfl⟩⟩ := acceptAnswer_spec h
  · exact hN.frame rfl rfl nofun
  · obtain ⟨c, backlog, -, -, -, -, -, hinterest⟩ := Kernel.lose_spec hk
    exact hN.frame hinterest rfl nofun
  · obtain ⟨c, backlog, -, -, -, -, hinterest⟩ := Kernel.accept_spec hk
    constructor
    · intro fd e he
      exact hN.entry fd e (hinterest ▸ he)
    · rintro fd (hpc | hpc)
      · cases hpc
        exact hfd
      · cases hpc

lemma Nonneg.acceptProc (hN : s.Nonneg) (h : s.acceptProc = some s') : s'.Nonneg := by
  obtain ⟨-, hentry, -, hregisters⟩ := acceptEffect_of_acceptProc h
  constructor
  · intro fd e he
    rcases hentry fd e he with he | ⟨hpc, hdata⟩
    · exact hN.entry fd e he
    · rw [hdata]
      exact hN.registering fd (.inr hpc)
  · intro fd hfd
    exact hN.registering fd (.inl (hregisters fd hfd))

lemma Nonneg.initial [FifoQueue Q Pointer] {k : Kernel Fd}
    {srvFd epListener epSelector shutdownFd : Fd} {world : World}
    (h : endpointCreate k srvFd epListener epSelector shutdownFd = some world) :
    (Server.initial world : Server Q n).Nonneg := by
  obtain ⟨hendpoint, -, -, -, hinterest⟩ := World.endpointCreate_spec h
  constructor
  · intro fd e he
    have he : world.kernel.interest world.endpoint.epSelector fd = some e := he
    rw [hendpoint, hinterest] at he
    split_ifs at he
    cases he
    simp only [endpointCreate, openFd, bind, Option.bind_eq_some_iff,
      Option.ite_none_right_eq_some] at h
    obtain ⟨_, -, _, -, _, -, _, ⟨hnonneg, -⟩, -⟩ := h
    exact hnonneg
  · rintro fd (hpc | hpc)
    · cases hpc
    · cases hpc

/-! ### The simulation -/

/-- The event loop is where the event thread is, with the same pool. -/
structure Follows (s : Server Q n) (t : EventLoop Q n) : Prop where
  nonneg : s.Nonneg
  pool : t.pool = s.pool
  stop : t.stop = s.stop
  client : t.client = s.report.client
  eventFlag : t.eventFlag = s.report.eventFlag
  pc : s.eventPc.At t.pc
  poster : s.pool.SinglePoster (s.posted.map Report.pair)

/-- The event thread and the pool do not move. -/
lemma Follows.stay (hF : s.Follows t) (hnonneg : s'.Nonneg) (hpool : s'.pool = s.pool)
    (hstop : s'.stop = s.stop) (hreport : s'.report = s.report) (hposted : s'.posted = s.posted)
    (hpc : s'.eventPc.At t.pc) : s'.Follows t where
  nonneg := hnonneg
  pool := hF.pool.trans hpool.symm
  stop := hF.stop.trans hstop.symm
  client := by rw [hreport, hF.client]
  eventFlag := by rw [hreport, hF.eventFlag]
  pc := hpc
  poster := by
    rw [hpool, hposted]
    exact hF.poster

/-- The loop gets the result that the kernel gives to the event thread. -/
lemma Follows.eventWait (hF : s.Follows t) {answer : WaitAnswer}
    (h : s.eventWait answer = some s') :
    ∃ result t', t.waitEvent result = some t' ∧ s'.Follows t' := by
  obtain ⟨pool, stop, pc, client, eventFlag, tested⟩ := t
  obtain ⟨hnonneg, hpool, hstop, hclient, hflag, hat, hposter⟩ := hF
  unfold Server.eventWait at h
  split at h
  · rename_i hpc
    rw [hpc] at hat
    cases hat
    cases h
    exact ⟨.error, _, if_pos rfl, hnonneg.frame rfl rfl fun _ => id, hpool, hstop, hclient, hflag,
      .test .error, hposter⟩
  · rename_i hpc
    rw [hpc] at hat
    cases hat
    cases h
    exact ⟨.timeout, _, if_pos rfl, hnonneg.frame rfl rfl fun _ => id, hpool, hstop, hclient, hflag,
      .test .timeout, hposter⟩
  · rename_i hpc
    rw [hpc] at hat
    cases hat
    simp only [bind, Option.bind_eq_some_iff, pure, Option.some.injEq] at h
    obtain ⟨event, hevent, rfl⟩ := h
    obtain ⟨e, he, hdata, -⟩ := Kernel.report_spec hevent
    have hclient : 0 ≤ event.data.toInt := hdata ▸ hnonneg.entry _ e he
    refine ⟨.event event.data event.events, _, (if_pos rfl).trans (if_pos hclient),
      hnonneg.frame rfl rfl fun _ => id, hpool, hstop, rfl, rfl, ?_, hposter⟩
    split_ifs
    · exact .enqueue _ _
    · exact .test (.event _ _)
  · cases h

/-- A worker receives or sends. -/
lemma Follows.ioCall (hF : s.Follows t) {i : Fin n} {next : ClientPc}
    (h : s.ioCall i next = some s') : s'.Follows t := by
  unfold Server.ioCall at h
  split at h
  · cases h
    exact hF.stay (hF.nonneg.frame rfl rfl fun _ => id) rfl rfl rfl rfl hF.pc
  · cases h

variable [FifoQueue Q Pointer] [LawfulFifoQueue Q Pointer]

/-- The loop takes the same step, except that putting a descriptor on the disconnection queue is no
step of its own. -/
lemma Follows.clientEventProcessor (hF : s.Follows t) (h : s.clientEventProcessor = some s') :
    s'.Follows t ∨ ∃ t', t.clientEventProcessor = some t' ∧ s'.Follows t' := by
  obtain ⟨pool, stop, pc, client, eventFlag, tested⟩ := t
  obtain ⟨hnonneg, hpool, hstop, hclient, hflag, hat, hposter⟩ := hF
  simp only at hpool hstop hclient hflag hat
  subst hpool hstop hclient hflag
  cases eventEffect_of_clientEventProcessor h with
  | enqueue hpc =>
    rw [hpc] at hat
    cases hat with
    | enqueue client eventFlag =>
      left
      exact ⟨hnonneg.frame rfl rfl fun _ => id, rfl, rfl, rfl, rfl, .test (.event _ _), hposter⟩
  | test hpc =>
    rw [hpc] at hat
    cases hat with
    | test result =>
      right
      refine ⟨_, rfl, hnonneg.frame rfl rfl fun _ => id, rfl, rfl, rfl, rfl, ?_, hposter⟩
      split_ifs
      · exact .callPost
      · exact .epollWait
      · exact .returned
  | callPost hpc hpool =>
    rw [hpc] at hat
    cases hat
    right
    refine ⟨_, Option.bind_eq_some_iff.mpr ⟨_, hpool, rfl⟩,
      hnonneg.frame rfl rfl fun _ => id, rfl, rfl, rfl, rfl, .posting, ?_⟩
    rw [List.map_append, List.map_singleton]
    exact hposter.callPost hpool
  | posting hpc hpost =>
    rw [hpc] at hat
    cases hat
    right
    exact ⟨_, if_pos hpost, hnonneg.frame rfl rfl fun _ => id, rfl, rfl, rfl, rfl, .epollWait,
      hposter⟩

/-- A step of the pool in the server is one of the pool of the loop. -/
lemma Follows.poolStep (hF : s.Follows t) {a : PoolAct Pointer n Unit}
    (h : s.poolStep a = some s') : ∃ t', t.step (.pool a) = some t' ∧ s'.Follows t' := by
  obtain ⟨hpost, pool, clientPc, hpool, rfl⟩ := poolStep_spec h
  have hpool' : t.pool.step a = some pool := by rw [hF.pool, hpool]
  exact ⟨{ t with pool }, EventLoop.step_pool_iff.mpr ⟨hpost, pool, hpool', rfl⟩,
    hF.nonneg.frame rfl rfl fun _ => id, rfl, hF.stop, hF.client, hF.eventFlag, hF.pc,
    hF.poster.step hpool hpost⟩

/-- The event loop follows every step of the server. -/
theorem Follows.step (hF : s.Follows t) {a : ServerAct n} (hstep : s.step a = some s') :
    s'.Follows t ∨ ∃ b t', t.step b = some t' ∧ s'.Follows t' := by
  cases a with
  | arrive =>
    cases hstep
    exact .inl (hF.stay (hF.nonneg.frame rfl rfl fun _ => id) rfl rfl rfl rfl hF.pc)
  | setStop =>
    cases hstep
    exact .inr ⟨.setStop, _, rfl, hF.nonneg.frame rfl rfl fun _ => id, hF.pool, rfl, hF.client,
      hF.eventFlag, hF.pc, hF.poster⟩
  | acceptWait events =>
    simp only [Server.step, Server.acceptWait] at hstep
    split at hstep
    · cases hstep
      refine .inl (hF.stay (hF.nonneg.frame rfl rfl fun fd hfd => ?_) rfl rfl rfl rfl hF.pc)
      simp only at hfd
      split_ifs at hfd <;> simp at hfd
    · cases hstep
  | accept clientAddressLen answer =>
    have hnonneg := hF.nonneg.acceptAnswer hstep
    obtain ⟨-, rfl | ⟨fd, k, -, rfl⟩ | ⟨fd, k, -, -, rfl⟩⟩ := acceptAnswer_spec hstep
    · exact .inl (hF.stay hnonneg rfl rfl rfl rfl hF.pc)
    · exact .inl (hF.stay hnonneg rfl rfl rfl rfl hF.pc)
    · exact .inl (hF.stay hnonneg rfl rfl rfl rfl hF.pc)
  | acceptProc =>
    have hnonneg := hF.nonneg.acceptProc hstep
    obtain ⟨⟨world, queueLocked, acceptPc, rfl⟩, -⟩ := acceptEffect_of_acceptProc hstep
    exact .inl (hF.stay hnonneg rfl rfl rfl rfl hF.pc)
  | eventWait answer =>
    obtain ⟨result, t', ht', hF'⟩ := hF.eventWait hstep
    exact .inr ⟨.waitEvent result, t', ht', hF'⟩
  | clientEventProcessor =>
    rcases hF.clientEventProcessor hstep with hF' | ⟨t', ht', hF'⟩
    · exact .inl hF'
    · exact .inr ⟨.clientEventProcessor, t', ht', hF'⟩
  | pool a =>
    obtain ⟨t', ht', hF'⟩ := hF.poolStep hstep
    exact .inr ⟨.pool a, t', ht', hF'⟩
  | recv i received =>
    obtain ⟨-, hstep⟩ := Option.ite_none_right_eq_some.mp hstep
    exact .inl (hF.ioCall hstep)
  | send i =>
    obtain ⟨-, hstep⟩ := Option.ite_none_right_eq_some.mp hstep
    exact .inl (hF.ioCall hstep)

/-- Every run of the server is one of the event loop, on the same pool. -/
theorem exists_follows (h : (serverSystem Q n).Reachable s) :
    ∃ t, (eventLoopSystem Q n).Reachable t ∧ s.Follows t := by
  apply h.simulated
  · rintro s ⟨k, srvFd, epListener, epSelector, shutdownFd, world, hcreate, rfl⟩
    exact ⟨.initial, rfl, Nonneg.initial hcreate, rfl, rfl, rfl, rfl, .epollWait,
      fun _ => rfl, rfl⟩
  · intro s a s' t hF hstep
    exact hF.step hstep

/-! ### Back to the server -/

/-- The descriptor and the mask can be read off the arguments. -/
lemma report_of_pair {event : Fd × BitVec 32} (h : 0 ≤ event.1.toInt)
    (hpair : r.pair = eventPair event) : (r.client, r.eventFlag) = event := by
  have hargs : packArg r.client r.eventFlag = packArg event.1 event.2 := by
    simpa only [Report.pair, eventPair, Prod.mk.injEq, Pointer.data.injEq, true_and] using hpair
  have hclient : r.client = event.1 := by
    rw [← clientOf_packArg r.client r.eventFlag, hargs, clientOf_packArg]
  have hflag : r.eventFlag = event.2 := by
    rw [← eventFlagOf_packArg (hclient ▸ h) r.eventFlag, hargs, eventFlagOf_packArg h]
  rw [hclient, hflag]

/-- Whatever the accept thread does meanwhile, every call of a worker is a call of `client_event`
that unpacks the report that was posted under its number. -/
theorem called_unpacks (h : (serverSystem Q n).Reachable s) {p : Plucked Pointer}
    (hp : p ∈ s.pool.hist.called) : p.functionP = .clientEvent ∧
      ∃ r, s.posted[p.ticket]? = some r ∧
        clientEventArgs p.args = some (r.client, r.eventFlag) := by
  obtain ⟨t, ht, hF⟩ := exists_follows h
  obtain ⟨sent, hI⟩ := EventLoop.Inv.of_reachable ht
  have hpool : s.pool.Inv := hF.pool ▸ hI.pool
  have hposted := hpool.called_posted hF.poster hp
  rw [List.getElem?_map, Option.map_eq_some_iff] at hposted
  rw [← hF.pool] at hp
  obtain ⟨event, hevent, hpair⟩ := hI.exists_of_called hp
  obtain ⟨r, hr, hreport⟩ := hposted
  obtain ⟨hfunction, hargs⟩ := Prod.mk.inj hpair
  have hnonneg := hI.nonneg event (List.mem_of_getElem? hevent)
  refine ⟨hfunction.symm, r, hr, ?_⟩
  rw [report_of_pair hnonneg (hreport.trans hpair.symm), ← hargs]
  exact clientEventArgs_packArg hnonneg event.2

end Server

end C10K
