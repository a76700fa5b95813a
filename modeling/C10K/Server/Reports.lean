import C10K.Endpoint.Registry
import C10K.Server.Basic
import C10K.Server.Poster

/-!
# Whom the workers serve

An event carries a number, and the number is closed by another thread. As long as no descriptor is
closed while a report about it is in use, every worker serves the connection of its report.
-/

namespace C10K

lemma clientOf_packArg (client : Fd) (eventFlag : BitVec 32) :
    clientOf (packArg client eventFlag) = client := by
  ext j hj
  have hj' : j < 64 := by omega
  rw [clientOf, packArg, BitVec.getElem_setWidth, BitVec.getLsbD_or, BitVec.getLsbD_signExtend,
    BitVec.getLsbD_shiftLeft, if_pos hj, decide_eq_true hj, decide_eq_true hj']
  simp [hj]

/-- What `w_post` is called with for a report. -/
def Report.pair (r : Report) : Pointer × Pointer :=
  (.clientEvent, .data (packArg r.client r.eventFlag))

/-- The event thread has an event to handle. -/
def EventPc.holds : EventPc → Bool
  | .enqueue | .callPost => true
  | .test count => 0 < count
  | .epollWait | .posting | .returned => false

namespace Server

variable {Q : Type} {n : ℕ} {s s' : Server Q n} {r : Report}

/-- The report is posted and its `client_event` has not returned, or the event thread has it in
hand. -/
def InUse (s : Server Q n) (r : Report) : Prop :=
  (∃ k, s.posted[k]? = some r ∧ k ∉ s.pool.hist.finished) ∨ s.eventPc.holds = true ∧ r = s.report

/-- No descriptor is closed while a report about it is in use. -/
def ClosesUnused (s : Server Q n) : ServerAct n → Prop
  | .acceptProc => ∀ fd, s.acceptPc = .close fd → ∀ r, s.InUse r → r.client ≠ fd
  | _ => True

/-- A worker in `client_event` was called with a report that was posted, the descriptor that it
decodes denotes what was reported, and so it did at every `recv` and `send`. -/
structure ServesReported (s : Server Q n) : Prop where
  running : ∀ i p, s.pool.worker i = .running p → ∃ r args, s.posted[p.ticket]? = some r ∧
    p.functionP = .clientEvent ∧ p.args = .data args ∧ clientOf args = r.client ∧
    r.file ≠ none ∧ s.world.kernel.files (clientOf args) = r.file
  io : ∀ call ∈ s.io, ∃ r, s.posted[call.ticket]? = some r ∧ r.file ≠ none ∧
    call.fd = r.client ∧ call.file = r.file

variable [FifoQueue Q Pointer] [LawfulFifoQueue Q Pointer]

/-- The descriptors of the reports in use denote what was reported. -/
structure Inv (s : Server Q n) : Prop where
  pool : s.pool.Inv
  poster : s.pool.SinglePoster (s.posted.map Report.pair)
  entry : ∀ fd e, s.world.kernel.interest s.world.endpoint.epSelector fd = some e → e.data = fd
  denotes : ∀ r, s.InUse r → r.file ≠ none ∧ s.world.kernel.files r.client = r.file
  io : ∀ call ∈ s.io, ∃ r, s.posted[call.ticket]? = some r ∧ r.file ≠ none ∧
    call.fd = r.client ∧ call.file = r.file

/-- A worker runs `client_event` for a report that is in use. -/
lemma Inv.running (hI : s.Inv) {i : Fin n} {p : Plucked Pointer}
    (h : s.pool.worker i = .running p) :
    ∃ r, s.posted[p.ticket]? = some r ∧ p.functionP = .clientEvent ∧
      p.args = .data (packArg r.client r.eventFlag) ∧ s.InUse r := by
  have hpair := hI.pool.running_posted hI.poster h
  rw [List.getElem?_map, Option.map_eq_some_iff] at hpair
  obtain ⟨r, hr, hpair⟩ := hpair
  obtain ⟨hfunction, hargs⟩ := Prod.mk.inj hpair
  exact ⟨r, hr, hfunction.symm, hargs.symm, .inl ⟨_, hr, hI.pool.running_not_finished h⟩⟩

lemma Inv.servesReported (hI : s.Inv) : s.ServesReported where
  running i p h := by
    obtain ⟨r, hr, hfunction, hargs, huse⟩ := hI.running h
    have hclient := clientOf_packArg r.client r.eventFlag
    obtain ⟨hsome, hfile⟩ := hI.denotes r huse
    exact ⟨r, _, hr, hfunction, hargs, hclient, hsome, (congrArg _ hclient).trans hfile⟩
  io := hI.io

/-! ### Steps -/

/-- A step of the accept thread or of the event thread that posts nothing. -/
lemma Inv.frame (hI : s.Inv) (hpool : s'.pool = s.pool) (hposted : s'.posted = s.posted)
    (hio : s'.io = s.io)
    (hentry : ∀ fd e, s'.world.kernel.interest s'.world.endpoint.epSelector fd = some e →
      e.data = fd)
    (hfiles : ∀ r, s.InUse r → s'.world.kernel.files r.client = s.world.kernel.files r.client)
    (hreport : s'.eventPc.holds = true → s.eventPc.holds = true ∧ s'.report = s.report) :
    s'.Inv where
  pool := hpool ▸ hI.pool
  poster := by rw [hpool, hposted]; exact hI.poster
  entry := hentry
  denotes r hr := by
    have huse : s.InUse r := by
      rcases hr with ⟨k, hk, hfin⟩ | ⟨hholds, rfl⟩
      · rw [hposted] at hk
        rw [hpool] at hfin
        exact .inl ⟨k, hk, hfin⟩
      · exact .inr ⟨(hreport hholds).1, (hreport hholds).2⟩
    rw [hfiles r huse]
    exact hI.denotes r huse
  io := by rw [hio, hposted]; exact hI.io

/-- The accept thread touches neither the pool nor the reports. -/
lemma Inv.acceptFrame (hI : s.Inv) {world : World} {queueLocked : Bool} {acceptPc : AcceptPc}
    (hentry : ∀ fd e, world.kernel.interest world.endpoint.epSelector fd = some e → e.data = fd)
    (hfiles : ∀ r, s.InUse r → world.kernel.files r.client = s.world.kernel.files r.client) :
    Inv { s with world, queueLocked, acceptPc } :=
  hI.frame rfl rfl rfl hentry hfiles fun h => ⟨h, rfl⟩

omit [FifoQueue Q Pointer] [LawfulFifoQueue Q Pointer] in
/-- `accept` has no client, it loses one, or it makes a descriptor for one. -/
lemma acceptAnswer_spec {clientAddressLen : BitVec 32} {answer : Option Fd}
    (h : s.acceptAnswer clientAddressLen answer = some s') :
    s.acceptPc = .accept ∧ (s' = { s with acceptPc := .test 0 } ∨
      (∃ fd kernel, s.world.kernel.lose s.world.endpoint.srvFd fd = some kernel ∧
        s' = { s with world := { s.world with kernel }, acceptPc := .test 0 }) ∨
      ∃ fd kernel, 0 ≤ fd.toInt ∧
        s.world.kernel.accept s.world.endpoint.srvFd fd = some kernel ∧
        s' = { s with world := { s.world with kernel }, acceptPc := .register fd }) := by
  unfold Server.acceptAnswer at h
  split at h
  · rename_i hpc
    cases h
    exact ⟨hpc, .inl rfl⟩
  · rename_i hpc
    simp only [bind, pure] at h
    split_ifs at h with hfd hlen
    · obtain ⟨k, hk, h⟩ := Option.bind_eq_some_iff.mp h
      cases h
      exact ⟨hpc, .inr (.inl ⟨_, k, hk, rfl⟩)⟩
    · obtain ⟨k, hk, h⟩ := Option.bind_eq_some_iff.mp h
      cases h
      exact ⟨hpc, .inr (.inr ⟨_, k, not_lt.mp hfd, hk, rfl⟩)⟩
  · cases h

lemma Inv.acceptAnswer (hI : s.Inv) {clientAddressLen : BitVec 32} {answer : Option Fd}
    (h : s.acceptAnswer clientAddressLen answer = some s') : s'.Inv := by
  obtain ⟨-, rfl | ⟨fd, k, hk, rfl⟩ | ⟨fd, k, -, hk, rfl⟩⟩ := acceptAnswer_spec h
  · exact hI.acceptFrame hI.entry fun _ _ => rfl
  · obtain ⟨c, backlog, -, -, -, -, hfiles, hinterest⟩ := Kernel.lose_spec hk
    refine hI.acceptFrame (fun fd e he => hI.entry fd e (hinterest ▸ he)) fun r _ => ?_
    rw [hfiles]
  · obtain ⟨c, backlog, -, hnone, -, hfiles, hinterest⟩ := Kernel.accept_spec hk
    refine hI.acceptFrame (fun fd e he => hI.entry fd e (hinterest ▸ he)) fun r hr => ?_
    obtain ⟨hsome, hfile⟩ := hI.denotes r hr
    -- the number of a report in use is not handed out
    have hne : r.client ≠ fd := fun heq => hsome (hfile.symm.trans (heq ▸ hnone))
    rw [hfiles, Function.update_of_ne hne]

/-- What the accept thread does between its calls of `epoll_wait` and `accept`. -/
structure AcceptEffect (s s' : Server Q n) : Prop where
  frame : ∃ world queueLocked acceptPc, s' = { s with world, queueLocked, acceptPc }
  entry : ∀ fd e, s'.world.kernel.interest s'.world.endpoint.epSelector fd = some e →
    s.world.kernel.interest s.world.endpoint.epSelector fd = some e ∨
      s.acceptPc = .epollAdd fd ∧ e.data = fd
  files : ∀ fd, s.acceptPc ≠ .close fd → s'.world.kernel.files fd = s.world.kernel.files fd
  registers : ∀ fd, s'.acceptPc = .register fd ∨ s'.acceptPc = .epollAdd fd →
    s.acceptPc = .register fd

omit [FifoQueue Q Pointer] [LawfulFifoQueue Q Pointer] in
lemma acceptEffect_of_acceptProc (h : s.acceptProc = some s') : s.AcceptEffect s' := by
  unfold Server.acceptProc at h
  cases hpc : s.acceptPc with
  | epollWait | accept | returned => simp [hpc] at h
  | epollAdd fd =>
    simp only [hpc, Option.some.injEq] at h
    subst h
    refine ⟨⟨_, _, _, rfl⟩, fun fd' e he => ?_, fun _ _ => by rw [Kernel.files_epollAdd], by simp⟩
    rcases Kernel.entry_epollAdd he with ⟨rfl, rfl⟩ | he
    · exact .inr ⟨hpc, rfl⟩
    · exact .inl he
  | epollDel fd =>
    simp only [hpc, Option.some.injEq] at h
    subst h
    refine ⟨⟨_, _, _, rfl⟩, fun fd' e he => ?_, fun _ _ => rfl, by simp⟩
    have he := Kernel.interest_epollDel.symm.trans he
    split_ifs at he
    exact .inl he
  | close fd =>
    simp only [hpc, Option.some.injEq] at h
    subst h
    refine ⟨⟨_, _, _, rfl⟩, fun fd' e he => ?_, fun fd' hfd' => ?_, by simp⟩
    · have he := Kernel.interest_close.symm.trans he
      split_ifs at he
      exact .inl he
    · have hne : fd' ≠ fd := fun heq => hfd' (heq ▸ hpc)
      rw [Kernel.files_close, if_neg hne]
  | pop =>
    simp only [hpc, bind, pure] at h
    split_ifs at h
    · cases h
      exact ⟨⟨_, _, _, rfl⟩, fun _ _ => .inl, fun _ _ => rfl, by simp⟩
    · obtain ⟨⟨val, queue⟩, -, h⟩ := Option.bind_eq_some_iff.mp h
      cases h
      exact ⟨⟨_, _, _, rfl⟩, fun _ _ => .inl, fun _ _ => rfl, by simp⟩
  | lockQueue =>
    simp only [hpc] at h
    split_ifs at h
    cases h
    exact ⟨⟨_, _, _, rfl⟩, fun _ _ => .inl, fun _ _ => rfl, by simp⟩
  | test count =>
    simp only [hpc, Option.some.injEq] at h
    subst h
    refine ⟨⟨_, _, _, rfl⟩, fun _ _ => .inl, fun _ _ => rfl, fun fd hfd => ?_⟩
    simp only at hfd
    split_ifs at hfd <;> simp at hfd
  | register fd =>
    simp only [hpc, Option.some.injEq] at h
    subst h
    refine ⟨⟨_, _, _, rfl⟩, fun _ _ => .inl, fun _ _ => rfl, ?_⟩
    rintro fd' (hfd' | hfd')
    · cases hfd'
    · cases hfd'
      exact hpc
  | deregister | shutdown | unlockQueue =>
    simp only [hpc, Option.some.injEq] at h
    subst h
    exact ⟨⟨_, _, _, rfl⟩, fun _ _ => .inl, fun _ _ => rfl, by simp⟩

lemma Inv.acceptProc (hI : s.Inv) (hG : s.ClosesUnused .acceptProc)
    (h : s.acceptProc = some s') : s'.Inv := by
  obtain ⟨⟨world, queueLocked, acceptPc, rfl⟩, hentry, hfiles, -⟩ := acceptEffect_of_acceptProc h
  apply hI.acceptFrame
  · intro fd e he
    rcases hentry fd e he with he | ⟨-, hdata⟩
    · exact hI.entry fd e he
    · exact hdata
  · intro r hr
    apply hfiles
    intro hpc
    exact hG r.client hpc r hr rfl

/-- A report that `epoll_wait` returns is about an open descriptor. -/
lemma Inv.eventWait (hI : s.Inv) {answer : WaitAnswer} (h : s.eventWait answer = some s') :
    s'.Inv := by
  unfold Server.eventWait at h
  split at h
  · cases h
    exact hI.frame rfl rfl rfl hI.entry (fun _ _ => rfl) nofun
  · cases h
    exact hI.frame rfl rfl rfl hI.entry (fun _ _ => rfl) nofun
  · simp only [bind, Option.bind_eq_some_iff, pure, Option.some.injEq] at h
    obtain ⟨event, hevent, rfl⟩ := h
    obtain ⟨e, he, hevent⟩ := Option.bind_eq_some_iff.mp hevent
    split_ifs at hevent
    cases hevent
    refine ⟨hI.pool, hI.poster, hI.entry, fun r hr => ?_, hI.io⟩
    rcases hr with hposted | ⟨-, rfl⟩
    · exact hI.denotes r (.inl hposted)
    · exact ⟨(s.world.kernel.valid.listed he).2, congrArg _ (hI.entry _ e he)⟩
  · cases h

/-- The event thread posts the report that it has in hand. -/
lemma Inv.callPost (hI : s.Inv) {pool : Pool Q Pointer n Unit} (hpc : s.eventPc = .callPost)
    (hstep : s.pool.step (.callPost (.client ()) s.report.pair.1 s.report.pair.2) = some pool) :
    Inv { s with pool, eventPc := .posting, posted := s.posted ++ [s.report] } where
  pool := hI.pool.step hstep
  poster := by
    rw [List.map_append, List.map_singleton]
    exact hI.poster.callPost hstep
  entry := hI.entry
  denotes r hr := by
    refine hI.denotes r ?_
    rcases hr with ⟨k, hk, hfin⟩ | ⟨hholds, -⟩
    · rw [List.getElem?_append] at hk
      split_ifs at hk with hlt
      · exact .inl ⟨k, hk, fun hmem => hfin (Pool.finished_subset hstep hmem)⟩
      · rw [List.getElem?_singleton] at hk
        split_ifs at hk
        cases hk
        exact .inr ⟨by rw [hpc]; rfl, rfl⟩
    · cases hholds
  io call hcall := by
    obtain ⟨r, hr, hcall⟩ := hI.io call hcall
    exact ⟨r, by rw [List.getElem?_append_left (List.getElem?_eq_some_iff.mp hr).1, hr], hcall⟩

/-- What the event thread does between its calls of `epoll_wait`. -/
inductive EventEffect (s : Server Q n) : Server Q n → Prop
  | enqueue (hpc : s.eventPc = .enqueue) : EventEffect s { s with
      world := endpointEnqueueClientForDisconnection s.world s.report.client
      eventPc := .test 1 }
  | test {count : ℤ} (hpc : s.eventPc = .test count) : EventEffect s { s with
      eventPc := if count > -1 ∧ s.stop = false then
        (if count > 0 then .callPost else .epollWait) else .returned }
  | callPost {pool : Pool Q Pointer n Unit} (hpc : s.eventPc = .callPost)
      (hpool : s.pool.step (.callPost (.client ()) s.report.pair.1 s.report.pair.2) = some pool) :
      EventEffect s { s with pool, eventPc := .posting, posted := s.posted ++ [s.report] }
  | posting (hpc : s.eventPc = .posting) (hpost : (s.pool.post (.client ())).isNone) :
      EventEffect s { s with eventPc := .epollWait }

omit [LawfulFifoQueue Q Pointer] in
lemma eventEffect_of_clientEventProcessor (h : s.clientEventProcessor = some s') :
    s.EventEffect s' := by
  unfold Server.clientEventProcessor at h
  cases hpc : s.eventPc with
  | epollWait | returned => simp [hpc] at h
  | enqueue =>
    simp only [hpc] at h
    split_ifs at h
    cases h
    exact .enqueue hpc
  | test count =>
    simp only [hpc, Option.some.injEq] at h
    subst h
    exact .test hpc
  | callPost =>
    simp only [hpc, bind, Option.bind_eq_some_iff, pure, Option.some.injEq] at h
    obtain ⟨pool, hpool, rfl⟩ := h
    exact .callPost hpc hpool
  | posting =>
    simp only [hpc, Option.ite_none_right_eq_some, Option.some.injEq] at h
    obtain ⟨hpost, rfl⟩ := h
    exact .posting hpc hpost

lemma Inv.clientEventProcessor (hI : s.Inv) (h : s.clientEventProcessor = some s') : s'.Inv := by
  cases eventEffect_of_clientEventProcessor h with
  | enqueue hpc =>
    refine hI.frame rfl rfl rfl hI.entry (fun _ _ => rfl) fun _ => ⟨?_, rfl⟩
    rw [hpc]
    rfl
  | test hpc =>
    refine hI.frame rfl rfl rfl hI.entry (fun _ _ => rfl) fun hholds => ⟨?_, rfl⟩
    rw [hpc]
    split_ifs at hholds with hrun hcount
    · exact decide_eq_true hcount
    · cases hholds
    · cases hholds
  | callPost hpc hpool => exact hI.callPost hpc hpool
  | posting => exact hI.frame rfl rfl rfl hI.entry (fun _ _ => rfl) nofun

/-- The pool moves without a new call of `w_post`. -/
lemma Inv.poolFrame (hI : s.Inv) {a : PoolAct Pointer n Unit} {pool : Pool Q Pointer n Unit}
    {clientPc : Fin n → ClientPc} (hstep : s.pool.step a = some pool)
    (ha : ∀ t job args, a ≠ .callPost t job args) : Inv { s with pool, clientPc } where
  pool := hI.pool.step hstep
  poster := hI.poster.step hstep ha
  entry := hI.entry
  denotes r hr := by
    refine hI.denotes r (hr.imp ?_ id)
    rintro ⟨k, hk, hfin⟩
    exact ⟨k, hk, fun hmem => hfin (Pool.finished_subset hstep hmem)⟩
  io := hI.io

omit [LawfulFifoQueue Q Pointer] in
/-- A step of the pool starts no call of `w_post`, and changes what its workers do besides. -/
lemma poolStep_spec {a : PoolAct Pointer n Unit} (h : s.poolStep a = some s') :
    (∀ t job args, a ≠ .callPost t job args) ∧
      ∃ pool clientPc, s.pool.step a = some pool ∧ s' = { s with pool, clientPc } := by
  unfold Server.poolStep at h
  split at h
  · cases h
  · simp only [Option.ite_none_right_eq_some, bind, Option.bind_eq_some_iff, pure,
      Option.some.injEq] at h
    obtain ⟨-, pool, hpool, rfl⟩ := h
    exact ⟨nofun, pool, _, hpool, rfl⟩
  · simp only [Option.ite_none_right_eq_some, bind, Option.bind_eq_some_iff, pure,
      Option.some.injEq] at h
    obtain ⟨-, pool, hpool, rfl⟩ := h
    exact ⟨nofun, pool, _, hpool, rfl⟩
  · obtain ⟨pool, hpool, h⟩ := Option.bind_eq_some_iff.mp h
    split at h
    · cases h
      exact ⟨nofun, pool, _, hpool, rfl⟩
    · cases h
      exact ⟨nofun, pool, _, hpool, rfl⟩
  · simp only [bind, Option.bind_eq_some_iff, pure, Option.some.injEq] at h
    obtain ⟨pool, hpool, rfl⟩ := h
    exact ⟨by assumption, pool, _, hpool, rfl⟩

lemma Inv.poolStep (hI : s.Inv) {a : PoolAct Pointer n Unit} (h : s.poolStep a = some s') :
    s'.Inv := by
  obtain ⟨hpost, pool, clientPc, hpool, rfl⟩ := poolStep_spec h
  exact hI.poolFrame hpool hpost

/-- A worker receives or sends. -/
lemma Inv.ioCall (hI : s.Inv) {i : Fin n} {next : ClientPc} (h : s.ioCall i next = some s') :
    s'.Inv := by
  unfold Server.ioCall at h
  split at h
  · rename_i _ functionP args ticket hworker
    cases h
    refine ⟨hI.pool, hI.poster, hI.entry, hI.denotes, fun call hcall => ?_⟩
    rcases List.mem_append.mp hcall with hcall | hcall
    · exact hI.io call hcall
    · rw [List.mem_singleton.mp hcall]
      obtain ⟨r, args', hr, -, hargs, hclient, hsome, hfile⟩ :=
        hI.servesReported.running i _ hworker
      obtain rfl := Pointer.data.inj hargs
      exact ⟨r, hr, hsome, hclient, hfile⟩
  · cases h

variable {a : ServerAct n}

theorem Inv.step (hI : s.Inv) (hG : s.ClosesUnused a) (hstep : s.step a = some s') : s'.Inv := by
  cases a with
  | arrive =>
    cases hstep
    exact hI.frame rfl rfl rfl hI.entry (fun _ _ => rfl) fun h => ⟨h, rfl⟩
  | setStop =>
    cases hstep
    exact hI.frame rfl rfl rfl hI.entry (fun _ _ => rfl) fun h => ⟨h, rfl⟩
  | acceptWait events =>
    simp only [Server.step, Server.acceptWait] at hstep
    split at hstep
    · cases hstep
      exact hI.acceptFrame hI.entry fun _ _ => rfl
    · cases hstep
  | accept clientAddressLen answer => exact hI.acceptAnswer hstep
  | acceptProc => exact hI.acceptProc hG hstep
  | eventWait answer => exact hI.eventWait hstep
  | clientEventProcessor => exact hI.clientEventProcessor hstep
  | pool a => exact hI.poolStep hstep
  | recv i received =>
    simp only [Server.step, Server.recv, Option.ite_none_right_eq_some] at hstep
    exact hI.ioCall hstep.2
  | send i =>
    simp only [Server.step, Server.send, Option.ite_none_right_eq_some] at hstep
    exact hI.ioCall hstep.2

lemma Inv.initial {k : Kernel Fd} {srvFd epListener epSelector shutdownFd : Fd} {world : World}
    (h : endpointCreate k srvFd epListener epSelector shutdownFd = some world) :
    (Server.initial world : Server Q n).Inv where
  pool := Pool.Inv.initial
  poster := ⟨fun _ => rfl, rfl⟩
  entry fd e he := by
    obtain ⟨hendpoint, -, -, -, hinterest⟩ := World.endpointCreate_spec h
    have he : world.kernel.interest world.endpoint.epSelector fd = some e := he
    rw [hendpoint, hinterest] at he
    split_ifs at he with hfd
    cases he
    exact hfd.symm
  denotes r hr := by
    rcases hr with ⟨k, hk, -⟩ | ⟨hholds, -⟩
    · cases hk
    · cases hholds
  io := nofun

/-- In every run in which no descriptor is closed while a report about it is in use, a worker in
`client_event` serves the connection that the report was about. -/
theorem serves_reported (h : (serverSystem Q n).ReachableMeeting ClosesUnused s) :
    s.ServesReported := by
  have hI : s.Inv := by
    refine h.invariant (I := Inv) ?_ ?_
    · rintro s₀ ⟨k, srvFd, epListener, epSelector, shutdownFd, world, hcreate, rfl⟩
      exact Inv.initial hcreate
    · intro s a s' _ hI hG hstep
      exact hI.step hG hstep
  exact hI.servesReported

end Server

/-- Connection 0 is accepted as 7, sends a request and hangs up; the event is posted. -/
def acceptAndPost : List (ServerAct 1) :=
  [.arrive, .arrive, .acceptWait EPOLLIN, .accept 0 (some 7), .acceptProc, .acceptProc,
    .eventWait (.event 7 (EPOLLIN ||| EPOLLRDHUP)), .clientEventProcessor, .clientEventProcessor,
    .clientEventProcessor, .pool (.post (.client ())), .pool (.post (.client ())),
    .pool (.post (.client ())), .pool (.post (.client ())), .pool (.postSignal (.client ()) none)]

/-- The worker takes the job and receives from the descriptor. -/
def takeAndReceive : List (ServerAct 1) :=
  [.pool (.work 0), .pool (.work 0), .pool (.work 0), .pool (.work 0), .pool (.work 0),
    .pool (.work 0), .pool (.work 0), .pool (.workSignal 0 none), .pool (.work 0), .recv 0 true]

/-- The worker receives from connection 0. -/
theorem serves_reported_one : ∃ s : Server (RingQueue Pointer) 1,
    s.io = [⟨0, 7, some (.conn 0)⟩] ∧ s.ServesReported := by
  let test : Server (RingQueue Pointer) 1 → ServerAct 1 → Bool := fun s a =>
    match a, s.acceptPc with
    | .acceptProc, .close _ => false
    | _, _ => true
  have htest : ∀ s a, test s a = true → s.ClosesUnused a := by
    intro s a h
    cases a with
    | acceptProc =>
      intro fd hpc
      simp [test, hpc] at h
    | _ => trivial
  have hrun : ((endpointCreate .initial 3 4 5 6).bind fun w =>
      ((serverSystem (RingQueue Pointer) 1).execMeeting test (.initial w)
        (acceptAndPost ++ takeAndReceive)).map fun s => s.io) =
      some [⟨0, 7, some (.conn 0)⟩] := by decide +kernel
  obtain ⟨w, hw, hrun⟩ := Option.bind_eq_some_iff.mp hrun
  obtain ⟨s, hs, hio⟩ := Option.map_eq_some_iff.mp hrun
  have hreach : (serverSystem (RingQueue Pointer) 1).ReachableMeeting Server.ClosesUnused s :=
    ⟨_, _, ⟨.initial, 3, 4, 5, 6, w, hw, rfl⟩, LTS.runMeeting_of_exec hs htest⟩
  exact ⟨s, hio, Server.serves_reported hreach⟩

/-- The accept thread closes the descriptor of the event and accepts connection 1 under its number
before the worker starts; the worker receives from connection 1. -/
theorem serves_successor : ¬ ∀ s : Server (RingQueue Pointer) 1,
    (serverSystem (RingQueue Pointer) 1).Reachable s → s.ServesReported := by
  intro hall
  let closeAndAccept : List (ServerAct 1) :=
    [.acceptProc, .acceptProc, .acceptProc, .acceptProc, .acceptProc, .acceptProc, .acceptProc,
      .acceptProc, .acceptProc, .acceptWait EPOLLIN, .accept 0 (some 7)]
  let acts := acceptAndPost ++ closeAndAccept ++ takeAndReceive
  have hrun : ((endpointCreate .initial 3 4 5 6).bind fun w =>
      ((serverSystem (RingQueue Pointer) 1).exec (.initial w) acts).map fun s =>
        (s.posted, s.io)) =
      some ([⟨7, EPOLLIN ||| EPOLLRDHUP, some (.conn 0)⟩], [⟨0, 7, some (.conn 1)⟩]) := by
    decide +kernel
  obtain ⟨w, hw, hrun⟩ := Option.bind_eq_some_iff.mp hrun
  obtain ⟨s, hs, hval⟩ := Option.map_eq_some_iff.mp hrun
  obtain ⟨hposted, hio⟩ := Prod.mk.inj hval
  have hserves := hall s ⟨_, acts, ⟨.initial, 3, 4, 5, 6, w, hw, rfl⟩, LTS.run_of_exec hs⟩
  obtain ⟨r, hr, -, -, hfile⟩ := hserves.io ⟨0, 7, some (.conn 1)⟩ (by rw [hio]; simp)
  obtain rfl : _ = r := by simpa [hposted] using hr
  simp at hfile

end C10K
