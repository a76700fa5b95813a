import C10K.Calc.Hangups

/-!
# How the calculator stops

Here the workers close clients as well, while the accept thread registers others. The bit set
still has every connection, but for the one that is about to be registered and those that workers
are about to close. When `main` closes the endpoint no such worker is left, so it closes every
connection.
-/

namespace C10K

section Pool

variable {Q W ι : Type} {n : ℕ} {p p' : Pool Q W n ι} {i j : Fin n} {x : Plucked W}

/-- A worker that is in no job moves. -/
lemma Pool.running_setWorker {y y' : WorkerPc W} (hrun : p.worker i = .running x)
    (h : p.worker j = y) (hy : y ≠ .running x) : (p.setWorker j y').worker i = .running x := by
  have hne : i ≠ j := by
    rintro rfl
    exact hy (h.symm.trans hrun)
  rw [worker_setWorker, if_neg hne, hrun]

/-- A signal wakes no worker that is in a job. -/
lemma Pool.Wakes.running (h : p.Wakes p') (hrun : p.worker i = .running x) :
    p'.worker i = .running x := by
  cases h with
  | one k hk => exact running_setWorker hrun hk (by rintro ⟨⟩)
  | nobody => exact hrun

/-- A worker in a job stays there until it returns. -/
lemma Pool.running_step [FifoQueue Q W] [LawfulFifoQueue Q W] [DecidableEq ι] {a : PoolAct W n ι}
    (hstep : p.step a = some p') (hrun : p.worker i = .running x) (ha : a ≠ .jobReturn i) :
    p'.worker i = .running x := by
  cases PoolRule.of_step hstep with
  | read h hr =>
    refine running_setWorker hrun h ?_
    rintro rfl
    cases hr
  | acquire h hx =>
    refine running_setWorker hrun h ?_
    rintro rfl
    cases hx
  | release h hx =>
    refine running_setWorker hrun h ?_
    rintro rfl
    cases hx
  | nextFunction h | nextArgs h | call h => exact running_setWorker hrun h (by rintro ⟨⟩)
  | signal h hx hwake =>
    refine hwake.running (running_setWorker hrun h ?_)
    rintro rfl
    cases hx
  | @jobReturn j q h =>
    have hne : i ≠ j := by
      rintro rfl
      exact ha rfl
    exact (Pool.worker_setWorker ..).trans ((if_neg hne).trans hrun)
  | postSignal _ hwake => exact hwake.running hrun
  | joinSignal _ hwake => exact hwake.running hrun
  | spurious h => exact running_setWorker hrun h (by rintro ⟨⟩)
  | callPost | postAcquire | pushJob | pushArgs | postRelease | callJoin | joinTestSet
  | joinTestUnset | setStop | joinOne | joinAll => exact hrun

end Pool

variable {Q : Type} {n : ℕ} {fd : Fd} {base : Fd → Option File} {k : Kernel Fd}

/-- A step of the pool leaves a worker in `client_event` where it stands. -/
lemma Server.clientPc_poolStep [FifoQueue Q Pointer] {s s' : Server Q n}
    {a : PoolAct Pointer n Unit} (h : s.poolStep a = some s') {i : Fin n} {p : Plucked Pointer}
    (hrun : s.pool.worker i = .running p) : s'.clientPc i = s.clientPc i := by
  unfold Server.poolStep at h
  split at h
  · cases h
  · simp only [Option.ite_none_right_eq_some, bind, Option.bind_eq_some_iff, pure,
      Option.some.injEq] at h
    obtain ⟨-, pool, -, rfl⟩ := h
    rfl
  · simp only [Option.ite_none_right_eq_some, bind, Option.bind_eq_some_iff, pure,
      Option.some.injEq] at h
    obtain ⟨-, pool, -, rfl⟩ := h
    rfl
  · rename_i j
    obtain ⟨pool, hpool, h⟩ := Option.bind_eq_some_iff.mp h
    split at h
    · cases h
      have hne : i ≠ j := by
        rintro rfl
        simp [Pool.step, Pool.wProcess, hrun] at hpool
      exact Function.update_of_ne hne ..
    · cases h
      rfl
  · simp only [bind, Option.bind_eq_some_iff, pure, Option.some.injEq] at h
    obtain ⟨pool, -, rfl⟩ := h
    rfl

/-! ### What the threads hold -/

/-- The descriptor that a worker is about to disconnect. -/
def RequestPc.hand : RequestPc → Option Fd
  | .goodbye r => some r.fd
  | .deregister fd | .epollDel fd | .shutdown fd | .close fd => some fd
  | .outside | .answer _ => none

/-- The descriptor that a worker took out of the bit set. -/
def RequestPc.leaving : RequestPc → Option Fd
  | .epollDel fd | .shutdown fd | .close fd => some fd
  | .outside | .answer _ | .goodbye _ | .deregister _ => none

lemma Request.eq_of_hand_next {r : Request} (h : r.next.hand = some fd) : fd = r.fd := by
  unfold Request.next at h
  split_ifs at h
  · exact (Option.some.inj h).symm
  · cases h
  · cases h

namespace CalcServer

variable {s s' : CalcServer Q n}

lemma RequestRule.inside {i : Fin n} (h : s.RequestRule i s') : s.request i ≠ .outside := by
  cases h with
  | answer hpc | goodbye hpc | deregister hpc | epollDel hpc | shutdown hpc | close hpc =>
    rw [hpc]
    rintro ⟨⟩

lemma RequestRule.request_of_ne {i j : Fin n} (h : s.RequestRule i s') (hj : j ≠ i) :
    s'.request j = s.request j := by
  cases h with
  | _ => exact request_goTo.trans (if_neg hj)

/-- A worker in `calc_request` is in the job that called it. -/
def InCall (s : CalcServer Q n) : Prop :=
  ∀ i, s.request i ≠ .outside → (∃ p, s.pool.worker i = .running p) ∧ s.clientPc i ≠ .recv

/-- The bit set is about numbers of clients, and has those of the connections, but for one that the
accept thread is about to register and those that workers are about to close. -/
structure Listed (base : Fd → Option File) (s : CalcServer Q n) : Prop where
  size_le : s.world.endpoint.connectedClientsFds.size ≤ 2 ^ 58
  bits : ∀ i, s.world.endpoint.connectedClientsFds.bit i = true →
    ∃ fd, i = fdToWord fd ∧ base fd = none
  accepted : ∀ fd, s.world.Accepted fd →
    s.world.endpoint.connectedClientsFds.bit (fdToWord fd) = true ∨
      s.acceptPc = .register fd ∨ ∃ i, (s.request i).leaving = some fd

/-- What the threads hold, over a table without connections. -/
structure Holds (base : Fd → Option File) (s : CalcServer Q n) : Prop where
  clients : s.toServer.ClientsOver base
  hand : ∀ i fd, (s.request i).hand = some fd → base fd = none
  ledger : s.world.kernel.Ledger
  listed : s.Listed base

/-- No bit is changed and no descriptor is opened. -/
lemma Listed.frame (h : s.Listed base)
    (hfiles : ∀ fd, s'.world.Accepted fd → s.world.Accepted fd)
    (hbits : s'.world.endpoint.connectedClientsFds = s.world.endpoint.connectedClientsFds)
    (haccept : ∀ fd, s.acceptPc = .register fd → s'.acceptPc = .register fd)
    (hleaving : ∀ i fd, s'.world.Accepted fd → (s.request i).leaving = some fd →
      ∃ j, (s'.request j).leaving = some fd) : s'.Listed base where
  size_le := by
    rw [hbits]
    exact h.size_le
  bits := by
    rw [hbits]
    exact h.bits
  accepted fd hfd := by
    rw [hbits]
    rcases h.accepted fd (hfiles fd hfd) with hbit | hpc | ⟨i, hi⟩
    · exact .inl hbit
    · exact .inr (.inl (haccept fd hpc))
    · exact .inr (.inr (hleaving i fd hfd hi))

/-! ### The accept thread and the event thread -/

lemma Listed.server (h : s.Listed base) {server : Server Q n} (hrule : s.toServer.Rule server)
    (hnone : ClosesNone s.toServer) (hhand : ∀ fd, s.acceptPc.hand = some fd → base fd = none) :
    Listed base { s with toServer := server } := by
  cases hrule with
  | arrive | hangup | enqueue =>
    exact h.frame (fun _ => id) rfl (fun _ => id) fun i _ _ hi => ⟨i, hi⟩
  | listened hpc =>
    refine h.frame (fun _ => id) rfl ?_ fun i _ _ hi => ⟨i, hi⟩
    intro fd hregister
    rcases hpc with hpc | hpc
    · cases hpc.symm.trans hregister
    · cases hpc.symm.trans hregister
  | @accept fd kernel hpc hk =>
    obtain ⟨c, backlog, -, -, -, hfiles, -⟩ := Kernel.accept_spec hk
    refine ⟨h.size_le, h.bits, ?_⟩
    rintro fd' ⟨c', hc'⟩
    by_cases heq : fd' = fd
    · exact .inr (.inl (heq ▸ rfl))
    · rw [hfiles, Function.update_of_ne heq] at hc'
      rcases h.accepted fd' ⟨c', hc'⟩ with hbit | hregister | hleaving
      · exact .inl hbit
      · cases hpc.symm.trans hregister
      · exact .inr (.inr hleaving)
  | lost hpc hk =>
    obtain ⟨-, -, -, -, -, -, hfiles, -⟩ := Kernel.lose_spec hk
    refine h.frame ?_ rfl ?_ fun i _ _ hi => ⟨i, hi⟩
    · rintro fd' ⟨c, hc⟩
      exact ⟨c, (congrFun hfiles fd').symm.trans hc⟩
    · intro fd' hregister
      cases hpc.symm.trans hregister
  | acceptProc hrule =>
    have hcloses := hnone.closes
    cases hrule with
    | @register fd hpc =>
      refine ⟨size_boolsetSet_le h.size_le _ _, ?_, ?_⟩
      · intro i hi
        by_cases heq : i = fdToWord fd
        · exact ⟨fd, heq, hhand fd (by rw [hpc]; rfl)⟩
        · exact h.bits i (((bit_boolsetSet ..).trans (if_neg heq)).symm.trans hi)
      · intro fd' hfd'
        by_cases heq : fd' = fd
        · exact .inl ((bit_boolsetSet ..).trans (if_pos (heq ▸ rfl)))
        · rcases h.accepted fd' hfd' with hbit | hregister | hleaving
          · refine .inl (((bit_boolsetSet ..).trans (if_neg ?_)).trans hbit)
            exact fun hword => heq (fdToWord_injective hword)
          · cases hpc.symm.trans hregister
            exact absurd rfl heq
          · exact .inr (.inr hleaving)
    | epollAdd hpc =>
      refine h.frame ?_ rfl ?_ fun i _ _ hi => ⟨i, hi⟩
      · rintro fd' ⟨c, hc⟩
        exact ⟨c, (congrFun Kernel.files_epollAdd fd').symm.trans hc⟩
      · intro fd' hregister
        cases hpc.symm.trans hregister
    | test hpc | lockQueue hpc | empty hpc | unlockQueue hpc | pop hpc =>
      refine h.frame (fun _ => id) rfl ?_ fun i _ _ hi => ⟨i, hi⟩
      intro fd' hregister
      cases hpc.symm.trans hregister
    | deregister hpc | epollDel hpc | shutdown hpc | close hpc =>
      rw [hpc] at hcloses
      cases hcloses
  | other hworld _ haccept =>
    refine h.frame ?_ ?_ ?_ fun i _ _ hi => ⟨i, hi⟩
    · intro fd' hfd'
      rw [World.Accepted, hworld] at hfd'
      exact hfd'
    · rw [hworld]
    · intro fd' hregister
      exact haccept.trans hregister

/-! ### The workers -/

/-- What the other workers are about to close does not change. -/
lemma RequestRule.leaving {i : Fin n} (h : s.RequestRule i s')
    (hi : ∀ fd, s'.world.Accepted fd → (s.request i).leaving = some fd →
      (s'.request i).leaving = some fd) (j : Fin n) (fd : Fd) (hfd : s'.world.Accepted fd)
    (hj : (s.request j).leaving = some fd) : ∃ j, (s'.request j).leaving = some fd := by
  by_cases hji : j = i
  · exact ⟨i, hi fd hfd (hji ▸ hj)⟩
  · refine ⟨j, ?_⟩
    rw [h.request_of_ne hji]
    exact hj

lemma Listed.request (h : s.Listed base) {i : Fin n} (hrule : s.RequestRule i s') :
    s'.Listed base := by
  have hleaving := hrule.leaving
  cases hrule with
  | answer hpc | goodbye hpc =>
    refine h.frame (fun _ => id) rfl (fun _ => id) (hleaving ?_)
    intro fd _ hi
    rw [hpc] at hi
    cases hi
  | epollDel hpc | shutdown hpc =>
    refine h.frame (fun _ => id) rfl (fun _ => id) (hleaving ?_)
    intro fd _ hi
    rw [hpc] at hi
    exact (congrArg _ (request_goTo.trans (if_pos rfl))).trans hi
  | @close fd hpc =>
    have hclosed : ∀ fd', ((s.goTo i .outside).setKernel (s.world.kernel.close fd)).world.Accepted
        fd' → fd' ≠ fd ∧ s.world.Accepted fd' := by
      rintro fd' ⟨c, hc⟩
      have hc := (Kernel.files_close ..).symm.trans hc
      split_ifs at hc with hne
      exact ⟨hne, c, hc⟩
    refine h.frame (fun fd' hfd' => (hclosed fd' hfd').2) rfl (fun _ => id) (hleaving ?_)
    intro fd' hfd' hi
    rw [hpc] at hi
    exact absurd (Option.some.inj hi).symm (hclosed fd' hfd').1
  | @deregister fd hpc =>
    refine ⟨size_boolsetSet_le h.size_le _ _, ?_, ?_⟩
    · intro j hj
      have hj := (bit_boolsetSet ..).symm.trans hj
      split_ifs at hj with hfd
      · cases hj
      · exact h.bits j hj
    · intro fd' hfd'
      by_cases heq : fd' = fd
      · refine .inr (.inr ⟨i, ?_⟩)
        rw [heq]
        exact congrArg _ (request_goTo.trans (if_pos rfl))
      · rcases h.accepted fd' hfd' with hbit | hregister | ⟨j, hj⟩
        · refine .inl (((bit_boolsetSet ..).trans (if_neg ?_)).trans hbit)
          exact fun hword => heq (fdToWord_injective hword)
        · exact .inr (.inl hregister)
        · refine .inr (.inr (hleaving ?_ j fd' hfd' hj))
          intro fd'' _ hi
          rw [hpc] at hi
          cases hi

lemma RequestRule.clientsOver {i : Fin n} (hrule : s.RequestRule i s')
    (h : s.world.ClientsOver base) (hhand : ∀ fd, (s.request i).hand = some fd → base fd = none) :
    s'.world.ClientsOver base := by
  have hentry := hrule.entry
  cases hrule with
  | answer | goodbye => exact h
  | deregister | epollDel | shutdown => exact h.frame rfl hentry fun _ => id
  | close hpc => exact h.close (hhand _ (by rw [hpc]; rfl))

/-- A worker goes on with the descriptor that it has. -/
lemma RequestRule.hand {i : Fin n} (hrule : s.RequestRule i s')
    (hfd : (s'.request i).hand = some fd) : (s.request i).hand = some fd := by
  cases hrule with
  | answer hpc | close hpc =>
    have hfd := (congrArg RequestPc.hand (request_goTo.trans (if_pos rfl))).symm.trans hfd
    cases hfd
  | goodbye hpc | deregister hpc | epollDel hpc | shutdown hpc =>
    have hfd := (congrArg RequestPc.hand (request_goTo.trans (if_pos rfl))).symm.trans hfd
    rw [hpc]
    exact hfd

lemma RequestRule.ledger {i : Fin n} (hrule : s.RequestRule i s') (h : s.world.kernel.Ledger) :
    s'.world.kernel.Ledger := by
  cases hrule with
  | answer | goodbye | deregister => exact h
  | epollDel => exact h.epollDel
  | shutdown => exact h.shutdown _
  | close => exact h.close

lemma Holds.request (h : s.Holds base) {i : Fin n} (hrule : s.RequestRule i s') :
    s'.Holds base := by
  have hhand : ∀ j fd, (s'.request j).hand = some fd → base fd = none := by
    intro j fd hfd
    by_cases hj : j = i
    · exact h.hand i fd (hrule.hand (hj ▸ hfd))
    · rw [hrule.request_of_ne hj] at hfd
      exact h.hand j fd hfd
  have hworld := hrule.clientsOver h.clients.world (h.hand i)
  have hledger := hrule.ledger h.ledger
  have hlisted := h.listed.request hrule
  obtain ⟨world, request, replies, rfl⟩ := hrule.frame
  exact ⟨⟨hworld, h.clients.hand, h.clients.reported⟩, hhand, hledger, hlisted⟩

/-- A connection is a client. -/
lemma Holds.base_of_conn (h : s.Holds base) (hbase : ∀ fd c, base fd ≠ some (.conn c)) {c : ℕ}
    (hfd : s.world.kernel.files fd = some (.conn c)) : base fd = none := by
  rcases h.clients.world.files fd with heq | ⟨hnone, -⟩
  · exact absurd (heq.symm.trans hfd) (hbase fd c)
  · exact hnone

/-! ### The endpoint after the threads -/

/-- The members of the bit set are descriptors. -/
lemma Listed.exists_clients (h : s.Listed base) : ∃ clients : List Fd,
    s.world.endpoint.connectedClientsFds.members = clients.map fdToWord ∧
      ∀ fd, fd ∈ clients ↔ s.world.endpoint.connectedClientsFds.bit (fdToWord fd) = true := by
  have hwords : ∀ i ∈ s.world.endpoint.connectedClientsFds.members,
      fdToWord (wordToFd i) = i := by
    intro i hi
    obtain ⟨fd, rfl, -⟩ := h.bits i ((mem_members h.size_le).mp hi)
    rw [wordToFd_fdToWord]
  have hmap : s.world.endpoint.connectedClientsFds.members =
      (s.world.endpoint.connectedClientsFds.members.map wordToFd).map fdToWord := by
    rw [List.map_map]
    exact (List.map_congr_left hwords).trans (List.map_id _) |>.symm
  refine ⟨_, hmap, fun fd => ?_⟩
  rw [← mem_members h.size_le, hmap, List.mem_map_of_injective fdToWord_injective, ← hmap]

/-- Neither the process nor the endpoint has a connection at the start. -/
lemma table_ne_conn (hk : k.Fresh) (e : Endpoint) (fd : Fd) (c : ℕ) :
    e.table k.files fd ≠ some (.conn c) := by
  unfold Endpoint.table
  split_ifs
  · rintro ⟨⟩
  · rintro ⟨⟩
  · rintro ⟨⟩
  · rintro ⟨⟩
  · exact hk.not_conn

/-- The server in a process that started with kernel `k`. -/
structure Records (k : Kernel Fd) (s : CalcServer Q n) : Prop where
  unused : ∀ fd ∈ s.world.endpoint.closeOrder [], k.files fd = none
  holds : s.Holds (s.world.endpoint.table k.files)
  none : ClosesNone s.toServer
  call : s.InCall
  joins : s.toServer.Joins

/-- The endpoint of a server whose threads have returned is closed: the table is the one that the
process started with. -/
lemma Records.endpointClose (h : s.Records k) (haccept : s.acceptPc = .returned)
    (hexited : ∀ i, s.pool.worker i = .exited) :
    ∃ kernel, C10K.endpointClose s.world = some (kernel, []) ∧ kernel.Ledger ∧
      kernel.files = k.files := by
  have houtside : ∀ i, s.request i = .outside := by
    intro i
    by_contra hne
    obtain ⟨⟨p, hrun⟩, -⟩ := h.call i hne
    cases (hexited i).symm.trans hrun
  have hbit : ∀ fd, s.world.Accepted fd →
      s.world.endpoint.connectedClientsFds.bit (fdToWord fd) = true := by
    intro fd hfd
    rcases h.holds.listed.accepted fd hfd with hbit | hregister | ⟨i, hi⟩
    · exact hbit
    · cases haccept.symm.trans hregister
    · rw [houtside i] at hi
      cases hi
  obtain ⟨clients, hmembers, hclients⟩ := h.holds.listed.exists_clients
  obtain ⟨kernel, hclose, hL, hfiles⟩ :=
    endpointClose_spec h.holds.listed.size_le hmembers h.holds.ledger
  refine ⟨kernel, hclose, hL, funext fun fd => ?_⟩
  rw [hfiles]
  have hmem : fd ∈ s.world.endpoint.closeOrder clients ↔
      fd ∈ s.world.endpoint.closeOrder [] ∨ fd ∈ clients := by
    simp only [Endpoint.closeOrder, List.mem_cons, List.mem_append, List.nil_append]
    tauto
  by_cases hfd : fd ∈ s.world.endpoint.closeOrder clients
  · rw [if_pos hfd, eq_comm]
    rcases hmem.mp hfd with hown | hclient
    · exact h.unused fd hown
    · obtain ⟨fd', hword, hnone⟩ := h.holds.listed.bits _ ((hclients fd).mp hclient)
      rw [fdToWord_injective hword]
      exact (Endpoint.of_table_eq_none hnone).2
  · rw [if_neg hfd]
    rw [hmem, not_or] at hfd
    have htable : s.world.endpoint.table k.files fd = k.files fd := Endpoint.table_of_not_mem hfd.1
    rcases h.holds.clients.world.files fd with heq | ⟨-, hclient⟩
    · exact heq.trans htable
    · exact absurd ((hclients fd).mpr (hbit fd hclient)) hfd.2

/-! ### Every step -/

variable [FifoQueue Q Pointer]

/-- Every step keeps what the threads hold. -/
theorem Holds.step (h : s.Holds base) (hbase : ∀ fd c, base fd ≠ some (.conn c))
    (hnone : ClosesNone s.toServer) (hcall : s.InCall) (hrule : s.Rule s') : s'.Holds base := by
  cases hrule with
  | server hstep =>
    have hserver := Server.Rule.of_step hstep
    exact ⟨h.clients.step hserver, h.hand, Server.ledger_step h.ledger hserver,
      h.listed.server hserver hnone h.clients.hand⟩
  | @test count acceptPc hpc hnext =>
    have hhand : acceptPc.hand = none := by
      rcases hnext with rfl | rfl
      · rfl
      · rfl
    refine ⟨h.clients.acceptFrame h.clients.world ?_, h.hand, h.ledger, ?_⟩
    · intro fd hfd
      cases hhand.symm.trans hfd
    · refine h.listed.frame (fun _ => id) rfl ?_ fun j _ _ hj => ⟨j, hj⟩
      intro fd hregister
      cases hpc.symm.trans hregister
  | recvNothing =>
    exact ⟨⟨h.clients.world, h.clients.hand, h.clients.reported⟩, h.hand, h.ledger,
      h.listed.frame (fun _ => id) rfl (fun _ => id) fun j _ _ hj => ⟨j, hj⟩⟩
  | @recv i p args r c hpc hworker hargs hticket hfd hfile hconn =>
    have houtside : s.request i = .outside := by
      by_contra hne
      exact (hcall i hne).2 hpc
    refine ⟨⟨h.clients.world, h.clients.hand, h.clients.reported⟩, ?_, h.ledger, ?_⟩
    · intro j fd hhand
      change ((s.goTo i r.next).request j).hand = some fd at hhand
      rw [request_goTo] at hhand
      split_ifs at hhand
      · rw [Request.eq_of_hand_next hhand]
        exact h.base_of_conn hbase (hfile.symm.trans hconn)
      · exact h.hand j fd hhand
    · refine h.listed.frame (fun _ => id) rfl (fun _ => id) ?_
      intro j fd _ hj
      have hji : j ≠ i := by
        rintro rfl
        rw [houtside] at hj
        cases hj
      refine ⟨j, ?_⟩
      change ((s.goTo i r.next).request j).leaving = some fd
      rw [request_goTo, if_neg hji]
      exact hj
  | request hrequest => exact h.request hrequest

/-- No step changes the descriptors of the endpoint. -/
lemma endpoint_step (hrule : s.Rule s') : ∃ connectedClientsFds disconnectQueue,
    s'.world.endpoint = { s.world.endpoint with connectedClientsFds, disconnectQueue } := by
  cases hrule with
  | server hstep => exact Server.endpoint_step (Server.Rule.of_step hstep)
  | request hrequest =>
    cases hrequest with
    | _ => exact ⟨_, _, rfl⟩
  | _ => exact ⟨_, _, rfl⟩

lemma Records.initial {srvFd epListener epSelector shutdownFd : Fd} {w : World} (hk : k.Fresh)
    (h : endpointCreate k srvFd epListener epSelector shutdownFd = some w) :
    (initial w : CalcServer Q n).Records k := by
  have hserver : (Server.initial w : Server Q n).Records k := Server.Records.initial hk h
  have hI : w.Registry := World.Registry.create (fun fd c => hk.not_conn) h
  have hnone : ∀ fd, ¬ w.Accepted fd := fun fd =>
    World.not_accepted_create (fun fd c => hk.not_conn) h
  constructor
  · exact hserver.unused
  · refine ⟨⟨hserver.clients.world, ?_, ?_⟩, ?_, hserver.ledger, ⟨hI.size_le, ?_, ?_⟩⟩
    · intro fd hfd
      cases hfd
    · intro hpc
      cases hpc
    · intro i fd hfd
      cases hfd
    · intro i hi
      obtain ⟨fd, rfl⟩ := hI.range i hi
      exact absurd ((hI.recorded fd).bit.mp hi) (hnone fd)
    · intro fd hfd
      exact absurd hfd (hnone fd)
  · exact ClosesNone.initial h
  · intro i hi
    exact absurd rfl hi
  · intro hjoin
    exact absurd rfl hjoin

lemma Rule.returned (hrule : s.Rule s') : s'.returned = s.returned := by
  cases hrule with
  | request hrequest =>
    obtain ⟨world, request, replies, rfl⟩ := hrequest.frame
    rfl
  | _ => rfl

/-- `main` returned from a state in which the pool was joined, by closing the endpoint. -/
lemma exists_endpointClose (h : (calcServerSystem Q n k).Reachable s)
    (hreturned : s.returned = true) :
    ∃ t : CalcServer Q n, (calcServerSystem Q n k).Reachable t ∧ t.returned = false ∧
      t.pool.join = .returned ∧ ∃ kernel disconnectQueue,
        endpointClose t.world = some (kernel, disconnectQueue) ∧ s = { t with
          world := ⟨kernel, { t.world.endpoint with disconnectQueue }⟩
          returned := true } := by
  obtain ⟨s₀, as, hinit, hrun⟩ := h
  cases hrun with
  | nil =>
    obtain ⟨-, srvFd, epListener, epSelector, shutdownFd, w, -, rfl⟩ := hinit
    cases hreturned
  | @snoc t _ as a hrun hstep =>
    have hstep : t.step a = some s := hstep
    cases a with
    | server a =>
      simp only [step] at hstep
      split_ifs at hstep with ht
      simp only [bind, Option.bind_eq_some_iff, pure, Option.some.injEq] at hstep
      obtain ⟨server, -, rfl⟩ := hstep
      exact absurd hreturned ht
    | recv i received =>
      simp only [step] at hstep
      split_ifs at hstep with ht
      exact absurd ((rule_of_recv hstep).returned.symm.trans hreturned) ht
    | calcRequest i =>
      simp only [step] at hstep
      split_ifs at hstep with ht
      have hrule : t.Rule s := .request (RequestRule.of_calcRequest hstep)
      exact absurd (hrule.returned.symm.trans hreturned) ht
    | endpointClose =>
      simp only [step, Option.ite_none_right_eq_some, bind, Option.bind_eq_some_iff, pure,
        Option.some.injEq, Prod.exists] at hstep
      obtain ⟨⟨hjoin, ht⟩, kernel, queue, hclose, rfl⟩ := hstep
      exact ⟨t, ⟨s₀, as, hinit, hrun⟩, ht, hjoin, kernel, queue, hclose, rfl⟩

variable [LawfulFifoQueue Q Pointer]

theorem InCall.step (h : s.InCall) (hrule : s.Rule s') : s'.InCall := by
  cases hrule with
  | @server a server hstep hrecv hsend _ hreturn =>
    intro i hi
    obtain ⟨⟨p, hrun⟩, hpc⟩ := h i hi
    cases Server.Turn.of_step hstep with
    | recv => exact absurd rfl (hrecv _ _)
    | send => exact absurd rfl (hsend _)
    | @pool a pool clientPc hpool =>
      have ha : a ≠ .jobReturn i := by
        rintro rfl
        exact hi (hreturn i rfl)
      refine ⟨⟨p, Pool.running_step hpool hrun ha⟩, ?_⟩
      rw [Server.clientPc_poolStep hstep hrun]
      exact hpc
    | clientEventProcessor heffect =>
      cases heffect with
      | callPost _ hpool =>
        exact ⟨⟨p, Pool.running_step hpool hrun (by rintro ⟨⟩)⟩, hpc⟩
      | enqueue | test | posting => exact ⟨⟨p, hrun⟩, hpc⟩
    | acceptProc hrule =>
      cases hrule with
      | _ => exact ⟨⟨p, hrun⟩, hpc⟩
    | arrive | setStop | acceptWait | accept | eventWait => exact ⟨⟨p, hrun⟩, hpc⟩
  | test => exact h
  | @recvNothing i =>
    intro j hj
    obtain ⟨hrun, hpc⟩ := h j hj
    refine ⟨hrun, ?_⟩
    simp only [Function.update_apply]
    split_ifs
    · rintro ⟨⟩
    · exact hpc
  | @recv i p args r c hpc hworker =>
    intro j hj
    simp only [Function.update_apply]
    by_cases hji : j = i
    · rw [if_pos hji]
      exact ⟨⟨p, hji ▸ hworker⟩, by rintro ⟨⟩⟩
    · rw [if_neg hji]
      have hbefore : s.request j ≠ .outside := by
        have heq : (s.goTo i r.next).request j = s.request j := request_goTo.trans (if_neg hji)
        rw [← heq]
        exact hj
      exact h j hbefore
  | @request i _ hrequest =>
    intro j hj
    have hbefore : s.request j ≠ .outside := by
      by_cases hji : j = i
      · rw [hji]
        exact hrequest.inside
      · rw [← hrequest.request_of_ne hji]
        exact hj
    obtain ⟨world, request, replies, rfl⟩ := hrequest.frame
    exact h j hbefore

lemma joins_step (h : s.toServer.Joins) (hrule : s.Rule s') : s'.toServer.Joins := by
  cases hrule with
  | server hstep => exact h.step (Server.Turn.of_step hstep)
  | test hpc =>
    intro hjoin
    cases hpc.symm.trans (h hjoin).1
  | recvNothing | recv => exact fun hjoin => h hjoin
  | request hrequest =>
    obtain ⟨world, request, replies, rfl⟩ := hrequest.frame
    exact fun hjoin => h hjoin

theorem Records.step (h : s.Records k) (hk : k.Fresh) (hrule : s.Rule s') : s'.Records k := by
  obtain ⟨clients, queue, hendpoint⟩ := endpoint_step hrule
  constructor
  · rw [hendpoint]
    exact h.unused
  · rw [hendpoint]
    exact h.holds.step (table_ne_conn hk _) h.none h.call hrule
  · exact h.none.step hrule
  · exact h.call.step hrule
  · exact joins_step h.joins hrule

lemma records_of_reachable (h : (calcServerSystem Q n k).Reachable s)
    (hrun : s.returned = false) : s.Records k := by
  obtain ⟨_, _, ⟨hk, -⟩, -⟩ := id h
  apply reachable_induct (P := Records k) h hrun
  · intro hk srvFd epListener epSelector shutdownFd w hw
    exact Records.initial hk hw
  · intro s s' _ _ hR hrule
    exact hR.step hk hrule

end CalcServer

variable [FifoQueue Q Pointer] [LawfulFifoQueue Q Pointer]

/-- When `main` of the calculator returns, however the run went, and whatever descriptors workers
closed while others used them: the process has the descriptors that it started with and no other,
every connection that was ever accepted was closed exactly once, nothing is queued for
disconnection, both threads returned and every worker left, and every job that a worker took was
called once and returned once. -/
theorem calc_server_exits_clean {s : CalcServer Q n} (h : (calcServerSystem Q n k).Reachable s)
    (hreturned : s.returned = true) :
    s.world.kernel.files = k.files ∧
      (∀ c, s.world.kernel.Seen c → s.world.kernel.closedConns.count c = 1) ∧
      s.world.endpoint.disconnectQueue = [] ∧ s.acceptPc = .returned ∧ s.eventPc = .returned ∧
      (∀ i, s.pool.worker i = .exited) ∧ ∀ t < s.pool.hist.plucked.length, s.pool.RanOnce t := by
  obtain ⟨_, _, ⟨hk, -⟩, -⟩ := id h
  obtain ⟨t, ht, hrun, hjoin, kernel, queue, hclose, rfl⟩ :=
    CalcServer.exists_endpointClose h hreturned
  have hR := CalcServer.records_of_reachable ht hrun
  obtain ⟨haccept, hevent⟩ := hR.joins (by rw [hjoin]; exact nofun)
  obtain ⟨hpool, -⟩ := CalcServer.pool_of_reachable ht hrun
  have hexited : ∀ i, t.pool.worker i = .exited := by
    have hinv := hpool.join
    rw [Pool.JoinInv, hjoin] at hinv
    exact hinv.2
  obtain ⟨_, hkernel, hL, hfiles⟩ := hR.endpointClose haccept hexited
  cases hclose.symm.trans hkernel
  refine ⟨hfiles, ?_, rfl, haccept, hevent, hexited, fun _ => hpool.ranOnce hexited⟩
  intro c hc
  rcases hL.accounted c hc with ⟨fd, hfd⟩ | hclosed
  · exact absurd (hfiles ▸ hfd) hk.not_conn
  · exact List.count_eq_one_of_mem hL.nodup hclosed

/-- A worker closed a client whose message was too long, and the next one hung up, and only
`endpoint_close` closes it. -/
theorem calc_server_exits_clean_hangup : ∃ s : CalcServer (RingQueue Pointer) 1,
    s.returned = true ∧ s.world.kernel.closed.take 3 =
        [(7, some (.conn 0)), (3, some .listener), (8, some (.conn 1))] ∧
      s.world.kernel.files = (fun _ => none) ∧ s.world.kernel.Seen 0 ∧
      s.world.kernel.closedConns.count 0 = 1 ∧ s.world.kernel.Seen 1 ∧
      s.world.kernel.closedConns.count 1 = 1 := by
  let closes : List (CalcServerAct 1) := .recv 0 (some (List.replicate 127 99)) ::
    List.replicate 5 (.calcRequest 0)
  let next : List (ServerAct 1) :=
    [.pool (.jobReturn 0), .arrive, .acceptProc, .acceptWait EPOLLIN, .accept 0 (some 8),
      .acceptProc, .acceptProc, .clientEventProcessor, .eventWait (.event 8 EPOLLRDHUP)]
  let stops : List (ServerAct 1) :=
    [.clientEventProcessor, .setStop, .clientEventProcessor, .acceptProc, .pool .callJoin,
      .pool .join, .pool .join, .pool (.joinSignal none), .pool (.work 0), .pool (.work 0),
      .pool .join, .pool .join]
  obtain ⟨s, hs, hreturned, harrived, hunopened, hclosings⟩ := CalcServer.reachable_of_exec
    (Q := RingQueue Pointer) (n := 1) (P := fun s => s.returned = true ∧
      s.world.kernel.arrived = 2 ∧ s.world.kernel.backlog ++ s.world.kernel.lost = [] ∧
      s.world.kernel.closed.take 3 =
        [(7, some (.conn 0)), (3, some .listener), (8, some (.conn 1))])
    (CalcServer.serveFirst 0 EPOLLIN ++ closes ++ (next ++ stops).map .server ++ [.endpointClose])
    (by decide +kernel)
  have hseen : ∀ c < 2, s.world.kernel.Seen c := by
    intro c hc
    constructor
    · rw [harrived]
      exact hc
    · rw [hunopened]
      exact List.not_mem_nil
  have h0 : s.world.kernel.Seen 0 := hseen 0 (by decide)
  have h1 : s.world.kernel.Seen 1 := hseen 1 (by decide)
  obtain ⟨hfiles, hclosed, -⟩ := calc_server_exits_clean hs hreturned
  exact ⟨s, hreturned, hclosings, hfiles, h0, hclosed 0 h0, h1, hclosed 1 h1⟩

end C10K
