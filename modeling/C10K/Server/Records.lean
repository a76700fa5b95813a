import C10K.Endpoint.Watching
import C10K.Server.Rule

/-!
# The records of the clients while the threads run

Only the accept thread registers and disconnects clients, one descriptor at a time. So the three
records agree on every other descriptor, and on all of them once it is done with the one in its
hand: the settled endpoint is one that complete calls could have left.
-/

namespace C10K

variable {Q : Type} {n : ℕ} {fd : Fd} {base : Fd → Option File}

/-! ### What the threads hold -/

/-- Beyond the table `base` there are clients only, and only they can report a hang-up or be
queued. No entry has `EPOLLONESHOT`. -/
structure World.ClientsOver (base : Fd → Option File) (w : World) : Prop where
  files : ∀ fd, w.kernel.files fd = base fd ∨ base fd = none ∧ w.Accepted fd
  entry : ∀ fd e, w.kernel.interest w.endpoint.epSelector fd = some e →
    e.data = fd ∧ e.events &&& EPOLLONESHOT = 0 ∧ (e.events &&& EPOLLRDHUP = 0 ∨ base fd = none)
  queued : ∀ v ∈ w.endpoint.disconnectQueue, base (wordToFd v) = none

namespace World.ClientsOver

variable {w w' : World}

lemma base_eq_none (h : w.ClientsOver base) (hfd : w.kernel.files fd = none) : base fd = none := by
  rcases h.files fd with heq | ⟨hnone, -⟩
  · exact heq.symm.trans hfd
  · exact hnone

lemma loose (h : w.ClientsOver base) (hfd : base fd = none) : w.Loose fd := by
  rcases h.files fd with heq | ⟨-, haccepted⟩
  · exact loose_of_none (heq.trans hfd)
  · exact haccepted.loose

/-- The descriptors of the table keep their meaning. -/
lemma files_eq (h : w.ClientsOver base) (hfd : base fd ≠ none) : w.kernel.files fd = base fd :=
  (h.files fd).resolve_right fun hnone => hfd hnone.1

/-- No descriptor is opened or closed, and no entry is added. -/
lemma frame (h : w.ClientsOver base) (hfiles : w'.kernel.files = w.kernel.files)
    (hentry : ∀ fd e, w'.kernel.interest w'.endpoint.epSelector fd = some e →
      w.kernel.interest w.endpoint.epSelector fd = some e)
    (hqueue : ∀ v ∈ w'.endpoint.disconnectQueue, v ∈ w.endpoint.disconnectQueue) :
    w'.ClientsOver base where
  files fd := by
    rw [Accepted, hfiles]
    exact h.files fd
  entry fd e he := h.entry fd e (hentry fd e he)
  queued v hv := h.queued v (hqueue v hv)

lemma accept (h : w.ClientsOver base) {srv : Fd} {kernel : Kernel Fd}
    (hk : w.kernel.accept srv fd = some kernel) : ClientsOver base { w with kernel } := by
  obtain ⟨c, backlog, -, hnone, -, hfiles, hinterest⟩ := Kernel.accept_spec hk
  constructor
  · intro fd'
    by_cases heq : fd' = fd
    · refine .inr ⟨heq ▸ h.base_eq_none hnone, c, ?_⟩
      rw [hfiles, heq, Function.update_self]
    · rw [Accepted, hfiles, Function.update_of_ne heq]
      exact h.files fd'
  · intro fd' e he
    exact h.entry fd' e (hinterest ▸ he)
  · exact h.queued

/-- A connection is lost, which was no client. -/
lemma lose (h : w.ClientsOver base) {srv : Fd} {kernel : Kernel Fd}
    (hk : w.kernel.lose srv fd = some kernel) : ClientsOver base { w with kernel } := by
  obtain ⟨c, backlog, -, -, -, -, hfiles, hinterest⟩ := Kernel.lose_spec hk
  exact h.frame hfiles (fun fd e he => hinterest ▸ he) fun _ => id

/-- A client is listed. -/
lemma epollAdd (h : w.ClientsOver base) (hfd : base fd = none) : ClientsOver base { w with
    kernel := w.kernel.epollAdd w.endpoint.epSelector fd (clientEntry fd) } where
  files fd' := by
    rw [Accepted, Kernel.files_epollAdd]
    exact h.files fd'
  entry fd' e he := by
    rcases Kernel.entry_epollAdd he with ⟨rfl, rfl⟩ | he
    · exact ⟨rfl, oneshot_clientEntry, .inr hfd⟩
    · exact h.entry fd' e he
  queued := h.queued

/-- A client is closed. -/
lemma close (h : w.ClientsOver base) (hfd : base fd = none) :
    ClientsOver base { w with kernel := w.kernel.close fd } where
  files fd' := by
    rw [Accepted, Kernel.files_close]
    split_ifs with heq
    · exact .inl (heq ▸ hfd.symm)
    · exact h.files fd'
  entry fd' e he := by
    rw [Kernel.interest_close] at he
    split_ifs at he
    exact h.entry fd' e he
  queued := h.queued

end World.ClientsOver

namespace Server

variable {s s' : Server Q n}

/-- The accept thread has clients in its hand, and the event thread enqueues clients. -/
structure ClientsOver (base : Fd → Option File) (s : Server Q n) : Prop where
  world : s.world.ClientsOver base
  hand : ∀ fd, s.acceptPc.hand = some fd → base fd = none
  reported : s.eventPc = .enqueue → base s.report.client = none

/-- The accept thread moves on with the client that it has. -/
lemma ClientsOver.acceptFrame (h : s.ClientsOver base) {world : World} {queueLocked : Bool}
    {acceptPc : AcceptPc} (hworld : world.ClientsOver base)
    (hhand : ∀ fd, acceptPc.hand = some fd → base fd = none) :
    ClientsOver base { s with world, queueLocked, acceptPc } := ⟨hworld, hhand, h.reported⟩

lemma ClientsOver.acceptProc (h : s.ClientsOver base) (hrule : s.AcceptRule s') :
    s'.ClientsOver base := by
  have hhand : ∀ {fd}, s.acceptPc.hand = some fd → ∀ fd', some fd = some fd' → base fd' = none := by
    rintro fd hfd _ ⟨⟩
    exact h.hand fd hfd
  cases hrule with
  | register hpc | deregister hpc =>
    refine h.acceptFrame ?_ (hhand (by rw [hpc]; rfl))
    exact h.world.frame rfl (fun _ _ => id) fun _ => id
  | epollAdd hpc => exact h.acceptFrame (h.world.epollAdd (h.hand _ (by rw [hpc]; rfl))) nofun
  | test hpc =>
    refine h.acceptFrame h.world ?_
    intro fd hfd
    split_ifs at hfd
    · cases hfd
    · cases hfd
  | lockQueue | empty | unlockQueue => exact h.acceptFrame h.world nofun
  | pop hpc hqueue =>
    refine h.acceptFrame (h.world.frame rfl (fun _ _ => id) ?_) ?_
    · intro v hv
      rw [hqueue]
      exact List.mem_cons_of_mem _ hv
    · rintro _ ⟨⟩
      exact h.world.queued _ (hqueue ▸ List.mem_cons_self)
  | epollDel hpc =>
    refine h.acceptFrame (h.world.frame rfl ?_ fun _ => id) (hhand (by rw [hpc]; rfl))
    intro fd e he
    have he := Kernel.interest_epollDel.symm.trans he
    split_ifs at he
    exact he
  | shutdown hpc =>
    refine h.acceptFrame ?_ (hhand (by rw [hpc]; rfl))
    exact h.world.frame rfl (fun _ _ => id) fun _ => id
  | close hpc => exact h.acceptFrame (h.world.close (h.hand _ (by rw [hpc]; rfl))) nofun

/-- Every step keeps what the threads hold. -/
theorem ClientsOver.step (h : s.ClientsOver base) (hrule : s.Rule s') : s'.ClientsOver base := by
  cases hrule with
  | arrive => exact ⟨h.world.frame rfl (fun _ _ => id) fun _ => id, h.hand, h.reported⟩
  | listened _ hhand =>
    refine h.acceptFrame h.world ?_
    intro fd hfd
    rw [hhand] at hfd
    cases hfd
  | accept hpc hk =>
    refine h.acceptFrame (h.world.accept hk) ?_
    rintro _ ⟨⟩
    obtain ⟨-, -, -, hnone, -⟩ := Kernel.accept_spec hk
    exact h.world.base_eq_none hnone
  | lost hpc hk => exact h.acceptFrame (h.world.lose hk) nofun
  | acceptProc hrule => exact h.acceptProc hrule
  | hangup he hclient hrdhup hwatched =>
    refine ⟨h.world, h.hand, fun _ => ?_⟩
    obtain ⟨hdata, -, hevents | hnone⟩ := h.world.entry _ _ he
    · exact absurd (not_reported hwatched hevents) hrdhup
    · rw [hclient, hdata]
      exact hnone
  | enqueue hpc =>
    refine ⟨⟨h.world.files, h.world.entry, ?_⟩, h.hand, nofun⟩
    intro v hv
    rcases List.mem_cons.mp hv with rfl | hv
    · rw [wordToFd_fdToWord]
      exact h.reported hpc
    · exact h.world.queued v hv
  | other hworld _ haccept hevent =>
    constructor
    · rw [hworld]
      exact h.world
    · rw [haccept]
      exact h.hand
    · intro hpc
      obtain ⟨hpc, hreport⟩ := hevent hpc
      rw [hreport]
      exact h.reported hpc

end Server

/-! ### The settled endpoint -/

lemma Kernel.arrive_epollAdd {k : Kernel Fd} {ep : Fd} {e : EpollEvent Fd} :
    (k.epollAdd ep fd e).arrive = k.arrive.epollAdd ep fd e := by
  unfold Kernel.epollAdd
  by_cases h : k.files ep = some .epoll ∧ k.files fd ≠ none ∧ k.interest ep fd = none ∧ e.Addable
  · rw [dif_pos h, dif_pos (by exact h)]
    rfl
  · rw [dif_neg h, dif_neg (by exact h)]

/-- `endpoint_accept` keeps the listener open. -/
lemma World.ListenerOpen.acceptClient {w w' : World} {eventsFlags : BitVec 32}
    (hopen : w.ListenerOpen) (hI : w.Registry) (h : acceptClient w eventsFlags fd = some w') :
    w'.ListenerOpen := by
  obtain ⟨hnone, hendpoint, ⟨c, -, hfiles⟩, -⟩ := acceptClient_spec hI h
  have hne : w.endpoint.epListener ≠ fd := (loose_of_none hnone).ne hopen.listener rfl
  constructor
  · rw [hendpoint, hfiles, Function.update_of_ne hne, hopen.listener]
  · rw [hendpoint]
    exact hopen.ne

lemma World.ListenerOpen.lose {w : World} {kernel : Kernel Fd} (hopen : w.ListenerOpen)
    (h : w.kernel.lose w.endpoint.srvFd fd = some kernel) :
    ListenerOpen { w with kernel } := by
  obtain ⟨-, -, -, -, -, -, hfiles, -⟩ := Kernel.lose_spec h
  exact ⟨(congrFun hfiles _).trans hopen.listener, hopen.ne⟩

namespace Server

variable {s s' : Server Q n}

lemma settled_congr (hworld : s'.world = s.world) (haccept : s'.acceptPc = s.acceptPc) :
    s'.settled = s.settled := by
  unfold settled
  rw [hworld, haccept]

lemma settled_arrive :
    settled { s with world := { s.world with kernel := s.world.kernel.arrive } } =
    { s.settled with kernel := s.settled.kernel.arrive } := by
  unfold settled
  cases s.acceptPc with
  | register fd =>
    let w := endpointRegisterClient s.world fd
    exact congrArg (World.mk · w.endpoint) Kernel.arrive_epollAdd.symm
  | epollAdd fd => exact congrArg (World.mk · s.world.endpoint) Kernel.arrive_epollAdd.symm
  | _ => rfl

/-- The endpoint that the accept thread works towards is one that complete calls could leave. -/
structure Settles (s : Server Q n) : Prop where
  registry : s.settled.Registry
  watched : s.settled.Watched
  listenerOpen : s.settled.ListenerOpen

lemma Settles.congr (h : s.Settles) (heq : s'.settled = s.settled) : s'.Settles := by
  constructor
  · rw [heq]
    exact h.registry
  · rw [heq]
    exact h.watched
  · rw [heq]
    exact h.listenerOpen

/-- Without a descriptor in the hand of the accept thread, the endpoint is settled. -/
lemma Settles.world (h : s.Settles) (hhand : s.acceptPc.hand = none) :
    s.world.Registry ∧ s.world.Watched ∧ s.world.ListenerOpen := by
  have hsettled : s.settled = s.world := settled_of_hand hhand
  rw [← hsettled]
  exact ⟨h.registry, h.watched, h.listenerOpen⟩

lemma loose_settled (h : s.world.Loose fd) : s.settled.Loose fd := fun file hfile =>
  h file (files_settled_le hfile)

theorem Settles.step (h : s.Settles) (hbase : s.ClientsOver base) (hrule : s.Rule s') :
    s'.Settles := by
  cases hrule with
  | arrive =>
    constructor
    · rw [settled_arrive]
      exact h.registry.congr rfl (fun _ _ e he => ⟨e, he, rfl, id⟩) rfl
    · rw [settled_arrive]
      exact h.watched.congr rfl rfl rfl
    · rw [settled_arrive]
      exact ⟨h.listenerOpen.listener, h.listenerOpen.ne⟩
  | listened hpc hhand =>
    apply h.congr
    rw [settled_of_hand (s := s), settled_of_hand]
    · exact hhand
    · rcases hpc with hpc | hpc
      · rw [hpc]
        rfl
      · rw [hpc]
        rfl
  | @accept fd kernel hpc hk =>
    obtain ⟨hworld, hwatched, hopen⟩ := h.world (by rw [hpc]; rfl)
    have hclient : acceptClient s.world clientFlags fd = some (settled { s with
        world := { s.world with kernel }
        acceptPc := .register fd }) := Option.bind_eq_some_iff.mpr ⟨kernel, hk, rfl⟩
    exact ⟨hworld.acceptClient hclient, hwatched.acceptClient hworld rfl hclient,
      hopen.acceptClient hworld hclient⟩
  | lost hpc hk =>
    obtain ⟨hworld, hwatched, hopen⟩ := h.world (by rw [hpc]; rfl)
    exact ⟨hworld.lose hk, hwatched.lose hk, hopen.lose hk⟩
  | acceptProc hrule =>
    rcases hrule.settled with heq | ⟨val, queue, hqueue, heq⟩
    · exact h.congr heq
    · obtain ⟨hpop, hloose⟩ := h.registry.pop hqueue
      have hwatched : (s.settled.setQueue queue).Watched := h.watched.congr rfl rfl rfl
      have hopen : (s.settled.setQueue queue).ListenerOpen :=
        ⟨h.listenerOpen.listener, h.listenerOpen.ne⟩
      constructor
      · rw [heq]
        exact hpop.disconnectClient hloose
      · rw [heq]
        exact hwatched.disconnectClient hpop hloose
      · rw [heq]
        exact hopen.disconnectClient hloose
  | hangup => exact h.congr (settled_congr rfl rfl)
  | enqueue hpc =>
    have hqueue : s.settled.endpoint.disconnectQueue = s.world.endpoint.disconnectQueue := by
      rw [endpoint_settled]
    have heq : settled { s with
        world := endpointEnqueueClientForDisconnection s.world s.report.client
        eventPc := .test 1 } = s.settled.setQueue (fdToWord s.report.client ::
          s.world.endpoint.disconnectQueue) := settled_setQueue _
    constructor
    · rw [heq]
      apply h.registry.setQueue
      intro v hv
      rcases List.mem_cons.mp hv with rfl | hv
      · rw [wordToFd_fdToWord]
        exact loose_settled (hbase.world.loose (hbase.reported hpc))
      · exact h.registry.queued v (hqueue ▸ hv)
    · rw [heq]
      exact h.watched.congr rfl rfl rfl
    · rw [heq]
      exact ⟨h.listenerOpen.listener, h.listenerOpen.ne⟩
  | other hworld _ haccept => exact h.congr (settled_congr hworld haccept)

/-! ### The queue lock and the ledger -/

/-- The accept thread has the queue lock where it uses the queue, and gives it back when the queue
is empty. -/
structure QueueLock (s : Server Q n) : Prop where
  locked : s.queueLocked = s.acceptPc.holdsQueue
  empty : s.acceptPc = .unlockQueue → s.world.endpoint.disconnectQueue = []

lemma QueueLock.step (h : s.QueueLock) (hrule : s.Rule s') : s'.QueueLock := by
  cases hrule with
  | arrive => exact ⟨h.locked, h.empty⟩
  | listened hpc hhand hholds =>
    have hfree : s.queueLocked = false := by
      rcases hpc with hpc | hpc
      · rw [h.locked, hpc]
        rfl
      · rw [h.locked, hpc]
        rfl
    refine ⟨hfree.trans hholds.symm, ?_⟩
    rintro rfl
    cases hholds
  | accept hpc =>
    refine ⟨?_, nofun⟩
    rw [show s.queueLocked = _ from h.locked, hpc]
    rfl
  | lost hpc =>
    refine ⟨?_, nofun⟩
    rw [show s.queueLocked = _ from h.locked, hpc]
    rfl
  | acceptProc hrule =>
    have hlocked := h.locked
    cases hrule with
    | register hpc | epollAdd hpc | deregister hpc | epollDel hpc | shutdown hpc | close hpc
    | pop hpc =>
      rw [hpc] at hlocked
      exact ⟨hlocked, nofun⟩
    | lockQueue => exact ⟨rfl, nofun⟩
    | unlockQueue => exact ⟨rfl, nofun⟩
    | empty hpc hqueue =>
      rw [hpc] at hlocked
      exact ⟨hlocked, fun _ => hqueue⟩
    | test hpc =>
      rw [hpc] at hlocked
      constructor
      · simp only
        split_ifs
        · exact hlocked
        · exact hlocked
      · intro heq
        simp only at heq
        split_ifs at heq
  | hangup => exact ⟨h.locked, h.empty⟩
  | enqueue hpc hfree =>
    refine ⟨h.locked, fun hunlock => ?_⟩
    have hlocked := h.locked
    rw [hfree, show s.acceptPc = _ from hunlock] at hlocked
    cases hlocked
  | other hworld hlocked haccept =>
    constructor
    · rw [hlocked, haccept]
      exact h.locked
    · rw [hworld, haccept]
      exact h.empty

lemma ledger_step (h : s.world.kernel.Ledger) (hrule : s.Rule s') : s'.world.kernel.Ledger := by
  cases hrule with
  | arrive => exact h.arrive
  | accept _ hk => exact h.accept hk
  | lost _ hk => exact h.lose hk
  | acceptProc hrule =>
    cases hrule with
    | epollAdd => exact h.epollAdd
    | epollDel => exact h.epollDel
    | shutdown => exact h.shutdown _
    | close => exact h.close
    | register | test | lockQueue | empty | pop | deregister | unlockQueue => exact h
  | listened | hangup | enqueue => exact h
  | other hworld =>
    rw [hworld]
    exact h

end Server

end C10K
