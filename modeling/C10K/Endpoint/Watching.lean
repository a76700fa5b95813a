import C10K.Endpoint.NoLoss

/-!
# Clients that are watched

The bit set, the descriptors of the connections and the interest list of `_ep_selector` agree as
long as every client has an entry that watches `EPOLLRDHUP`. `endpoint_accept` adds one with the
flags of its caller, and two flags undo it: the kernel refuses the entry with `EPOLLEXCLUSIVE`, and
with `EPOLLONESHOT` it watches nothing any more once it was reported.
-/

namespace C10K

variable {w w' : World} {fd : Fd} {eventsFlags : BitVec 32}

namespace World

/-- The three records of a number agree: its bit is set when it denotes a connection, and it is
listed then, too. An entry reports its own number and watches `EPOLLRDHUP`, except that of the event
descriptor. -/
structure Agrees (w : World) (fd : Fd) : Prop where
  bit : w.endpoint.connectedClientsFds.bit (fdToWord fd) = true ↔ w.Accepted fd
  listed : fd ≠ w.endpoint.shutdownFd →
    ((w.kernel.interest w.endpoint.epSelector fd).isSome ↔ w.Accepted fd)
  entry : ∀ e, w.kernel.interest w.endpoint.epSelector fd = some e → e.data = fd ∧
    e.events &&& EPOLLRDHUP = if fd = w.endpoint.shutdownFd then 0 else EPOLLRDHUP

/-- Every accepted descriptor has an entry that watches `EPOLLRDHUP`. -/
def Watched (w : World) : Prop :=
  ∀ fd, w.Accepted fd → ∃ e, w.kernel.interest w.endpoint.epSelector fd = some e ∧
    e.events &&& EPOLLRDHUP = EPOLLRDHUP

lemma Registry.ne_shutdown (hI : w.Registry) (hfd : w.Accepted fd) :
    fd ≠ w.endpoint.shutdownFd := (hfd.loose.ne hI.shutdown rfl).symm

/-- A number other than the event descriptor is listed only if it was accepted. -/
lemma Registry.accepted_of_listed (hI : w.Registry) (hne : fd ≠ w.endpoint.shutdownFd)
    {e : EpollEvent Fd} (he : w.kernel.interest w.endpoint.epSelector fd = some e) :
    w.Accepted fd :=
  ((hI.recorded fd).entry e he).2.resolve_right fun hshutdown => hne hshutdown.1

lemma Registry.agrees (hI : w.Registry) (hW : w.Watched) (fd : Fd) : w.Agrees fd where
  bit := (hI.recorded fd).bit
  listed hne := by
    rw [Option.isSome_iff_exists]
    constructor
    · rintro ⟨e, he⟩
      exact hI.accepted_of_listed hne he
    · intro hfd
      obtain ⟨e, he, -⟩ := hW fd hfd
      exact ⟨e, he⟩
  entry e he := by
    obtain ⟨hdata, howner⟩ := (hI.recorded fd).entry e he
    refine ⟨hdata, ?_⟩
    split_ifs with hfd
    · exact (howner.resolve_left fun hacc => hI.ne_shutdown hacc hfd).2
    · obtain ⟨e', he', hmask⟩ := hW fd (hI.accepted_of_listed hfd he)
      cases he.symm.trans he'
      exact hmask

lemma Watched.create {k : Kernel Fd} {srvFd epListener epSelector shutdownFd : Fd}
    (hconn : ∀ fd c, k.files fd ≠ some (.conn c))
    (h : endpointCreate k srvFd epListener epSelector shutdownFd = some w) : w.Watched :=
  fun _ hfd => absurd hfd (not_accepted_create hconn h)

/-! ### The calls that accept nothing -/

/-- No descriptor is accepted, and the entries of those that stay accepted are as they are. -/
lemma Watched.frame (hW : w.Watched) (h : ∀ fd, w'.Accepted fd → w.Accepted fd ∧
    w'.kernel.interest w'.endpoint.epSelector fd = w.kernel.interest w.endpoint.epSelector fd) :
    w'.Watched := by
  intro fd hfd
  obtain ⟨hacc, hinterest⟩ := h fd hfd
  rw [hinterest]
  exact hW fd hacc

lemma Watched.congr (hW : w.Watched) (hfiles : w'.kernel.files = w.kernel.files)
    (hinterest : w'.kernel.interest = w.kernel.interest)
    (hselector : w'.endpoint.epSelector = w.endpoint.epSelector) : w'.Watched := by
  refine hW.frame fun fd hfd => ?_
  rw [Accepted, hfiles] at hfd
  rw [hinterest, hselector]
  exact ⟨hfd, rfl⟩

lemma Watched.disconnectClient (hW : w.Watched) (hI : w.Registry) (hloose : w.Loose fd) :
    (endpointDisconnectClient w fd).Watched := by
  refine hW.frame fun fd' hfd' => ?_
  rw [Accepted, files_endpointDisconnectClient] at hfd'
  split_ifs at hfd' with hne
  · obtain ⟨c, hc⟩ := hfd'
    cases hc
  · have hselector : w.endpoint.epSelector ≠ fd := hloose.ne hI.selector rfl
    refine ⟨hfd', (interest_endpointDisconnectClient _).trans (if_neg ?_)⟩
    exact not_or.mpr ⟨hselector, hne⟩

lemma Watched.closeHungups (hW : w.Watched) (hI : w.Registry) :
    (endpointCloseHungups w).2.Watched := by
  have hboth : (endpointCloseHungups w).2.Registry ∧ (endpointCloseHungups w).2.Watched := by
    refine closeHungupsLoop_induct (P := fun u => u.Registry ∧ u.Watched) 0 rfl ⟨hI, hW⟩ ?_
    rintro u v queue hqueue ⟨hI, hW⟩
    obtain ⟨hpop, hloose⟩ := hI.pop hqueue
    have hW' : (u.setQueue queue).Watched := hW.congr rfl rfl rfl
    exact ⟨hpop.disconnectClient hloose, hW'.disconnectClient hpop hloose⟩
  exact hboth.2

lemma Watched.disconnectAllClients (hW : w.Watched) (hI : w.Registry)
    (h : endpointDisconnectAllClients w = some w') : w'.Watched := by
  rw [endpointDisconnectAllClients_eq hI.size_le] at h
  cases h
  have hboth := foldl_disconnectAllForeach_induct (P := fun u => u.Registry ∧ u.Watched) ⟨hI, hW⟩
    (fun i hi => hI.exists_of_mem_members hi)
    fun u fd hloose hu => ⟨hu.1.disconnectClient hloose, hu.2.disconnectClient hu.1 hloose⟩
  exact hboth.2.congr rfl rfl rfl

/-! ### `endpoint_accept` -/

section Accept

variable {newFds answers : List Fd} {newFdsSize : ℤ} {prior clientAddressLen : BitVec 32}
variable {event : Option (BitVec 32)} {result : ℤ × List Fd × World}

/-- A connection that is lost is in none of the records. -/
lemma Watched.lose {k : Kernel Fd} (hW : w.Watched)
    (h : w.kernel.lose w.endpoint.srvFd fd = some k) : Watched { w with kernel := k } := by
  obtain ⟨-, -, -, -, -, -, hfiles, hinterest⟩ := Kernel.lose_spec h
  exact hW.congr hfiles hinterest rfl

lemma Watched.acceptClient (hW : w.Watched) (hI : w.Registry)
    (hadd : eventsFlags &&& EPOLLEXCLUSIVE = 0) (h : acceptClient w eventsFlags fd = some w') :
    w'.Watched := by
  obtain ⟨-, hendpoint, ⟨c, -, hfiles⟩, hinterest⟩ := acceptClient_spec hI h
  have hselector : w'.endpoint.epSelector = w.endpoint.epSelector := by rw [hendpoint]
  intro fd' hfd'
  rw [hselector, hinterest]
  by_cases heq : fd' = fd
  · rw [if_pos ⟨heq, hadd⟩]
    exact ⟨_, rfl, rdhup_listedEntry⟩
  · rw [if_neg fun h => heq h.1]
    rw [Accepted, hfiles, Function.update_of_ne heq] at hfd'
    exact hW fd' hfd'

/-- The clients stay watched when every entry can be added. -/
lemma Watched.accept (hW : w.Watched) (hI : w.Registry)
    (hadd : eventsFlags &&& EPOLLEXCLUSIVE = 0)
    (h : endpointAccept w newFds newFdsSize eventsFlags prior clientAddressLen event answers =
      some result) : result.2.2.Watched := by
  have hboth : result.2.2.Registry ∧ result.2.2.Watched := by
    refine endpointAccept_induct (P := fun u => u.Registry ∧ u.Watched) ⟨hI, hW⟩ ?_ ?_ h
    · rintro fd - u u' ⟨hI, hW⟩ hclient
      exact ⟨hI.acceptClient hclient, hW.acceptClient hI hadd hclient⟩
    · rintro fd u k ⟨hI, hW⟩ hlose
      exact ⟨hI.lose hlose, hW.lose hlose⟩
  exact hboth.2

/-- Without an accepted connection nothing is added. -/
lemma Watched.accept_none (hW : w.Watched) (hnone : event.getD prior &&& EPOLLHUP ≠ 0 ∨
      clientAddressLen.toInt < 0 ∨ answers = [])
    (h : endpointAccept w newFds newFdsSize eventsFlags prior clientAddressLen event answers =
      some result) : result.2.2.Watched := by
  unfold endpointAccept at h
  split_ifs at h with hhup
  · cases h
    exact hW
  · obtain ⟨r, hr, rfl⟩ := Option.map_eq_some_iff.mp h
    cases answers with
    | nil =>
      cases hr
      exact hW
    | cons fd answers =>
      have hlen : clientAddressLen.toInt < 0 :=
        (hnone.resolve_left hhup).resolve_right (List.cons_ne_nil _ _)
      obtain ⟨-, ⟨-, -, k, hk, rfl⟩ | ⟨hpos, -⟩⟩ := acceptLoop_cons.mp hr
      · exact hW.lose hk
      · exact absurd hlen (Int.not_lt.mpr hpos)

/-- A client whose entry could not be added is not listed when the call returns. -/
lemma not_watched_accept (hI : w.Registry) (hhup : event.getD prior &&& EPOLLHUP = 0)
    (hlen : 0 ≤ clientAddressLen.toInt) (hadd : eventsFlags &&& EPOLLEXCLUSIVE ≠ 0)
    (h : endpointAccept w newFds newFdsSize eventsFlags prior clientAddressLen event
      (fd :: answers) = some result) : ¬ result.2.2.Watched := by
  rw [endpointAccept, if_neg (not_not.mpr hhup)] at h
  obtain ⟨r, hr, rfl⟩ := Option.map_eq_some_iff.mp h
  obtain ⟨-, ⟨hneg, -⟩ | ⟨-, -, u, hu, hr⟩⟩ := acceptLoop_cons.mp hr
  · exact absurd hneg (Int.not_lt.mpr hlen)
  have hlisted : r.2.2.Registry ∧ r.2.2.Accepted fd ∧
      r.2.2.kernel.interest r.2.2.endpoint.epSelector fd = none := by
    refine acceptLoop_induct (P := fun u => u.Registry ∧ u.Accepted fd ∧
      u.kernel.interest u.endpoint.epSelector fd = none) ?_ ?_ ?_ hr
    · obtain ⟨hnone, hendpoint, ⟨c, -, hfiles⟩, hinterest⟩ := acceptClient_spec hI hu
      refine ⟨hI.acceptClient hu, ⟨c, by rw [hfiles, Function.update_self]⟩, ?_⟩
      have hselector : u.endpoint.epSelector = w.endpoint.epSelector := by rw [hendpoint]
      rw [hselector, hinterest, if_neg fun h => hadd h.2]
      exact w.kernel.interest_eq_none hnone
    · rintro fd' - v v' ⟨hv, ⟨c, hc⟩, hnone⟩ hclient
      obtain ⟨hfree, hendpoint, ⟨c', -, hfiles⟩, hinterest⟩ := acceptClient_spec hv hclient
      have hne : fd ≠ fd' := by
        rintro rfl
        cases hfree.symm.trans hc
      refine ⟨hv.acceptClient hclient, ⟨c, by rw [hfiles, Function.update_of_ne hne, hc]⟩, ?_⟩
      have hselector : v'.endpoint.epSelector = v.endpoint.epSelector := by rw [hendpoint]
      rw [hselector, hinterest, if_neg fun h => hadd h.2]
      exact hnone
    · rintro fd' v k ⟨hv, ⟨c, hc⟩, hnone⟩ hlose
      obtain ⟨-, -, -, -, -, -, hfiles, hinterest⟩ := Kernel.lose_spec hlose
      refine ⟨hv.lose hlose, ⟨c, (congrFun hfiles fd).trans hc⟩, ?_⟩
      exact (congrFun (congrFun hinterest _) fd).trans hnone
  obtain ⟨-, hacc, hnone⟩ := hlisted
  intro hW
  obtain ⟨e, he, -⟩ := hW fd hacc
  cases hnone.symm.trans he

end Accept

/-! ### `endpoint_wait_event` -/

/-- Behind some reports the clients are watched exactly when none of them was about a client whose
entry holds `EPOLLONESHOT`. -/
lemma Watched.disarm_iff (hW : w.Watched) {fds : List Fd} :
    Watched { w with kernel := w.kernel.disarm w.endpoint.epSelector fds } ↔
      ∀ fd ∈ fds, w.Accepted fd → ∀ e,
        w.kernel.interest w.endpoint.epSelector fd = some e → e.events &&& EPOLLONESHOT = 0 := by
  constructor
  · intro hW' fd hfd hacc e he
    obtain ⟨e', he', hmask⟩ := hW' fd hacc
    rw [Kernel.interest_disarm, if_pos ⟨rfl, hfd⟩, he, Option.map_some] at he'
    cases he'
    by_contra hshot
    rw [EpollEvent.events_disarmed_of_ne hshot (by decide)] at hmask
    exact absurd hmask (by decide)
  · intro hshot fd hacc
    obtain ⟨e, he, hmask⟩ := hW fd hacc
    by_cases hfd : fd ∈ fds
    · refine ⟨e, ?_, hmask⟩
      rw [Kernel.interest_disarm, if_pos ⟨rfl, hfd⟩, he, Option.map_some,
        EpollEvent.disarmed_of_and_eq_zero (hshot fd hfd hacc e he)]
    · refine ⟨e, ?_, hmask⟩
      rw [Kernel.interest_disarm, if_neg fun h => hfd h.2, he]

end World

/-! ### Sequences of calls -/

namespace Session

variable {s s' : Session} {call : EndpointCall}

/-- The indices of the bit set, the descriptors that were accepted and not closed, and the
descriptors on the interest list of the selector other than the event descriptor are the same, and
the entry of each watches `EPOLLRDHUP`. -/
def RecordsAgree (s : Session) : Prop :=
  {i | s.endpoint.connectedClientsFds.bit i = true} = Set.image fdToWord {fd | s.Accepted fd} ∧
    {fd | s.Accepted fd} = {fd | fd ≠ s.endpoint.shutdownFd ∧
      (s.kernel.interest s.endpoint.epSelector fd).isSome} ∧
    ∀ fd e, s.Accepted fd → s.kernel.interest s.endpoint.epSelector fd = some e →
      e.data = fd ∧ e.events &&& EPOLLRDHUP = EPOLLRDHUP

lemma recordsAgree_iff (hI : s.Registry) : s.RecordsAgree ↔ s.Watched := by
  constructor
  · rintro ⟨-, hlisted, hentry⟩ fd hfd
    have hmem : fd ∈ {fd | s.Accepted fd} := hfd
    rw [hlisted] at hmem
    obtain ⟨e, he⟩ := Option.isSome_iff_exists.mp hmem.2
    exact ⟨e, he, (hentry fd e hfd he).2⟩
  · intro hW
    have hagrees := hI.agrees hW
    refine ⟨Set.ext fun i => ⟨fun hi => ?_, ?_⟩, Set.ext fun fd => ⟨fun hfd => ?_, fun hfd => ?_⟩,
      fun fd e hfd he => ?_⟩
    · obtain ⟨fd, rfl⟩ := hI.range i hi
      exact ⟨fd, (hagrees fd).bit.mp hi, rfl⟩
    · rintro ⟨fd, hfd, rfl⟩
      exact (hagrees fd).bit.mpr hfd
    · have hne := hI.ne_shutdown hfd
      exact ⟨hne, ((hagrees fd).listed hne).mpr hfd⟩
    · exact ((hagrees fd).listed hfd.1).mp hfd.2
    · have hmask := (hagrees fd).entry e he
      rwa [if_neg (hI.ne_shutdown hfd)] at hmask

/-- A call of `endpoint_accept` that accepts a connection gets no `EPOLLEXCLUSIVE`, and a call of
`endpoint_wait_event` reports no client whose entry holds `EPOLLONESHOT`. -/
def KeepsWatch (s : Session) : EndpointCall → Prop
  | .accept _ _ eventsFlags prior clientAddressLen event answers =>
    (event.getD prior &&& EPOLLHUP ≠ 0 ∨ clientAddressLen.toInt < 0 ∨ answers = []) ∨
      eventsFlags &&& EPOLLEXCLUSIVE = 0
  | .waitEvent _ _ _ answer =>
    ∀ fd ∈ (answer.getD []).map Prod.fst, s.Accepted fd → ∀ e,
      s.kernel.interest s.endpoint.epSelector fd = some e → e.events &&& EPOLLONESHOT = 0
  | _ => True

/-- A call keeps the clients watched exactly when it is as above. -/
theorem watched_iff_keepsWatch (hI : s.Registry) (hW : s.Watched) (hstep : s.step call = some s') :
    s'.Watched ↔ s.KeepsWatch call := by
  cases call with
  | arrive =>
    cases hstep
    have hW' : World.Watched { s.toWorld with kernel := s.kernel.arrive } := hW.congr rfl rfl rfl
    exact iff_of_true hW' trivial
  | accept newFds newFdsSize eventsFlags prior clientAddressLen event answers =>
    obtain ⟨result, hresult, rfl⟩ := Option.map_eq_some_iff.mp hstep
    constructor
    · intro hW'
      by_contra hnot
      obtain ⟨hnone, hadd⟩ := not_or.mp hnot
      simp only [not_or, not_not, Int.not_lt] at hnone
      obtain ⟨hhup, hlen, hne⟩ := hnone
      obtain ⟨fd, answers, rfl⟩ := List.exists_cons_of_ne_nil hne
      exact World.not_watched_accept hI hhup hlen hadd hresult hW'
    · rintro (hnone | hadd)
      · exact hW.accept_none hnone hresult
      · exact hW.accept hI hadd hresult
  | waitEvent socketFds eventFlags maxEvents answer =>
    obtain ⟨⟨n, socketFds', eventFlags', w'⟩, hresult, rfl⟩ := Option.map_eq_some_iff.mp hstep
    obtain ⟨queue, hqueue, -⟩ := hI.tracked.waitEvent hresult
    obtain rfl : w' = World.setQueue _ queue := hqueue
    -- only the queue is different from a kernel where the entries were reported
    exact Iff.trans ⟨fun h => h.congr rfl rfl rfl, fun h => h.congr rfl rfl rfl⟩ hW.disarm_iff
  | closeHungups =>
    cases hstep
    exact iff_of_true (hW.closeHungups hI) trivial
  | disconnectClient socketFd =>
    simp only [Session.step] at hstep
    split_ifs at hstep with hbit
    cases hstep
    have hloose := ((hI.recorded socketFd).bit.mp hbit).loose
    exact iff_of_true (hW.disconnectClient hI hloose) trivial
  | disconnectAllClients =>
    obtain ⟨w, hw, rfl⟩ := Option.map_eq_some_iff.mp hstep
    exact iff_of_true (hW.disconnectAllClients hI hw) trivial

/-- A test for the guard. -/
def keepsWatch (s : Session) : EndpointCall → Bool
  | .accept _ _ eventsFlags _ _ _ _ => eventsFlags &&& EPOLLEXCLUSIVE = 0
  | .waitEvent _ _ _ answer => (answer.getD []).all fun (fd, _) =>
    (s.kernel.interest s.endpoint.epSelector fd).all fun e => e.events &&& EPOLLONESHOT = 0
  | _ => true

lemma keepsWatch_spec (h : s.keepsWatch call = true) : s.KeepsWatch call := by
  cases call with
  | accept => exact .inr (of_decide_eq_true h)
  | waitEvent =>
    intro fd hfd _ e he
    obtain ⟨⟨fd, events⟩, hp, rfl⟩ := List.mem_map.mp hfd
    have htest := List.all_eq_true.mp h _ hp
    simp only [he] at htest
    exact of_decide_eq_true htest
  | arrive | closeHungups | disconnectClient | disconnectAllClients => trivial

end Session

variable {s₀ s : Session} {calls : List EndpointCall}

/-- In every state of a run the bit set, the descriptors that were accepted and not closed, and the
clients on the interest list of the selector are the same, each watched with a mask that contains
`EPOLLRDHUP`, exactly when no accepted client comes with `EPOLLEXCLUSIVE` and no client is reported
whose entry holds `EPOLLONESHOT`. -/
theorem three_records_agree_iff (h₀ : endpointSystem.init s₀) :
    (endpointSystem.RunMeeting (fun s _ => s.RecordsAgree) s₀ calls s ∧ s.RecordsAgree) ↔
      endpointSystem.RunMeeting Session.KeepsWatch s₀ calls s := by
  obtain ⟨k, srvFd, epListener, epSelector, shutdownFd, hconn, hcreate, -⟩ := h₀
  have hI₀ : s₀.Registry := World.Registry.create hconn hcreate
  have hW₀ : s₀.Watched := World.Watched.create hconn hcreate
  refine LTS.runMeeting_iff (I := fun s => s.Registry) hI₀
    ((Session.recordsAgree_iff hI₀).mpr hW₀) (fun s call s' hI hstep => hI.step hstep) ?_
  intro s call s' hI hagree hstep
  rw [Session.recordsAgree_iff (hI.step hstep)]
  exact Session.watched_iff_keepsWatch hI ((Session.recordsAgree_iff hI).mp hagree) hstep

/-- A client hangs up and is disconnected, and the next one gets its number, which is still on the
disconnection queue. -/
theorem three_records_agree_iff_reused : ∃ s₀ calls s, endpointSystem.init s₀ ∧
    endpointSystem.Run s₀ calls s ∧ s.reported = [0] ∧ s.kernel.files 7 = some (.conn 1) ∧
      s.endpoint.disconnectQueue = [7] ∧ s.RecordsAgree := by
  let calls : List EndpointCall :=
    [.arrive, .arrive, .accept [0] 1 EPOLLIN 0 16 (some EPOLLIN) [7],
      .waitEvent [0] [0] 1 (some [(7, EPOLLIN ||| EPOLLRDHUP)]), .disconnectClient 7,
      .accept [0] 1 EPOLLIN 0 16 (some EPOLLIN) [7]]
  have hrun : ((endpointCreate .initial 3 4 5 6).bind fun w =>
      (endpointSystem.execMeeting Session.keepsWatch ⟨w, []⟩ calls).map fun s =>
        (s.reported, s.kernel.files 7, s.endpoint.disconnectQueue)) =
      some ([0], some (.conn 1), [7]) := by decide +kernel
  simp only [Option.bind_eq_some_iff, Option.map_eq_some_iff, Prod.mk.injEq] at hrun
  obtain ⟨w, hw, s, hs, hreported, hopen, hqueue⟩ := hrun
  have hinit : endpointSystem.init ⟨w, []⟩ := ⟨.initial, 3, 4, 5, 6, nofun, hw, rfl⟩
  have hmeets := LTS.runMeeting_of_exec hs fun _ _ => Session.keepsWatch_spec
  exact ⟨⟨w, []⟩, calls, s, hinit, hmeets.run, hreported, hopen, hqueue,
    ((three_records_agree_iff hinit).mpr hmeets).2⟩

/-- A client that was accepted with `EPOLLONESHOT` is reported, and is watched no more. -/
theorem three_records_agree_unwatched :
    ¬ ∀ s : Session, endpointSystem.Reachable s → s.RecordsAgree := by
  intro hall
  let calls : List EndpointCall :=
    [.arrive, .accept [0] 1 (EPOLLIN ||| EPOLLONESHOT) 0 16 (some EPOLLIN) [7],
      .waitEvent [0] [0] 1 (some [(7, EPOLLIN)])]
  have hrun : ((endpointCreate .initial 3 4 5 6).bind fun w =>
      (endpointSystem.exec ⟨w, []⟩ calls).map fun s => (s.kernel.files 7,
        (s.kernel.interest s.endpoint.epSelector 7).map fun e => e.events &&& EPOLLRDHUP)) =
      some (some (.conn 0), some 0) := by decide +kernel
  simp only [Option.bind_eq_some_iff, Option.map_eq_some_iff, Prod.mk.injEq] at hrun
  obtain ⟨w, hw, s, hs, hopen, e, he, hmask⟩ := hrun
  have hreach : endpointSystem.Reachable s :=
    ⟨⟨w, []⟩, calls, ⟨.initial, 3, 4, 5, 6, nofun, hw, rfl⟩, LTS.run_of_exec hs⟩
  obtain ⟨-, -, hentry⟩ := hall s hreach
  have hwatched := (hentry 7 e ⟨0, hopen⟩ he).2
  rw [hmask] at hwatched
  exact absurd hwatched (by decide)

end C10K
