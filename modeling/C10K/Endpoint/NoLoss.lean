import C10K.Endpoint.Registry

/-!
# No hang-up is lost

Every open connection whose hang-up was reported has its number on the disconnection queue, so
`endpoint_close_hungups` closes it. This needs less than the registry, and holds also when
`endpoint_disconnect_client` is called on numbers that are not registered.
-/

namespace C10K

variable {w w' : World} {fd : Fd} {c : ℕ} {eventsFlags : BitVec 32}

/-! ### What every call keeps -/

namespace World

/-- The bit set records the open connections, and an entry of the selector reports its own
descriptor. -/
structure Tracked (w : World) : Prop where
  size_le : w.endpoint.connectedClientsFds.size ≤ 2 ^ 58
  bit : ∀ i, w.endpoint.connectedClientsFds.bit i = true ↔ ∃ fd, i = fdToWord fd ∧ w.Accepted fd
  entry : ∀ fd e, w.kernel.interest w.endpoint.epSelector fd = some e → e.data = fd

lemma Registry.tracked (hI : w.Registry) : w.Tracked where
  size_le := hI.size_le
  bit i := by
    constructor
    · intro hi
      obtain ⟨fd, rfl⟩ := hI.range i hi
      exact ⟨fd, rfl, (hI.recorded fd).bit.mp hi⟩
    · rintro ⟨fd, rfl, hfd⟩
      exact (hI.recorded fd).bit.mpr hfd
  entry fd e he := ((hI.recorded fd).entry e he).1

lemma Tracked.setQueue (hT : w.Tracked) (queue : Stack (BitVec 64)) : (w.setQueue queue).Tracked :=
  ⟨hT.size_le, hT.bit, hT.entry⟩

/-- The table of descriptors stays as it is, and the entries of the selector keep their data. -/
lemma Tracked.setKernel {k : Kernel Fd} (hT : w.Tracked) (hfiles : k.files = w.kernel.files)
    (hinterest : ∀ fd e, k.interest w.endpoint.epSelector fd = some e →
      ∃ e', w.kernel.interest w.endpoint.epSelector fd = some e' ∧ e.data = e'.data) :
    Tracked { w with kernel := k } where
  size_le := hT.size_le
  bit i := by
    simp only [Accepted, hfiles]
    exact hT.bit i
  entry fd e he := by
    obtain ⟨e', he', hdata⟩ := hinterest fd e he
    exact hdata.trans (hT.entry fd e' he')

lemma accepted_endpointDisconnectClient {fd' : Fd} :
    (endpointDisconnectClient w fd).Accepted fd' ↔ fd' ≠ fd ∧ w.Accepted fd' := by
  rw [Accepted, files_endpointDisconnectClient]
  split_ifs with h
  · simp [h]
  · simp [h, Accepted]

lemma Tracked.disconnectClient (hT : w.Tracked) (fd : Fd) :
    (endpointDisconnectClient w fd).Tracked where
  size_le := size_boolsetSet_le hT.size_le _ _
  bit i := by
    rw [bit_endpointDisconnectClient]
    simp only [accepted_endpointDisconnectClient]
    split_ifs with h
    · subst h
      refine iff_of_false id ?_
      rintro ⟨fd', hfd', hne, -⟩
      exact hne (fdToWord_injective hfd').symm
    · rw [hT.bit]
      constructor
      · rintro ⟨fd', rfl, hacc⟩
        exact ⟨fd', rfl, fun heq => h (heq ▸ rfl), hacc⟩
      · rintro ⟨fd', rfl, -, hacc⟩
        exact ⟨fd', rfl, hacc⟩
  entry fd' e he := by
    have he : (endpointDisconnectClient w fd).kernel.interest w.endpoint.epSelector fd' =
      some e := he
    rw [interest_endpointDisconnectClient] at he
    split_ifs at he
    exact hT.entry fd' e he

lemma evolves_endpointDisconnectClient :
    w.kernel.Evolves (endpointDisconnectClient w fd).kernel :=
  ⟨rfl, fun _ => id, (Kernel.evolves_close (k := w.kernel)).opened⟩

lemma Tracked.closeHungups (hT : w.Tracked) :
    (endpointCloseHungups w).2.Tracked ∧ w.kernel.Evolves (endpointCloseHungups w).2.kernel := by
  refine closeHungupsLoop_induct (P := fun u => u.Tracked ∧ w.kernel.Evolves u.kernel) 0 rfl
    ⟨hT, .refl _⟩ fun u v queue _ hu => ?_
  exact ⟨(hu.1.setQueue queue).disconnectClient _, hu.2.trans evolves_endpointDisconnectClient⟩

/-- Disconnecting every member of the bit set leaves no connection. -/
lemma Tracked.disconnectAllClients (hT : w.Tracked)
    (h : endpointDisconnectAllClients w = some w') :
    w'.Tracked ∧ w.kernel.Evolves w'.kernel ∧ ∀ fd, ¬ w'.Accepted fd := by
  have hfold : ∀ (l : List (BitVec 64)) (u : World), u.Tracked → (∀ i ∈ l, ∃ fd, i = fdToWord fd) →
      let u' := l.foldl disconnectAllForeach u
      u'.Tracked ∧ u.kernel.Evolves u'.kernel ∧
        ∀ fd, u'.Accepted fd → u.Accepted fd ∧ fdToWord fd ∉ l := by
    intro l
    induction l with
    | nil => exact fun u hu _ => ⟨hu, .refl _, fun fd hfd => ⟨hfd, List.not_mem_nil⟩⟩
    | cons i l ih =>
      intro u hu hl
      obtain ⟨fd, rfl⟩ := hl i List.mem_cons_self
      obtain ⟨hT', hE, hacc⟩ := ih (endpointDisconnectClient u fd) (hu.disconnectClient fd)
        fun i hi => hl i (List.mem_cons_of_mem _ hi)
      rw [List.foldl_cons, disconnectAllForeach_fdToWord]
      refine ⟨hT', evolves_endpointDisconnectClient.trans hE, fun fd' hfd' => ?_⟩
      obtain ⟨hopen, hnot⟩ := hacc fd' hfd'
      obtain ⟨hne, hopen⟩ := accepted_endpointDisconnectClient.mp hopen
      exact ⟨hopen, List.not_mem_cons_of_ne_of_not_mem (fdToWord_injective.ne hne) hnot⟩
  rw [endpointDisconnectAllClients_eq hT.size_le] at h
  cases h
  have hmem := fun i => mem_members (i := i) hT.size_le
  obtain ⟨hT', hE, hacc⟩ := hfold w.endpoint.connectedClientsFds.members w hT fun i hi => by
    obtain ⟨fd, hfd, -⟩ := (hT.bit i).mp ((hmem i).mp hi)
    exact ⟨fd, hfd⟩
  refine ⟨hT'.setQueue [], hE, fun fd hfd => ?_⟩
  obtain ⟨hopen, hnot⟩ := hacc fd hfd
  exact hnot ((hmem _).mpr ((hT.bit _).mpr ⟨fd, rfl, hopen⟩))

lemma Tracked.acceptClient (hT : w.Tracked) (h : acceptClient w eventsFlags fd = some w') :
    w'.Tracked ∧ w.kernel.Evolves w'.kernel ∧
      w'.endpoint.disconnectQueue = w.endpoint.disconnectQueue := by
  simp only [C10K.acceptClient, bind, Option.bind_eq_some_iff, pure, Option.some.injEq] at h
  obtain ⟨k, hk, rfl⟩ := h
  obtain ⟨c, backlog, -, hnone, -, hfiles, hinterest⟩ := Kernel.accept_spec hk
  refine ⟨⟨size_boolsetSet_le hT.size_le _ _, fun i => ?_, fun fd' e he => ?_⟩,
    (Kernel.evolves_accept hk).trans Kernel.evolves_epollAdd, rfl⟩
  · refine (Bool.eq_iff_iff.mp (bit_boolsetSet ..)).trans ?_
    simp only [Accepted, Kernel.files_epollAdd]
    have hk' : (endpointRegisterClient { w with kernel := k } fd).kernel.files =
        Function.update w.kernel.files fd (some (.conn c)) := hfiles
    rw [hk']
    simp only [Function.update_apply]
    split_ifs with hi
    · exact iff_of_true rfl ⟨fd, hi, c, by simp⟩
    · refine (hT.bit i).trans (exists_congr fun fd' => and_congr_right fun heq => ?_)
      have hne : fd' ≠ fd := fun h => hi (h ▸ heq)
      simp [hne, Accepted]
  · rcases Kernel.entry_epollAdd he with ⟨rfl, rfl⟩ | he
    · rfl
    · exact hT.entry fd' e (hinterest ▸ he)

lemma Tracked.accept {newFds answers : List Fd} {newFdsSize : ℤ}
    {prior clientAddressLen : BitVec 32} {event : Option (BitVec 32)}
    {result : ℤ × List Fd × World} (hT : w.Tracked)
    (h : endpointAccept w newFds newFdsSize eventsFlags prior clientAddressLen event answers =
      some result) :
    result.2.2.Tracked ∧ w.kernel.Evolves result.2.2.kernel ∧
      result.2.2.endpoint.disconnectQueue = w.endpoint.disconnectQueue := by
  apply endpointAccept_induct (P := fun u => u.Tracked ∧ w.kernel.Evolves u.kernel ∧
    u.endpoint.disconnectQueue = w.endpoint.disconnectQueue) _ _ _ h
  · exact ⟨hT, .refl _, rfl⟩
  · rintro fd - u u' ⟨hu, hE, hqueue⟩ hclient
    obtain ⟨hu', hE', hqueue'⟩ := hu.acceptClient hclient
    exact ⟨hu', hE.trans hE', hqueue'.trans hqueue⟩
  · rintro fd u k ⟨hu, hE, hqueue⟩ hlose
    obtain ⟨-, -, -, -, -, -, hfiles, hinterest⟩ := Kernel.lose_spec hlose
    refine ⟨hu.setKernel hfiles fun fd e he => ⟨e, ?_, rfl⟩, hE.trans (Kernel.evolves_lose hlose),
      hqueue⟩
    rw [← hinterest]
    exact he

/-- `endpoint_wait_event` keeps the queue and puts on it every descriptor that the batch reports
`EPOLLRDHUP` for. -/
lemma Tracked.waitEvent {socketFds : List Fd} {eventFlags : List (BitVec 32)} {maxEvents : ℤ}
    {answer : Option (List (Fd × BitVec 32))} {result : ℤ × List Fd × List (BitVec 32) × World}
    (hT : w.Tracked)
    (h : endpointWaitEvent w socketFds eventFlags maxEvents answer = some result) :
    ∃ queue, result.2.2.2 = World.setQueue { w with
          kernel := w.kernel.disarm w.endpoint.epSelector ((answer.getD []).map Prod.fst) } queue ∧
      result.2.2.2.Tracked ∧ (∀ v ∈ w.endpoint.disconnectQueue, v ∈ queue) ∧
      ∀ fd events, (fd, events) ∈ answer.getD [] → events &&& EPOLLRDHUP ≠ 0 →
        fdToWord fd ∈ queue := by
  unfold endpointWaitEvent at h
  cases answer with
  | none =>
    cases h
    refine ⟨_, ?_, hT, fun v hv => hv, nofun⟩
    rw [Option.getD_none, List.map_nil, Kernel.disarm_nil]
    rfl
  | some batch =>
    simp only [Option.ite_none_right_eq_some, bind, Option.bind_eq_some_iff, pure,
      Option.some.injEq] at h
    obtain ⟨-, ⟨reports, k⟩, hreports, r, hr, rfl⟩ := h
    obtain rfl := Kernel.epollWait_kernel hreports
    obtain ⟨queue, hresult, hqueue⟩ := waitEventLoop_spec hr
    have hT' : Tracked
        { w with kernel := w.kernel.disarm w.endpoint.epSelector (batch.map Prod.fst) } := by
      refine hT.setKernel rfl fun fd e he => ?_
      obtain ⟨e', he', rfl | rfl⟩ := Kernel.entry_disarm he
      · exact ⟨_, he', rfl⟩
      · exact ⟨e', he', EpollEvent.data_disarmed⟩
    refine ⟨queue, hresult, hresult ▸ hT'.setQueue queue, fun v hv => (hqueue v).mpr (.inl hv),
      fun fd events hbatch hrdhup => ?_⟩
    obtain ⟨report, hreport, e, he, hdata, rfl⟩ := Kernel.epollWait_of_mem hreports hbatch
    refine (hqueue _).mpr (.inr ⟨report, hreport, hrdhup, ?_⟩)
    rw [hdata, hT.entry fd e he]

end World

/-! ### Sequences of calls -/

namespace Session

variable {s s' : Session} {call : EndpointCall}

/-- A call of `endpoint_disconnect_client` on any number, or another call. -/
def stepAny (s : Session) : EndpointCall → Option Session
  | .disconnectClient socketFd =>
    some { s with toWorld := endpointDisconnectClient s.toWorld socketFd }
  | call => s.step call

/-- The connections that were reported came in before, and those that are open have their number on
the queue. -/
structure HangupsQueued (s : Session) : Prop where
  tracked : s.Tracked
  seen : ∀ c ∈ s.reported, s.kernel.Seen c
  queued : ∀ c ∈ s.reported, ∀ fd, s.kernel.files fd = some (.conn c) →
    fd ∈ s.endpoint.disconnectQueue.map wordToFd

/-- A call that reports nothing and takes no number of an open connection off the queue. -/
lemma HangupsQueued.frame (hH : s.HangupsQueued) (hT : s'.Tracked)
    (hE : s.kernel.Evolves s'.kernel) (hreported : s'.reported = s.reported)
    (hqueue : ∀ fd c, s'.kernel.files fd = some (.conn c) →
      fd ∈ s.endpoint.disconnectQueue.map wordToFd →
      fd ∈ s'.endpoint.disconnectQueue.map wordToFd) : s'.HangupsQueued where
  tracked := hT
  seen c hc := (hH.seen c (hreported ▸ hc)).evolves hE
  queued c hc fd hfd := by
    have hopen := (hH.seen c (hreported ▸ hc)).open_before hE hfd
    exact hqueue fd c hfd (hH.queued c (hreported ▸ hc) fd hopen)

lemma exists_of_mem_hungups {k : Kernel Fd} {batch : List (Fd × BitVec 32)}
    (h : c ∈ hungups k batch) : ∃ fd events, (fd, events) ∈ batch ∧ events &&& EPOLLRDHUP ≠ 0 ∧
      k.files fd = some (.conn c) := by
  obtain ⟨⟨fd, events⟩, hbatch, h⟩ := List.mem_filterMap.mp h
  dsimp only at h
  split_ifs at h with hrdhup
  split at h
  · cases h
    exact ⟨fd, events, hbatch, hrdhup, ‹_›⟩
  · cases h

/-- After `endpoint_close_hungups` no reported connection is open. -/
lemma HangupsQueued.closed (hH : s.HangupsQueued) (hc : c ∈ s.reported) (fd : Fd) :
    (endpointCloseHungups s.toWorld).2.kernel.files fd ≠ some (.conn c) := by
  obtain ⟨-, hfiles⟩ := World.closeHungupsLoop_spec (w := s.toWorld) _ 0 rfl
  intro hopen
  have hopen := (hfiles fd).symm.trans hopen
  split_ifs at hopen with hqueue
  exact hqueue (hH.queued c hc fd hopen)

theorem HangupsQueued.step (hH : s.HangupsQueued) (hstep : s.stepAny call = some s') :
    s'.HangupsQueued := by
  cases call with
  | arrive =>
    cases hstep
    exact ⟨⟨hH.tracked.size_le, hH.tracked.bit, hH.tracked.entry⟩,
      fun c hc => (hH.seen c hc).arrive, hH.queued⟩
  | accept =>
    obtain ⟨result, hresult, rfl⟩ := Option.map_eq_some_iff.mp hstep
    obtain ⟨hT, hE, hqueue⟩ := hH.tracked.accept hresult
    exact hH.frame hT hE rfl fun fd c _ hfd => hqueue ▸ hfd
  | waitEvent socketFds eventFlags maxEvents answer =>
    obtain ⟨result, hresult, rfl⟩ := Option.map_eq_some_iff.mp hstep
    obtain ⟨queue, hw, hT, hold, hnew⟩ := hH.tracked.waitEvent hresult
    obtain ⟨_, _, _, w⟩ := result
    obtain rfl : w = World.setQueue _ queue := hw
    refine ⟨hT, fun c hc => ?_, fun c hc fd hfd => ?_⟩
    · rcases List.mem_append.mp hc with hc | hc
      · exact hH.seen c hc
      · obtain ⟨fd, -, -, -, hopen⟩ := exists_of_mem_hungups hc
        exact Kernel.seen_of_open hopen
    · rcases List.mem_append.mp hc with hc | hc
      · exact List.map_subset _ hold (hH.queued c hc fd hfd)
      · obtain ⟨fd', events, hbatch, hrdhup, hopen⟩ := exists_of_mem_hungups hc
        obtain rfl : fd' = fd := s.kernel.valid.unique hopen hfd
        exact List.mem_map.mpr ⟨_, hnew fd' events hbatch hrdhup, wordToFd_fdToWord fd'⟩
  | closeHungups =>
    cases hstep
    obtain ⟨hT, hE⟩ := hH.tracked.closeHungups
    exact ⟨hT, fun c hc => (hH.seen c hc).evolves hE,
      fun c hc fd hfd => absurd hfd (hH.closed hc fd)⟩
  | disconnectClient socketFd =>
    cases hstep
    exact hH.frame (hH.tracked.disconnectClient socketFd) World.evolves_endpointDisconnectClient rfl
      fun fd c _ hfd => hfd
  | disconnectAllClients =>
    obtain ⟨w, hw, rfl⟩ := Option.map_eq_some_iff.mp hstep
    obtain ⟨hT, hE, hclosed⟩ := hH.tracked.disconnectAllClients hw
    exact hH.frame hT hE rfl fun fd c hfd _ => absurd ⟨c, hfd⟩ (hclosed fd)

end Session

/-- Complete calls in any order, `endpoint_disconnect_client` on any number included. -/
def endpointSystemAny : LTS Session EndpointCall where
  init := endpointSystem.init
  step := Session.stepAny

variable {s s' : Session}

/-- After every `endpoint_close_hungups`, no connection for which `EPOLLRDHUP` was reported is open,
and neither the bit set nor the interest list of the selector holds a descriptor of one. -/
theorem no_hangup_lost (h : endpointSystemAny.Reachable s)
    (hstep : endpointSystemAny.step s .closeHungups = some s') :
    (∀ c ∈ s'.reported, ∀ fd, s'.kernel.files fd ≠ some (.conn c)) ∧
      (∀ i, s'.endpoint.connectedClientsFds.bit i = true →
        ∃ fd c, i = fdToWord fd ∧ s'.kernel.files fd = some (.conn c) ∧ c ∉ s'.reported) ∧
      ∀ fd e, s'.kernel.interest s'.endpoint.epSelector fd = some e →
        ∃ file, s'.kernel.files fd = some file ∧ ∀ c ∈ s'.reported, file ≠ .conn c := by
  have hH : s.HangupsQueued := by
    refine h.invariant (I := Session.HangupsQueued) ?_
      fun s a s' hH (hstep : s.stepAny a = some s') => hH.step hstep
    rintro s₀ ⟨k, srvFd, epListener, epSelector, shutdownFd, hconn, hcreate, hreported⟩
    refine ⟨(World.Registry.create hconn hcreate).tracked, fun c hc => ?_, fun c hc => ?_⟩
    · rw [hreported] at hc
      cases hc
    · rw [hreported] at hc
      cases hc
  have hstep : s.stepAny .closeHungups = some s' := hstep
  have hH' := hH.step hstep
  cases hstep
  refine ⟨fun c hc fd => hH.closed hc fd, fun i hi => ?_, fun fd e he => ?_⟩
  · obtain ⟨fd, rfl, c, hfd⟩ := (hH'.tracked.bit i).mp hi
    exact ⟨fd, c, rfl, hfd, fun hc => hH.closed hc fd hfd⟩
  · obtain ⟨file, hfile⟩ := Option.ne_none_iff_exists'.mp ((Kernel.valid _).listed he).2
    refine ⟨file, hfile, ?_⟩
    rintro c hc rfl
    exact hH.closed hc fd hfile

/-- A client hangs up, its number is disconnected twice and goes to the next connection, which
hangs up as well. -/
theorem no_hangup_lost_one : ∃ s s' : Session,
    endpointSystemAny.Reachable s ∧ endpointSystemAny.step s .closeHungups = some s' ∧
      s'.reported = [0, 1] ∧ ∀ fd, s'.kernel.files fd ≠ some (.conn 1) := by
  let calls : List EndpointCall :=
    [.arrive, .arrive, .accept [0] 1 EPOLLIN 0 16 (some EPOLLIN) [7],
      .waitEvent [0] [0] 1 (some [(7, EPOLLIN ||| EPOLLRDHUP)]), .disconnectClient 7,
      .disconnectClient 7, .accept [0] 1 EPOLLIN 0 16 (some EPOLLIN) [7],
      .waitEvent [0] [0] 1 (some [(7, EPOLLRDHUP)])]
  have hrun : ((endpointCreate .initial 3 4 5 6).bind fun w =>
      (endpointSystemAny.exec ⟨w, []⟩ calls).bind fun s =>
      (endpointSystemAny.step s .closeHungups).map fun s' => s'.reported) = some [0, 1] := by
    decide +kernel
  simp only [Option.bind_eq_some_iff, Option.map_eq_some_iff] at hrun
  obtain ⟨w, hw, s, hs, s', hstep, hreported⟩ := hrun
  have hreach : endpointSystemAny.Reachable s :=
    ⟨⟨w, []⟩, calls, ⟨.initial, 3, 4, 5, 6, nofun, hw, rfl⟩, LTS.run_of_exec hs⟩
  have hmem : 1 ∈ s'.reported := by
    rw [hreported]
    exact List.mem_cons_of_mem _ List.mem_cons_self
  exact ⟨s, s', hreach, hstep, hreported, (no_hangup_lost hreach hstep).1 1 hmem⟩

end C10K
