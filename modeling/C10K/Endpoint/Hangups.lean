import C10K.Endpoint.Registry

/-!
# What `endpoint_close_hungups` closes

The disconnection queue holds numbers. A call that closes a descriptor on its own leaves the number
on the queue, and the kernel may give it to the next connection. As long as no connection gets a
number that is still on the queue, every queued number that denotes a connection denotes one whose
hang-up was reported.
-/

namespace C10K

variable {s s' : Session} {call : EndpointCall} {fd : Fd} {c : ℕ}

namespace Session

/-- No connection is accepted under a number that is still on the disconnection queue. -/
def NoStaleNumber (s : Session) : EndpointCall → Prop
  | .accept _ _ _ _ clientAddressLen _ answers =>
    0 ≤ clientAddressLen.toInt → ∀ fd ∈ answers, fd ∉ s.endpoint.disconnectQueue.map wordToFd
  | _ => True

instance (s : Session) : (call : EndpointCall) → Decidable (s.NoStaleNumber call)
  | .accept .. =>
    -- the rule for lists, not the one that tries every descriptor
    let _ := List.decidableBAll (fun fd => fd ∉ s.endpoint.disconnectQueue.map wordToFd)
    inferInstanceAs (Decidable (_ → _))
  | .arrive | .waitEvent .. | .closeHungups | .disconnectClient _ | .disconnectAllClients =>
    .isTrue trivial

/-- Every connection that a queued number denotes was reported. -/
def QueueReported (s : Session) : Prop :=
  ∀ fd ∈ s.endpoint.disconnectQueue.map wordToFd, ∀ c, s.kernel.files fd = some (.conn c) →
    c ∈ s.reported

/-- A call that queues nothing and gives no meaning to a queued number. -/
lemma QueueReported.frame (hQ : s.QueueReported)
    (hqueue : ∀ v ∈ s'.endpoint.disconnectQueue, v ∈ s.endpoint.disconnectQueue)
    (hfiles : ∀ fd ∈ s.endpoint.disconnectQueue.map wordToFd, ∀ c,
      s'.kernel.files fd = some (.conn c) → s.kernel.files fd = some (.conn c))
    (hreported : s'.reported = s.reported) : s'.QueueReported := by
  intro fd hfd c hc
  have hold : fd ∈ s.endpoint.disconnectQueue.map wordToFd := List.map_subset _ hqueue hfd
  rw [hreported]
  exact hQ fd hold c (hfiles fd hold c hc)

lemma mem_hungups {k : Kernel Fd} {batch : List (Fd × BitVec 32)} {events : BitVec 32}
    (h : (fd, events) ∈ batch) (hrdhup : events &&& EPOLLRDHUP ≠ 0)
    (hc : k.files fd = some (.conn c)) : c ∈ hungups k batch := by
  refine List.mem_filterMap.mpr ⟨(fd, events), h, ?_⟩
  simp only [if_pos hrdhup, hc]

/-- A call that gives no queued number to a new connection keeps what is queued reported. -/
lemma QueueReported.step (hQ : s.QueueReported) (hI : s.Registry) (hG : s.NoStaleNumber call)
    (hstep : s.step call = some s') : s'.QueueReported := by
  cases call with
  | arrive =>
    cases hstep
    exact hQ
  | accept newFds newFdsSize eventsFlags prior clientAddressLen event answers =>
    obtain ⟨result, hresult, rfl⟩ := Option.map_eq_some_iff.mp hstep
    obtain ⟨-, hqueue, hfiles⟩ := hI.accept hresult
    refine hQ.frame (fun v hv => hqueue ▸ hv) (fun fd hfd c hc => ?_) rfl
    by_cases hlen : clientAddressLen.toInt < 0
    · exact World.files_endpointAccept_of_neg hlen hresult ▸ hc
    · have hfresh : fd ∉ answers := fun hmem => hG (Int.not_lt.mp hlen) fd hmem hfd
      exact hfiles fd hfresh ▸ hc
  | waitEvent socketFds eventFlags maxEvents answer =>
    obtain ⟨result, hresult, rfl⟩ := Option.map_eq_some_iff.mp hstep
    obtain ⟨-, hkernel, hqueue⟩ := hI.waitEvent hresult
    intro fd hfd c hc
    obtain ⟨v, hv, rfl⟩ := List.mem_map.mp hfd
    have hc' : s.kernel.files (wordToFd v) = some (.conn c) :=
      (congrArg (fun k => k.files (wordToFd v)) hkernel).symm.trans hc
    refine List.mem_append.mpr ((hqueue v hv).imp (fun hold => ?_) ?_)
    · exact hQ _ (List.mem_map_of_mem hold) c hc'
    · rintro ⟨events, hbatch, hrdhup, -⟩
      exact mem_hungups hbatch hrdhup hc'
  | closeHungups =>
    cases hstep
    obtain ⟨hnil, -⟩ := World.closeHungupsLoop_spec (w := s.toWorld) _ 0 rfl
    intro fd hfd
    have hempty : fd ∈ List.map wordToFd [] := hnil ▸ hfd
    cases hempty
  | disconnectClient socketFd =>
    simp only [Session.step] at hstep
    split_ifs at hstep
    cases hstep
    refine hQ.frame (fun v hv => hv) (fun fd hfd c hc => ?_) rfl
    rw [files_endpointDisconnectClient] at hc
    split_ifs at hc
    exact hc
  | disconnectAllClients =>
    obtain ⟨w, hw, rfl⟩ := Option.map_eq_some_iff.mp hstep
    rw [World.endpointDisconnectAllClients_eq hI.size_le] at hw
    cases hw
    intro fd hfd
    cases hfd

end Session

/-- In a run in which no connection is accepted under a queued number, a connection that
`endpoint_close_hungups` closes is one for which `endpoint_wait_event` reported `EPOLLRDHUP`. -/
theorem close_hungups_closes_reported
    (h : endpointSystem.ReachableMeeting Session.NoStaleNumber s)
    (hstep : s.step .closeHungups = some s') (hopen : s.kernel.files fd = some (.conn c))
    (hclosed : s'.kernel.files fd ≠ some (.conn c)) : c ∈ s.reported := by
  have hI := registry_of_reachable h.reachable
  have hQ : s.QueueReported := by
    refine h.invariant (I := Session.QueueReported) ?_ ?_
    · rintro s₀ ⟨k, srvFd, epListener, epSelector, shutdownFd, -, hcreate, -⟩ fd hfd
      rw [(World.endpointCreate_spec hcreate).1] at hfd
      cases hfd
    · intro s a s' hreach hQ hG hstep
      exact hQ.step (registry_of_reachable hreach) hG hstep
  cases hstep
  obtain ⟨-, hfiles⟩ := World.closeHungupsLoop_spec (w := s.toWorld) _ 0 rfl
  refine hQ fd ?_ c hopen
  by_contra hqueue
  exact hclosed ((hfiles fd).trans ((if_neg hqueue).trans hopen))

/-- A client hangs up and is disconnected, and the queue is emptied. Then its number goes to the
next connection, which hangs up and is closed. -/
theorem close_hungups_closes_reported_reused : ∃ s s' : Session,
    s.step .closeHungups = some s' ∧ s.kernel.closed = [(7, some (.conn 0)), (7, none)] ∧
      s.kernel.files 7 = some (.conn 1) ∧ s'.kernel.files 7 ≠ some (.conn 1) ∧
      1 ∈ s.reported := by
  let calls : List EndpointCall :=
    [.arrive, .arrive, .accept [0] 1 EPOLLIN 0 16 (some EPOLLIN) [7],
      .waitEvent [0] [0] 1 (some [(7, EPOLLIN ||| EPOLLRDHUP)]), .disconnectClient 7,
      .closeHungups, .accept [0] 1 EPOLLIN 0 16 (some EPOLLIN) [7],
      .waitEvent [0] [0] 1 (some [(7, EPOLLRDHUP)])]
  have hrun : ((endpointCreate .initial 3 4 5 6).bind fun w =>
      (endpointSystem.execMeeting (fun s call => decide (s.NoStaleNumber call)) ⟨w, []⟩ calls).bind
        fun s => (endpointSystem.step s .closeHungups).map fun s' =>
          (s.kernel.closed, s.kernel.files 7, s'.kernel.files 7)) =
      some ([(7, some (.conn 0)), (7, none)], some (.conn 1), none) := by decide +kernel
  simp only [Option.bind_eq_some_iff, Option.map_eq_some_iff, Prod.mk.injEq] at hrun
  obtain ⟨w, hw, s, hs, s', hstep, hbefore, hopen, hclosed⟩ := hrun
  have hreach : endpointSystem.ReachableMeeting Session.NoStaleNumber s :=
    ⟨_, calls, ⟨.initial, 3, 4, 5, 6, nofun, hw, rfl⟩,
      LTS.runMeeting_of_exec hs fun _ _ => of_decide_eq_true⟩
  have hclosed' : s'.kernel.files 7 ≠ some (.conn 1) := by
    rw [hclosed]
    exact nofun
  exact ⟨s, s', hstep, hbefore, hopen, hclosed',
    close_hungups_closes_reported hreach hstep hopen hclosed'⟩

/-- A client hangs up and is disconnected, its number goes to the next connection, and that
connection is closed. -/
theorem close_hungups_closes_successor : ¬ ∀ (s s' : Session) (fd : Fd) (c : ℕ),
    endpointSystem.Reachable s → s.step .closeHungups = some s' →
      s.kernel.files fd = some (.conn c) → s'.kernel.files fd ≠ some (.conn c) →
        c ∈ s.reported := by
  intro hall
  let calls : List EndpointCall :=
    [.arrive, .arrive, .accept [0] 1 EPOLLIN 0 16 (some EPOLLIN) [7],
      .waitEvent [0] [0] 1 (some [(7, EPOLLIN ||| EPOLLRDHUP)]), .disconnectClient 7,
      .accept [0] 1 EPOLLIN 0 16 (some EPOLLIN) [7]]
  have hrun : ((endpointCreate .initial 3 4 5 6).bind fun w =>
      (endpointSystem.exec ⟨w, []⟩ calls).bind fun s =>
      (endpointSystem.step s .closeHungups).map fun s' =>
        (s.kernel.files 7, s'.kernel.files 7, s.reported)) =
      some (some (.conn 1), none, [0]) := by decide +kernel
  simp only [Option.bind_eq_some_iff, Option.map_eq_some_iff, Prod.mk.injEq] at hrun
  obtain ⟨w, hw, s, hs, s', hstep, hopen, hclosed, hreported⟩ := hrun
  have hreach : endpointSystem.Reachable s :=
    ⟨⟨w, []⟩, calls, ⟨.initial, 3, 4, 5, 6, nofun, hw, rfl⟩, LTS.run_of_exec hs⟩
  have hclosed' : s'.kernel.files 7 ≠ some (.conn 1) := by
    rw [hclosed]
    exact nofun
  have hmem := hall s s' 7 1 hreach hstep hopen hclosed'
  simp [hreported] at hmem

end C10K
