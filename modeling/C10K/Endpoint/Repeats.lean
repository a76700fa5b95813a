import C10K.Endpoint.Accept
import C10K.Endpoint.NoLoss

/-!
# Repeated reports

The disconnection queue has no check for duplicates. A connection whose hang-up is reported again
before it is closed stands on the queue twice, and `endpoint_close_hungups` closes its number twice
and counts it twice. Without another call that closes descriptors, that is the only way in which
`endpoint_close_hungups` goes wrong.
-/

namespace C10K

variable {w w' : World} {fd : Fd} {c : ℕ} {s s' : Session} {call : EndpointCall}

/-! ### The order of the queue -/

/-- The numbers on the disconnection queue. -/
def World.queued (w : World) : List Fd := w.endpoint.disconnectQueue.map wordToFd

/-- The numbers of a batch whose event mask holds `EPOLLRDHUP`. -/
def hungupFds (batch : List (Fd × BitVec 32)) : List Fd :=
  (batch.filter fun (_, events) => events &&& EPOLLRDHUP ≠ 0).map Prod.fst

lemma hungupFds_cons (fd : Fd) (events : BitVec 32) (batch : List (Fd × BitVec 32)) :
    hungupFds ((fd, events) :: batch) =
      if events &&& EPOLLRDHUP ≠ 0 then fd :: hungupFds batch else hungupFds batch := by
  rw [hungupFds, List.filter_cons, apply_ite (List.map Prod.fst)]
  simp only [decide_eq_true_eq]
  rfl

/-- The loop of `endpoint_wait_event` pushes one number after another. -/
lemma queued_waitEventLoop {events : List (EpollEvent Fd)} {n : ℕ} {socketFds : List Fd}
    {eventFlags : List (BitVec 32)} {result : List Fd × List (BitVec 32) × World}
    (h : waitEventLoop events n socketFds eventFlags w = some result) :
    result.2.2.queued =
      (hungupFds (events.map fun event => (event.data, event.events))).reverse ++ w.queued := by
  induction events generalizing n socketFds eventFlags w with
  | nil =>
    cases h
    rfl
  | cons event events ih =>
    simp only [waitEventLoop] at h
    split_ifs at h with hroom hrdhup
    · rw [ih h, List.map_cons, hungupFds_cons, if_pos hrdhup, List.reverse_cons, List.append_assoc]
      congr 1
      rw [World.queued, endpointEnqueueClientForDisconnection, World.setQueue, stackPush,
        List.map_cons, wordToFd_fdToWord]
      rfl
    · rw [ih h, List.map_cons, hungupFds_cons, if_neg hrdhup]

lemma queued_endpointWaitEvent {socketFds : List Fd} {eventFlags : List (BitVec 32)}
    {maxEvents : ℤ} {answer : Option (List (Fd × BitVec 32))}
    {result : ℤ × List Fd × List (BitVec 32) × World} (hT : w.Tracked)
    (h : endpointWaitEvent w socketFds eventFlags maxEvents answer = some result) :
    result.2.2.2.queued = (hungupFds (answer.getD [])).reverse ++ w.queued := by
  unfold endpointWaitEvent at h
  cases answer with
  | none =>
    cases h
    rfl
  | some batch =>
    simp only [Option.ite_none_right_eq_some, bind, Option.bind_eq_some_iff, pure,
      Option.some.injEq] at h
    obtain ⟨-, reports, hreports, r, hr, rfl⟩ := h
    refine (queued_waitEventLoop hr).trans ?_
    rw [Kernel.map_epollWait hreports hT.entry]
    rfl

/-! ### Connections and their numbers -/

lemma nodup_filterMap_iff {α β : Type*} {f : α → Option β} {l : List α}
    (hsome : ∀ a ∈ l, ∃ b, f a = some b)
    (hinj : ∀ a a' b, f a = some b → f a' = some b → a = a') :
    (l.filterMap f).Nodup ↔ l.Nodup := by
  induction l with
  | nil => exact iff_of_true .nil .nil
  | cons a l ih =>
    obtain ⟨b, hb⟩ := hsome a List.mem_cons_self
    have hmem : b ∈ l.filterMap f ↔ a ∈ l := by
      rw [List.mem_filterMap]
      constructor
      · rintro ⟨a', ha', hb'⟩
        exact hinj a a' b hb hb' ▸ ha'
      · intro ha
        exact ⟨a, ha, hb⟩
    rw [List.filterMap_cons_some hb, List.nodup_cons, List.nodup_cons, hmem,
      ih fun a ha => hsome a (List.mem_cons_of_mem _ ha)]

/-- The connection that a number denotes. -/
def connOf (k : Kernel Fd) (fd : Fd) : Option ℕ :=
  match k.files fd with
  | some (.conn c) => some c
  | _              => none

lemma connOf_eq_some {k : Kernel Fd} : connOf k fd = some c ↔ k.files fd = some (.conn c) := by
  rw [connOf]
  constructor
  · intro h
    split at h
    · cases h
      assumption
    · cases h
  · intro h
    rw [h]

lemma hungups_eq (k : Kernel Fd) (batch : List (Fd × BitVec 32)) :
    hungups k batch = (hungupFds batch).filterMap (connOf k) := by
  rw [hungups, hungupFds, List.filterMap_map, List.filterMap_filter]
  congr 1
  funext ⟨fd, events⟩
  simp only [decide_eq_true_eq]
  split_ifs <;> rfl

/-- What a call of `endpoint_wait_event` reports `EPOLLRDHUP` for are accepted descriptors. -/
lemma exists_of_mem_hungupFds {socketFds : List Fd} {eventFlags : List (BitVec 32)} {maxEvents : ℤ}
    {answer : Option (List (Fd × BitVec 32))} {result : ℤ × List Fd × List (BitVec 32) × World}
    (hI : w.Registry)
    (h : endpointWaitEvent w socketFds eventFlags maxEvents answer = some result)
    (hfd : fd ∈ hungupFds (answer.getD [])) : ∃ c, connOf w.kernel fd = some c := by
  obtain ⟨⟨_, events⟩, hmem, rfl⟩ := List.mem_map.mp hfd
  obtain ⟨hbatch, hrdhup⟩ := List.mem_filter.mp hmem
  rw [decide_eq_true_eq] at hrdhup
  cases answer with
  | none => cases hbatch
  | some batch =>
    simp only [endpointWaitEvent, Option.ite_none_right_eq_some, bind,
      Option.bind_eq_some_iff] at h
    obtain ⟨-, reports, hreports, -⟩ := h
    obtain ⟨report, hreport, e, he, hdata, rfl⟩ := Kernel.epollWait_of_mem hreports hbatch
    obtain ⟨-, c, hc⟩ := hI.accepted_of_report hreports hreport hrdhup
    rw [hdata, hI.tracked.entry _ e he] at hc
    exact ⟨c, connOf_eq_some.mpr hc⟩

/-! ### What is closed -/

/-- The loop closes the numbers of the queue, one after another, and counts them. -/
lemma closed_closeHungupsLoop (queue : Stack (BitVec 64)) (count : ℕ) :
    (closeHungupsLoop queue count w).1 = count + queue.length ∧
      (closeHungupsLoop queue count w).2.kernel.closed =
        w.kernel.closed ++ Kernel.closings w.kernel.files (queue.map wordToFd) := by
  induction queue generalizing count w with
  | nil => exact ⟨rfl, (List.append_nil _).symm⟩
  | cons v queue ih =>
    obtain ⟨hcount, hclosed⟩ := ih (w := endpointDisconnectClient (w.setQueue queue) (wordToFd v))
      (count + 1)
    constructor
    · rw [closeHungupsLoop, hcount, List.length_cons, Nat.add_right_comm, Nat.add_assoc]
    · exact hclosed.trans (closed_endpointDisconnectClient (queue.map wordToFd))

namespace Session

/-- `endpoint_close_hungups` calls `close` once for every reported connection that is open, calls it
on open descriptors only, and returns the number of client sockets that it closed. -/
def ClosesHungups (s : Session) : Prop :=
  let (count, w) := endpointCloseHungups s.toWorld
  ∃ closed, w.kernel.closed = s.kernel.closed ++ closed ∧
    (∀ fd, ∀ c ∈ s.reported, s.kernel.files fd = some (.conn c) →
      (closed.map Prod.fst).count fd = 1) ∧
    (∀ p ∈ closed, p.2 ≠ none) ∧
    count = closed.countP fun p => p.2.any File.isConn

/-- Every queued number denotes an open connection that was reported. -/
def QueueOpen (s : Session) : Prop :=
  ∀ fd ∈ s.queued, ∃ c ∈ s.reported, s.kernel.files fd = some (.conn c)

/-- `endpoint_close_hungups` goes right exactly when no number stands on the queue twice. -/
lemma closesHungups_iff (hH : s.HangupsQueued) (hQ : s.QueueOpen) :
    s.ClosesHungups ↔ s.queued.Nodup := by
  obtain ⟨hcount, hclosed⟩ := closed_closeHungupsLoop (w := s.toWorld) s.endpoint.disconnectQueue 0
  have hfst := Kernel.map_fst_closings s.kernel.files s.queued
  constructor
  · rintro ⟨closed, hclosed', hone, -, -⟩
    obtain rfl : closed = Kernel.closings s.kernel.files s.queued :=
      List.append_cancel_left (hclosed'.symm.trans hclosed)
    rw [List.nodup_iff_count_eq_one]
    intro fd hfd
    obtain ⟨c, hc, hopen⟩ := hQ fd hfd
    rw [← hone fd c hc hopen, hfst]
  · intro hnodup
    have hopen : ∀ p ∈ Kernel.closings s.kernel.files s.queued, ∃ c, p.2 = some (.conn c) := by
      intro p hp
      rw [Kernel.closings_of_nodup hnodup] at hp
      obtain ⟨fd, hfd, rfl⟩ := List.mem_map.mp hp
      obtain ⟨c, -, hopen⟩ := hQ fd hfd
      exact ⟨c, hopen⟩
    refine ⟨_, hclosed, fun fd c hc hfd => ?_, fun p hp => ?_, ?_⟩
    · have hmem : fd ∈ s.queued := hH.queued c hc fd hfd
      have := List.nodup_iff_count_eq_one.mp hnodup fd hmem
      exact hfst.symm ▸ this
    · obtain ⟨c, hc⟩ := hopen p hp
      rw [hc]
      exact nofun
    · refine hcount.trans ?_
      have hall : (Kernel.closings s.kernel.files s.queued).countP
          (fun p => p.2.any File.isConn) = (Kernel.closings s.kernel.files s.queued).length := by
        rw [List.countP_eq_length]
        intro p hp
        obtain ⟨c, hc⟩ := hopen p hp
        rw [hc]
        rfl
      refine Eq.trans ?_ hall.symm
      rw [← List.length_map Prod.fst, hfst, World.queued, List.length_map, Nat.zero_add]

/-! ### Sequences of calls -/

/-- A call of `endpoint_accept`, `endpoint_wait_event` or `endpoint_close_hungups`. -/
def stepHangup (s : Session) : EndpointCall → Option Session
  | .disconnectClient _ | .disconnectAllClients => none
  | call                                        => s.step call

/-- No hang-up is reported that was reported before. -/
def ReportsNew (s : Session) : EndpointCall → Prop
  | .waitEvent _ _ _ answer =>
    (hungups s.kernel (answer.getD [])).Nodup ∧
      ∀ c ∈ hungups s.kernel (answer.getD []), c ∉ s.reported
  | _ => True

instance (s : Session) : (call : EndpointCall) → Decidable (s.ReportsNew call)
  | .waitEvent .. => inferInstanceAs (Decidable (_ ∧ _))
  | .arrive | .accept .. | .closeHungups | .disconnectClient _ | .disconnectAllClients =>
    .isTrue trivial

/-- The invariant of the three calls. -/
structure QueueInv (s : Session) : Prop where
  registry : s.Registry
  hangups : s.HangupsQueued
  queueOpen : s.QueueOpen

lemma step_of_stepHangup (h : s.stepHangup call = some s') :
    s.step call = some s' ∧ s.stepAny call = some s' := by
  cases call with
  | disconnectClient | disconnectAllClients => cases h
  | arrive | accept | waitEvent | closeHungups => exact ⟨h, h⟩

/-- A report of a new hang-up is one of a number that is not queued. -/
lemma QueueInv.reportsNew_iff {batch : List (Fd × BitVec 32)} (h : s.QueueInv)
    (hsome : ∀ fd ∈ hungupFds batch, ∃ c, connOf s.kernel fd = some c) :
    ((hungups s.kernel batch).Nodup ∧ ∀ c ∈ hungups s.kernel batch, c ∉ s.reported) ↔
      (hungupFds batch).Nodup ∧ ∀ fd ∈ hungupFds batch, fd ∉ s.queued := by
  rw [hungups_eq, nodup_filterMap_iff hsome fun fd fd' c hc hc' =>
    s.kernel.valid.unique (connOf_eq_some.mp hc) (connOf_eq_some.mp hc')]
  apply and_congr_right
  intro _
  constructor
  · intro hnew fd hfd hqueue
    obtain ⟨c, hc, hopen⟩ := h.queueOpen fd hqueue
    exact hnew c (List.mem_filterMap.mpr ⟨fd, hfd, connOf_eq_some.mpr hopen⟩) hc
  · intro hnew c hc hreported
    obtain ⟨fd, hfd, hopen⟩ := List.mem_filterMap.mp hc
    exact hnew fd hfd (h.hangups.queued c hreported fd (connOf_eq_some.mp hopen))

section WaitEvent

variable {socketFds : List Fd} {eventFlags : List (BitVec 32)} {maxEvents : ℤ}
variable {answer : Option (List (Fd × BitVec 32))}
variable {result : ℤ × List Fd × List (BitVec 32) × World} (h : s.QueueInv)
variable (hresult : endpointWaitEvent s.toWorld socketFds eventFlags maxEvents answer = some result)
include h hresult

/-- Behind `endpoint_wait_event`, a queued number denotes a connection that it reported, or that was
reported before. -/
lemma QueueInv.queueOpen_waitEvent (hfd : fd ∈ result.2.2.2.queued) :
    ∃ c ∈ s.reported ++ hungups s.kernel (answer.getD []),
      result.2.2.2.kernel.files fd = some (.conn c) := by
  rw [queued_endpointWaitEvent h.registry.tracked hresult, List.mem_append, List.mem_reverse] at hfd
  rw [(h.registry.waitEvent hresult).2.1]
  rcases hfd with hnew | hold
  · obtain ⟨c, hc⟩ := exists_of_mem_hungupFds h.registry hresult hnew
    refine ⟨c, List.mem_append_right _ ?_, connOf_eq_some.mp hc⟩
    rw [hungups_eq]
    exact List.mem_filterMap.mpr ⟨fd, hnew, hc⟩
  · obtain ⟨c, hc, hopen⟩ := h.queueOpen fd hold
    exact ⟨c, List.mem_append_left _ hc, hopen⟩

/-- The numbers on the queue stay different exactly when no hang-up is reported again. -/
lemma QueueInv.nodup_waitEvent (hnodup : s.queued.Nodup) : result.2.2.2.queued.Nodup ↔
    s.ReportsNew (.waitEvent socketFds eventFlags maxEvents answer) := by
  have hnew := h.reportsNew_iff fun fd hfd => exists_of_mem_hungupFds h.registry hresult hfd
  refine Iff.trans ?_ hnew.symm
  rw [queued_endpointWaitEvent h.registry.tracked hresult, List.nodup_append', List.nodup_reverse]
  constructor
  · rintro ⟨hnew, -, hdisjoint⟩
    exact ⟨hnew, fun fd hfd => hdisjoint (List.mem_reverse.mpr hfd)⟩
  · rintro ⟨hnew, hfresh⟩
    exact ⟨hnew, hnodup, fun fd hfd => hfresh fd (List.mem_reverse.mp hfd)⟩

end WaitEvent

/-- Every call keeps the invariant. The numbers on the queue stay different exactly when the call
reports no hang-up again. -/
lemma QueueInv.step (h : s.QueueInv) (hstep : s.stepHangup call = some s') :
    s'.QueueInv ∧ (s.queued.Nodup → (s'.queued.Nodup ↔ s.ReportsNew call)) := by
  obtain ⟨hstep₁, hstep₂⟩ := step_of_stepHangup hstep
  have hI := h.registry.step hstep₁
  have hH := h.hangups.step hstep₂
  suffices hgoal : s'.QueueOpen ∧ (s.queued.Nodup → (s'.queued.Nodup ↔ s.ReportsNew call)) from
    ⟨⟨hI, hH, hgoal.1⟩, hgoal.2⟩
  cases call with
  | arrive =>
    cases hstep
    exact ⟨h.queueOpen, fun hnodup => iff_of_true hnodup trivial⟩
  | accept =>
    obtain ⟨result, hresult, rfl⟩ := Option.map_eq_some_iff.mp hstep
    obtain ⟨-, hqueue, -⟩ := h.registry.accept hresult
    have hqueued : result.2.2.queued = s.queued := by rw [World.queued, hqueue, World.queued]
    constructor
    · intro fd hfd
      obtain ⟨c, hc, hopen⟩ := h.queueOpen fd (hqueued ▸ hfd)
      have hused : s.kernel.files fd ≠ none := by simp [hopen]
      exact ⟨c, hc, ((endpointAccept_keeps h.registry hresult).1 fd hused).trans hopen⟩
    · intro hnodup
      have hnodup' : result.2.2.queued.Nodup := hqueued ▸ hnodup
      exact iff_of_true hnodup' trivial
  | waitEvent socketFds eventFlags maxEvents answer =>
    obtain ⟨result, hresult, rfl⟩ := Option.map_eq_some_iff.mp hstep
    constructor
    · intro fd hfd
      exact h.queueOpen_waitEvent hresult hfd
    · intro hnodup
      exact h.nodup_waitEvent hresult hnodup
  | closeHungups =>
    cases hstep
    obtain ⟨hnil, -⟩ := World.closeHungupsLoop_spec (w := s.toWorld) _ 0 rfl
    have hqueued : (endpointCloseHungups s.toWorld).2.queued = [] := by
      rw [World.queued]
      exact congrArg (List.map wordToFd) hnil
    constructor
    · intro fd hfd
      have hfd : fd ∈ (endpointCloseHungups s.toWorld).2.queued := hfd
      rw [hqueued] at hfd
      cases hfd
    · intro _
      have hnodup : (endpointCloseHungups s.toWorld).2.queued.Nodup := hqueued ▸ List.nodup_nil
      exact iff_of_true hnodup trivial
  | disconnectClient | disconnectAllClients => cases hstep

lemma QueueInv.initial (h : endpointSystem.init s) : s.QueueInv ∧ s.queued = [] := by
  obtain ⟨k, srvFd, epListener, epSelector, shutdownFd, hconn, hcreate, hreported⟩ := h
  have hI := World.Registry.create hconn hcreate
  have hqueued : s.queued = [] := by
    rw [World.queued, (World.endpointCreate_spec hcreate).1]
    rfl
  refine ⟨⟨hI, ⟨hI.tracked, ?_, ?_⟩, ?_⟩, hqueued⟩
  · rw [hreported]
    exact nofun
  · rw [hreported]
    exact nofun
  · intro fd hfd
    rw [hqueued] at hfd
    cases hfd

end Session

/-- The three calls in any order. -/
def hangupSystem : LTS Session EndpointCall where
  init := endpointSystem.init
  step := Session.stepHangup

variable {s₀ : Session} {calls : List EndpointCall}

/-- In every state of a run of the three calls, `endpoint_close_hungups` closes each reported
connection that is open once, calls `close` on open descriptors only, and returns the number of
client sockets that it closed, exactly when no call of the run reports a hang-up again. -/
theorem close_hungups_counts_iff (h₀ : hangupSystem.init s₀) :
    (hangupSystem.RunMeeting (fun s _ => s.ClosesHungups) s₀ calls s ∧ s.ClosesHungups) ↔
      hangupSystem.RunMeeting Session.ReportsNew s₀ calls s := by
  obtain ⟨hinv₀, hnil⟩ := Session.QueueInv.initial h₀
  have hcloses : ∀ {s : Session}, s.QueueInv → (s.ClosesHungups ↔ s.queued.Nodup) :=
    fun hinv => Session.closesHungups_iff hinv.hangups hinv.queueOpen
  have hright₀ : s₀.ClosesHungups := by
    rw [hcloses hinv₀, hnil]
    exact List.nodup_nil
  refine LTS.runMeeting_iff hinv₀ hright₀ (fun s a s' hinv hstep => (hinv.step hstep).1) ?_
  intro s a s' hinv hright hstep
  obtain ⟨hinv', hnodup⟩ := hinv.step hstep
  rw [hcloses hinv']
  exact hnodup ((hcloses hinv).mp hright)

/-- Two clients hang up and are closed. -/
theorem close_hungups_counts_iff_two : ∃ s₀ calls s, hangupSystem.init s₀ ∧
    hangupSystem.Run s₀ calls s ∧ s.reported = [0, 1] ∧ s.ClosesHungups := by
  let calls : List EndpointCall :=
    [.arrive, .arrive, .accept [0, 0] 2 EPOLLIN 0 16 (some EPOLLIN) [7, 8],
      .waitEvent [0] [0] 1 (some [(7, EPOLLRDHUP)]),
      .waitEvent [0] [0] 1 (some [(8, EPOLLIN ||| EPOLLRDHUP)])]
  have hrun : ((endpointCreate .initial 3 4 5 6).bind fun w =>
      (hangupSystem.execMeeting (fun s call => decide (s.ReportsNew call)) ⟨w, []⟩ calls).map
        fun s => s.reported) = some [0, 1] := by decide +kernel
  simp only [Option.bind_eq_some_iff, Option.map_eq_some_iff] at hrun
  obtain ⟨w, hw, s, hs, hreported⟩ := hrun
  have hinit : hangupSystem.init ⟨w, []⟩ := ⟨.initial, 3, 4, 5, 6, nofun, hw, rfl⟩
  have hmeets := LTS.runMeeting_of_exec hs fun _ _ => of_decide_eq_true
  exact ⟨⟨w, []⟩, calls, s, hinit, hmeets.run, hreported,
    ((close_hungups_counts_iff hinit).mpr hmeets).2⟩

/-- A hang-up is reported twice: its number is closed twice, and two clients are counted. -/
theorem close_hungups_counts_twice : ¬ ∀ (s₀ : Session) (calls : List EndpointCall) (s : Session),
    hangupSystem.init s₀ → hangupSystem.Run s₀ calls s → s.ClosesHungups := by
  intro hall
  let calls : List EndpointCall :=
    [.arrive, .accept [0] 1 EPOLLIN 0 16 (some EPOLLIN) [7],
      .waitEvent [0] [0] 1 (some [(7, EPOLLRDHUP)]), .waitEvent [0] [0] 1 (some [(7, EPOLLRDHUP)])]
  have hrun : ((endpointCreate .initial 3 4 5 6).bind fun w =>
      (hangupSystem.exec ⟨w, []⟩ calls).map fun s =>
        (s.kernel.closed, (endpointCloseHungups s.toWorld).2.kernel.closed)) =
      some ([], [(7, some (.conn 0)), (7, none)]) := by decide +kernel
  simp only [Option.bind_eq_some_iff, Option.map_eq_some_iff, Prod.mk.injEq] at hrun
  obtain ⟨w, hw, s, hs, hbefore, hafter⟩ := hrun
  have hinit : hangupSystem.init ⟨w, []⟩ := ⟨.initial, 3, 4, 5, 6, nofun, hw, rfl⟩
  obtain ⟨closed, hclosed, -, hopen, -⟩ := hall _ calls s hinit (LTS.run_of_exec hs)
  have hclosed := hafter.symm.trans hclosed
  rw [hbefore, List.nil_append] at hclosed
  refine hopen (7, none) ?_ rfl
  rw [← hclosed]
  simp

end C10K
