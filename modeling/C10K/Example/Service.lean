import C10K.Example.Invariants
import C10K.Lib.Readiness

/-!
# The example server serves first come, first served, and leaves nobody behind

Each connection that no `accept` lost is passed to `send` and closed once, in the order in which
they came. As long as `accept` fails only when no connection waits, the program is an edge-triggered
server that loses no wake-up: at each timeout of `epoll_wait` all connections that ever came in are
served.
-/

namespace C10K

namespace ExampleServer

variable {s s' : ExampleServer} {a : ExampleAct}

/-- The connection in the hand of the side thread. -/
def inHand (s : ExampleServer) : Option ℕ :=
  s.sidePc.hand.bind fun fd => (s.kernel.files fd).bind File.conn?

/-- The connection that was passed to `send` and is not closed yet. -/
def greeted (s : ExampleServer) : Option ℕ :=
  match s.sidePc with
  | .shutdown _ | .close _ => s.inHand
  | _                      => none

/-- What `send` gets for a connection. -/
def toClient (c : ℕ) : Option File × List UInt8 := (some (.conn c), greeting)

/-- The connections that were served, the one that is being served, and those that wait, in the
order in which they came, are those that were not lost; and what `send` got for them. -/
structure Served (s : ExampleServer) : Prop where
  order : s.kernel.closedConns ++ s.inHand.toList ++ s.kernel.backlog =
    (List.range s.kernel.arrived).filter (· ∉ s.kernel.lost)
  sends : (s.sends.map fun call => (call.file, call.msg)) =
    (s.kernel.closedConns ++ s.greeted.toList).map toClient

lemma Served.congr (h : s.Served) (hclosed : s'.kernel.closedConns = s.kernel.closedConns)
    (hinHand : s'.inHand = s.inHand) (hbacklog : s'.kernel.backlog = s.kernel.backlog)
    (hlost : s'.kernel.lost = s.kernel.lost) (harrived : s'.kernel.arrived = s.kernel.arrived)
    (hgreeted : s'.greeted = s.greeted) (hsends : s'.sends = s.sends) : s'.Served := by
  constructor
  · rw [hclosed, hinHand, hbacklog, hlost, harrived]
    exact h.order
  · rw [hsends, hclosed, hgreeted]
    exact h.sends

lemma inHand_of_hand (h : s.sidePc.hand = none) : s.inHand = none := by
  rw [inHand, h]
  rfl

lemma greeted_of_hand (h : s.sidePc.hand = none) : s.greeted = none := by
  unfold greeted
  split
  · exact inHand_of_hand h
  · exact inHand_of_hand h
  · rfl

/-- Nobody is served before the step or after it. -/
lemma Served.idle (h : s.Served) (hhand : s.sidePc.hand = none) (hhand' : s'.sidePc.hand = none)
    (hclosed : s'.kernel.closedConns = s.kernel.closedConns)
    (hbacklog : s'.kernel.backlog = s.kernel.backlog) (hlost : s'.kernel.lost = s.kernel.lost)
    (harrived : s'.kernel.arrived = s.kernel.arrived) (hsends : s'.sends = s.sends) : s'.Served :=
  h.congr hclosed ((inHand_of_hand hhand').trans (inHand_of_hand hhand).symm) hbacklog hlost
    harrived ((greeted_of_hand hhand').trans (greeted_of_hand hhand).symm) hsends

lemma closedConns_congr {k k' : Kernel Fd} (h : k'.closed = k.closed) :
    k'.closedConns = k.closedConns := by
  rw [Kernel.closedConns, h, Kernel.closedConns]

/-- Closing what is no connection. -/
lemma closedConns_close_of_ne {k : Kernel Fd} {fd : Fd} {file : File}
    (hfd : k.files fd = some file) (hfile : file.conn? = none) :
    (k.close fd).closedConns = k.closedConns := by
  rw [Kernel.closedConns_close, hfd, Option.bind_some, hfile, Option.toList_none, List.append_nil]

lemma filter_ne_middle {c : ℕ} {l₁ l₂ : List ℕ} (h : (l₁ ++ c :: l₂).Nodup) :
    (l₁ ++ c :: l₂).filter (· ≠ c) = l₁ ++ l₂ := by
  obtain ⟨hc, -⟩ := List.nodup_cons.mp (List.nodup_middle.mp h)
  have hne : ∀ c' ∈ l₁ ++ l₂, decide (c' ≠ c) = true := fun c' hc' =>
    decide_eq_true (ne_of_mem_of_not_mem hc' hc)
  rw [List.filter_append, List.filter_cons_of_neg (by simp), ← List.filter_append,
    List.filter_eq_self.mpr hne]

/-- A connection that comes in waits behind the others. -/
lemma Served.arrive (h : s.Served) : s.arrive.Served := by
  have hnew : s.kernel.arrived ∉ s.kernel.lost := fun hlost =>
    lt_irrefl _ (s.kernel.valid.waiting (List.mem_append_right _ hlost)).1
  constructor
  · change s.kernel.closedConns ++ s.inHand.toList ++ (s.kernel.backlog ++ [s.kernel.arrived]) =
      (List.range (s.kernel.arrived + 1)).filter (· ∉ s.kernel.lost)
    have hlast : [s.kernel.arrived].filter (· ∉ s.kernel.lost) = [s.kernel.arrived] := by
      simp [hnew]
    rw [← List.append_assoc, h.order, List.range_succ, List.filter_append, hlast]
  · exact h.sends

/-- A connection is lost. -/
lemma Served.acceptLost (h : s.Served) (hpc : s.sidePc = .accept) {fd : Fd} {kernel : Kernel Fd}
    (hlose : s.kernel.lose s.srvFd fd = some kernel) :
    Served { s with kernel, sidePc := .epollWait } := by
  have hhand : s.sidePc.hand = none := by rw [hpc]; rfl
  have hclosed := closedConns_congr (Kernel.closed_lose hlose)
  have harrived := (Kernel.evolves_lose hlose).arrived_eq
  obtain ⟨c, backlog, hbacklog, -, hbacklog', hlost, -, -⟩ := Kernel.lose_spec hlose
  have horder := h.order
  rw [inHand_of_hand hhand, Option.toList_none, List.append_nil, hbacklog] at horder
  have hnodup : (s.kernel.closedConns ++ c :: backlog).Nodup :=
    horder ▸ List.nodup_range.filter _
  constructor
  · change kernel.closedConns ++ [] ++ kernel.backlog =
      (List.range kernel.arrived).filter (· ∉ kernel.lost)
    calc kernel.closedConns ++ [] ++ kernel.backlog
      _ = s.kernel.closedConns ++ backlog := by rw [hclosed, hbacklog', List.append_nil]
      _ = (s.kernel.closedConns ++ c :: backlog).filter (· ≠ c) := (filter_ne_middle hnodup).symm
      _ = ((List.range s.kernel.arrived).filter (· ∉ s.kernel.lost)).filter (· ≠ c) := by
        rw [horder]
      _ = (List.range kernel.arrived).filter (· ∉ kernel.lost) := by
        rw [List.filter_filter, harrived, hlost]
        refine List.filter_congr fun c' _ => ?_
        simp [and_comm]
  · have hsends := h.sends
    rw [greeted_of_hand hhand] at hsends
    change (s.sends.map fun call => (call.file, call.msg)) = (kernel.closedConns ++ []).map toClient
    rw [hsends, hclosed]
    rfl

lemma Served.step (h : s.Served) (hI : s.Inv) (hstep : s.step a = some s') : s'.Served := by
  cases Rule.of_step hstep with
  | arrive => exact h.arrive
  | addServer hpc =>
    have hhand : s.sidePc.hand = none := by rw [hI.started.mpr (by rw [hpc]; decide)]; rfl
    exact h.idle hhand hhand (closedConns_congr Kernel.closed_epollAdd) Kernel.backlog_epollAdd
      Kernel.lost_epollAdd Kernel.arrived_epollAdd rfl
  | eventfd hpc hopen =>
    have hhand : s.sidePc.hand = none := by rw [hI.started.mpr (by rw [hpc]; decide)]; rfl
    unfold openFd Kernel.openFile at hopen
    split_ifs at hopen
    cases hopen
    exact h.idle hhand hhand rfl rfl rfl rfl rfl
  | createThread hpc =>
    have hhand : s.sidePc.hand = none := by rw [hI.started.mpr (by rw [hpc]; decide)]; rfl
    exact h.idle hhand rfl rfl rfl rfl rfl rfl
  | read | join | sigpipe => exact h.congr rfl rfl rfl rfl rfl rfl rfl
  | addSignaler hpc =>
    have hinHand : inHand { s with
        kernel := s.kernel.epollAdd s.epInstance s.signaler (signalerEvents s.signaler)
        mainPc := .join } = s.inHand := by
      rw [inHand, inHand, Kernel.files_epollAdd]
    refine h.congr (closedConns_congr Kernel.closed_epollAdd) hinHand Kernel.backlog_epollAdd
      Kernel.lost_epollAdd Kernel.arrived_epollAdd ?_ rfl
    rw [greeted, greeted, hinHand]
  | closeSignaler hpc =>
    have hhand : s.sidePc.hand = none := by rw [hI.joined (by rw [hpc]; decide)]; rfl
    have hfile := (hI.tableAt hpc).signalerOpen (by decide) (by decide)
    exact h.idle hhand hhand (closedConns_close_of_ne hfile rfl) rfl rfl rfl rfl
  | closeInstance hpc =>
    have hhand : s.sidePc.hand = none := by rw [hI.joined (by rw [hpc]; decide)]; rfl
    have hfile := (hI.tableAt hpc).instanceOpen (by decide)
    exact h.idle hhand hhand (closedConns_close_of_ne hfile rfl) rfl rfl rfl rfl
  | failed hpc | interrupted hpc | timeout hpc | report hpc | acceptNone hpc | again hpc | leave hpc
  | connect hpc =>
    have hhand : s.sidePc.hand = none := by rw [hpc]; rfl
    exact h.idle hhand rfl rfl rfl rfl rfl rfl
  | acceptLost hpc _ hlose => exact h.acceptLost hpc hlose
  | @acceptSome _ fd kernel hpc _ _ haccept =>
    have hhand : s.sidePc.hand = none := by rw [hpc]; rfl
    have hclosed := closedConns_congr (Kernel.closed_accept haccept)
    have harrived := (Kernel.evolves_accept haccept).arrived_eq
    obtain ⟨c, backlog, hbacklog, -, hbacklog', hfiles, -⟩ := Kernel.accept_spec haccept
    have horder := h.order
    rw [inHand_of_hand hhand, Option.toList_none, List.append_nil, hbacklog] at horder
    constructor
    · change kernel.closedConns ++ ((kernel.files fd).bind File.conn?).toList ++ kernel.backlog =
        (List.range kernel.arrived).filter (· ∉ kernel.lost)
      rw [hclosed, harrived, Kernel.lost_accept haccept, hbacklog', hfiles, Function.update_self,
        ← horder, List.append_assoc]
      rfl
    · have hsends := h.sends
      rw [greeted_of_hand hhand] at hsends
      change (s.sends.map fun call => (call.file, call.msg)) =
        (kernel.closedConns ++ []).map toClient
      rw [hsends, hclosed]
      rfl
  | @send fd _ sent hpc =>
    obtain ⟨-, htable⟩ := hI.running hpc (by rintro ⟨⟩) (by rintro ⟨⟩)
    obtain ⟨c, hc⟩ := htable.hand fd rfl
    constructor
    · have horder := h.order
      rw [inHand, hpc] at horder
      exact horder
    · have hsends := h.sends
      have hgreeted : s.greeted = none := by rw [greeted, hpc]
      rw [hgreeted, Option.toList_none, List.append_nil] at hsends
      change ((s.sends ++ [SendCall.mk (s.kernel.files fd) greeting sent]).map fun call =>
        (call.file, call.msg)) =
          (s.kernel.closedConns ++ ((s.kernel.files fd).bind File.conn?).toList).map toClient
      rw [List.map_append, hsends, hc, List.map_append]
      rfl
  | @shutdown fd hpc =>
    refine h.congr rfl ?_ rfl rfl rfl ?_ rfl
    · rw [inHand, inHand, hpc]
      rfl
    · rw [greeted, greeted, hpc, inHand, inHand, hpc]
      rfl
  | @close fd hpc =>
    obtain ⟨-, htable⟩ := hI.running hpc (by rintro ⟨⟩) (by rintro ⟨⟩)
    obtain ⟨c, hc⟩ := htable.hand fd rfl
    have hinHand : s.inHand = some c := by
      rw [inHand, hpc]
      change (s.kernel.files fd).bind File.conn? = some c
      rw [hc]
      rfl
    have hclosed : (s.kernel.close fd).closedConns = s.kernel.closedConns ++ [c] := by
      rw [Kernel.closedConns_close, hc]
      rfl
    constructor
    · have horder := h.order
      rw [hinHand] at horder
      change (s.kernel.close fd).closedConns ++ [] ++ s.kernel.backlog =
        (List.range s.kernel.arrived).filter (· ∉ s.kernel.lost)
      rw [hclosed, List.append_nil]
      exact horder
    · have hsends := h.sends
      have hgreeted : s.greeted = s.inHand := by rw [greeted, hpc]
      rw [hgreeted, hinHand] at hsends
      change (s.sends.map fun call => (call.file, call.msg)) =
        ((s.kernel.close fd).closedConns ++ []).map toClient
      rw [hclosed, List.append_nil]
      exact hsends

/-- No connection came in before the listening socket was created. -/
lemma kernel_initial {k k₁ k₂ : Kernel Fd} {epInstance srvFd : Fd} (hk : k.Fresh)
    (h₁ : openFd k epInstance .epoll = some k₁) (h₂ : openFd k₁ srvFd .listener = some k₂) :
    k₂.closedConns = [] ∧ (k₂.backlog = [] ∧ k₂.lost = []) ∧ k₂.arrived = 0 := by
  have hsame : ∀ {k k' : Kernel Fd} {fd file}, openFd k fd file = some k' →
      k'.closed = k.closed ∧ k'.backlog = k.backlog ∧ k'.lost = k.lost ∧
        k'.arrived = k.arrived := by
    intro k k' fd file h
    unfold openFd Kernel.openFile at h
    split_ifs at h
    cases h
    exact ⟨rfl, rfl, rfl, rfl⟩
  obtain ⟨hclosed₁, hbacklog₁, hlost₁, harrived₁⟩ := hsame h₁
  obtain ⟨hclosed₂, hbacklog₂, hlost₂, harrived₂⟩ := hsame h₂
  refine ⟨?_, ?_, ?_⟩
  · rw [Kernel.closedConns, hclosed₂, hclosed₁, hk.closed]
    rfl
  · rw [hbacklog₂, hbacklog₁, hlost₂, hlost₁, ← List.append_eq_nil_iff,
      List.eq_nil_iff_forall_not_mem]
    intro c hc
    exact Nat.not_lt_zero c (hk.arrived ▸ (k.valid.waiting hc).1)
  · rw [harrived₂, harrived₁, hk.arrived]

lemma Served.initial {k : Kernel Fd} {epInstance srvFd : Fd} (hclosed : k.closedConns = [])
    (hbacklog : k.backlog = []) (harrived : k.arrived = 0) :
    (initial k epInstance srvFd).Served := by
  constructor
  · change k.closedConns ++ [] ++ k.backlog = (List.range k.arrived).filter (· ∉ k.lost)
    rw [hclosed, hbacklog, harrived]
    rfl
  · change [] = (k.closedConns ++ []).map toClient
    rw [hclosed]
    rfl

lemma Served.of_reachable (h : exampleSystem.Reachable s) : s.Served := by
  have hboth : s.Inv ∧ s.Served := by
    apply h.invariant (I := fun s => s.Inv ∧ s.Served)
    · rintro s ⟨k, k₁, k₂, epInstance, srvFd, hk, h₁, h₂, rfl⟩
      obtain ⟨hclosed, ⟨hbacklog, -⟩, harrived⟩ := kernel_initial hk h₁ h₂
      exact ⟨Inv.initial hk h₁ h₂, Served.initial hclosed hbacklog harrived⟩
    · rintro s a s' ⟨hI, hS⟩ hstep
      exact ⟨hI.step hstep, hS.step hI hstep⟩
  exact hboth.2

/-! ### No wake-up is lost -/

/-- The side thread saw the entry of the listening socket and did not call `epoll_wait` again. -/
def draining (s : ExampleServer) : Bool :=
  match s.sidePc with
  | .test count _ => count = 1 ∧ s.event = some s.srvFd
  | .accept | .send _ | .shutdown _ | .close _ => true
  | .notStarted | .epollWait | .returned => false

/-- `accept` fails only when no connection waits. -/
def AcceptsAll (s : ExampleServer) : ExampleAct → Prop
  | .accept _ none         => s.kernel.backlog = []
  | .accept prior (some _) => 0 ≤ (s.clientAddressLen.getD prior).toInt
  | _                      => True

instance (s : ExampleServer) : DecidablePred s.AcceptsAll := fun a => by
  unfold AcceptsAll
  split <;> infer_instance

/-- The program stands where the edge-triggered server stands. While the listening socket is listed,
it is on the ready list when the flag is raised, unless no connection waits. No connection is
lost. -/
structure Serves (s : ExampleServer) (t : EdgeServer ℕ) : Prop where
  arrived : t.arrived = List.range s.kernel.arrived
  waiting : t.waiting = s.kernel.backlog
  lost : s.kernel.lost = []
  awake : t.awake = s.draining
  raised : 1 ≤ s.mainPc.rank → s.mainPc.rank < 8 → (s.onReadyList = true → t.raised = true) ∧
    (t.raised = true → s.onReadyList = true ∨ s.kernel.backlog = [])

variable {t : EdgeServer ℕ}

/-- The edge-triggered server does not see the step. -/
lemma Serves.stay (h : s.Serves t) (harrived : s'.kernel.arrived = s.kernel.arrived)
    (hbacklog : s'.kernel.backlog = s.kernel.backlog) (hlost : s'.kernel.lost = s.kernel.lost)
    (hdraining : s'.draining = s.draining)
    (hlist : s'.onReadyList = s.onReadyList)
    (hrank : 1 ≤ s'.mainPc.rank → s'.mainPc.rank < 8 → 1 ≤ s.mainPc.rank ∧ s.mainPc.rank < 8) :
    s'.Serves t := by
  constructor
  · rw [harrived]
    exact h.arrived
  · rw [hbacklog]
    exact h.waiting
  · rw [hlost]
    exact h.lost
  · rw [hdraining]
    exact h.awake
  · intro hr hr'
    rw [hlist, hbacklog]
    exact h.raised (hrank hr hr').1 (hrank hr hr').2

lemma Serves.arrive (h : s.Serves t) (hI : s.Inv) :
    s.arrive.Serves (t.arrive s.kernel.arrived) := by
  constructor
  · change t.arrived ++ [s.kernel.arrived] = List.range (s.kernel.arrived + 1)
    rw [h.arrived, List.range_succ]
  · exact congrArg (· ++ [s.kernel.arrived]) h.waiting
  · exact h.lost
  · exact h.awake
  · intro hr hr'
    refine ⟨fun _ => rfl, fun _ => .inl ?_⟩
    simp only [ExampleServer.arrive, hI.table.serverEntry hr hr', Option.isSome_some, Bool.or_true]

/-- The connections that waited before the socket was listed put it on the ready list. -/
lemma Serves.addServer (h : s.Serves t) (hside : s.sidePc = .notStarted) :
    Serves { s with
      kernel := s.kernel.epollAdd s.epInstance s.srvFd (srvEvents s.srvFd)
      onReadyList := !s.kernel.backlog.isEmpty
      mainPc := .eventfd } t := by
  constructor
  · rw [Kernel.arrived_epollAdd]
    exact h.arrived
  · rw [Kernel.backlog_epollAdd]
    exact h.waiting
  · rw [Kernel.lost_epollAdd]
    exact h.lost
  · exact h.awake
  · intro _ _
    have hasleep : t.awake = false := by rw [h.awake, draining, hside]
    have hnoticed := t.noticed
    rw [h.waiting, hasleep] at hnoticed
    rw [Kernel.backlog_epollAdd, Bool.not_eq_true', List.isEmpty_eq_false_iff]
    exact ⟨fun hne => (hnoticed hne).resolve_right nofun, fun _ => em' _⟩

/-- An entry is reported. That of the listening socket wakes the edge-triggered server. -/
lemma Serves.report (h : s.Serves t) (hI : s.Inv) (hpc : s.sidePc = .epollWait) {fd : Fd}
    {e : EpollEvent Fd} (hpending : s.pending fd = some e) {s' : ExampleServer}
    (hs : s' = { s with
      event := some e.data
      onReadyList := s.onReadyList && e.events &&& EPOLLET == 0
      sidePc := .test 1 false }) :
    s'.Serves t ∨ ∃ b t', t.step b = some t' ∧ s'.Serves t' := by
  subst hs
  obtain ⟨hrank, htable⟩ := hI.running hpc nofun nofun
  obtain ⟨hlist, hraised⟩ := h.raised (by omega) (by omega)
  rcases hI.pending_spec hrank hpending with ⟨-, rfl, honList, -⟩ | ⟨-, rfl, hr⟩
  · obtain ⟨t', ht', harrived, -, hwaiting, hlowered, hawake⟩ :=
      EdgeServer.wake_spec (hlist honList)
    refine .inr ⟨.wake, t', ht', harrived.trans h.arrived, hwaiting.trans h.waiting, h.lost, ?_, ?_⟩
    · rw [hawake]
      exact (decide_eq_true ⟨rfl, rfl⟩).symm
    · intro _ _
      simp only [hlowered, edge_srvEvents, Bool.and_false]
      exact ⟨nofun, nofun⟩
  · have hne := htable.signaler_ne (by omega) (by omega)
    refine .inl (h.stay rfl rfl rfl ?_ ?_ fun hr hr' => ⟨hr, hr'⟩)
    · rw [show s.draining = false by rw [draining, hpc]]
      exact decide_eq_false fun heq => hne (Option.some_inj.mp heq.2)
    · simp only [level_signalerEvents, Bool.and_true]

/-- The side thread accepts a connection. -/
lemma Serves.acceptSome (h : s.Serves t) (hpc : s.sidePc = .accept) {fd : Fd} {kernel : Kernel Fd}
    (haccept : s.kernel.accept s.srvFd fd = some kernel) :
    ∃ t', t.take = some t' ∧ Serves { s with
      kernel
      clientAddressLen := some sizeofSockaddrIn
      sidePc := .send fd } t' := by
  obtain ⟨c, backlog, hbacklog, -, hbacklog', -, -⟩ := Kernel.accept_spec haccept
  have harrived := (Kernel.evolves_accept haccept).arrived_eq
  have hwaiting : t.waiting = c :: backlog := h.waiting.trans hbacklog
  have hawake : t.awake = true := by rw [h.awake, draining, hpc]
  obtain ⟨t', ht', harrived', -, hwaiting', hraised, hawake'⟩ :=
    EdgeServer.take_spec hwaiting hawake
  refine ⟨t', ht', ?_, ?_, (Kernel.lost_accept haccept).trans h.lost, hawake', ?_⟩
  · rw [harrived', harrived]
    exact h.arrived
  · rw [hwaiting', hbacklog']
  · intro hr hr'
    obtain ⟨hlist, hflag⟩ := h.raised hr hr'
    rw [hraised]
    refine ⟨hlist, fun hup => .inl ((hflag hup).resolve_right ?_)⟩
    rw [hbacklog]
    exact List.cons_ne_nil c backlog

/-- The edge-triggered server follows every step that meets the guard. -/
lemma Serves.step (h : s.Serves t) (hI : s.Inv) (hG : s.AcceptsAll a)
    (hstep : s.step a = some s') :
    s'.Serves t ∨ ∃ b t', t.step b = some t' ∧ s'.Serves t' := by
  cases Rule.of_step hstep with
  | arrive => exact .inr ⟨.arrive s.kernel.arrived, _, rfl, h.arrive hI⟩
  | addServer hpc => exact .inl (h.addServer (hI.started.mpr (by rw [hpc]; decide)))
  | eventfd hpc hopen =>
    unfold openFd Kernel.openFile at hopen
    split_ifs at hopen
    cases hopen
    exact .inl (h.stay rfl rfl rfl rfl rfl fun _ _ => by rw [hpc]; decide)
  | createThread hpc =>
    refine .inl (h.stay rfl rfl rfl ?_ rfl fun _ _ => by rw [hpc]; decide)
    rw [draining, draining, hI.started.mpr (by rw [hpc]; decide)]
  | read hpc | join hpc | closeSignaler hpc =>
    exact .inl (h.stay rfl rfl rfl rfl rfl fun _ _ => by rw [hpc]; decide)
  | addSignaler hpc =>
    exact .inl (h.stay Kernel.arrived_epollAdd Kernel.backlog_epollAdd Kernel.lost_epollAdd rfl rfl
      fun _ _ => by rw [hpc]; decide)
  | closeInstance hpc =>
    exact .inl (h.stay rfl rfl rfl rfl rfl fun _ hr => absurd hr (lt_irrefl 8))
  | failed hpc hfile =>
    obtain ⟨hrank, -⟩ := hI.running hpc (by rintro ⟨⟩) (by rintro ⟨⟩)
    exact absurd (hI.table.instanceOpen (by omega)) hfile
  | interrupted hpc | timeout hpc =>
    exact .inl (h.stay rfl rfl rfl (by rw [draining, draining, hpc]; rfl) rfl
      fun hr hr' => ⟨hr, hr'⟩)
  | report hpc hpending => exact h.report hI hpc hpending rfl
  | acceptNone hpc =>
    obtain ⟨t', ht', harrived, -, hwaiting, hraised, hawake⟩ :=
      EdgeServer.sleep_spec (h.waiting.trans hG)
    refine .inr
      ⟨.sleep, t', ht', harrived.trans h.arrived, hwaiting.trans h.waiting, h.lost, hawake, ?_⟩
    intro hr hr'
    rw [hraised]
    exact h.raised hr hr'
  | acceptLost _ hlen => exact absurd hG (Int.not_le.mpr hlen)
  | acceptSome hpc _ _ haccept =>
    obtain ⟨t', ht', hserves⟩ := h.acceptSome hpc haccept
    exact .inr ⟨.take, t', ht', hserves⟩
  | again hpc hrepeats =>
    refine .inl (h.stay rfl rfl rfl ?_ rfl fun hr hr' => ⟨hr, hr'⟩)
    rw [draining, draining, hpc]
    refine (decide_eq_false fun heq => ?_).symm
    rcases hrepeats with hzero | ⟨hminus, -⟩
    · exact absurd (heq.1.symm.trans hzero) (by decide)
    · exact absurd (heq.1.symm.trans hminus) (by decide)
  | leave hpc _ hsignaler =>
    obtain ⟨hrank, htable⟩ := hI.running hpc (by rintro ⟨⟩) (by rintro ⟨⟩)
    refine .inl (h.stay rfl rfl rfl ?_ rfl fun hr hr' => ⟨hr, hr'⟩)
    rw [draining, draining, hpc]
    refine (decide_eq_false fun heq => ?_).symm
    exact htable.signaler_ne (by omega) (by omega)
      (Option.some_inj.mp (hsignaler.symm.trans heq.2))
  | connect hpc hrepeats hevent hne =>
    refine .inl (h.stay rfl rfl rfl ?_ rfl fun hr hr' => ⟨hr, hr'⟩)
    rw [draining, draining, hpc]
    obtain ⟨hcount, -⟩ := (hI.tested _ _ hpc).resolve_left hrepeats
    have hsrv := (hI.event _ hevent).2.resolve_right fun heq => hne heq.1
    exact (decide_eq_true ⟨hcount, hsrv ▸ hevent⟩).symm
  | send hpc | shutdown hpc | close hpc =>
    exact .inl (h.stay rfl rfl rfl (by rw [draining, draining, hpc]) rfl fun hr hr' => ⟨hr, hr'⟩)
  | sigpipe => exact .inl (h.stay rfl rfl rfl rfl rfl fun hr hr' => ⟨hr, hr'⟩)

lemma Serves.of_reachable (h : exampleSystem.ReachableMeeting AcceptsAll s) :
    ∃ t : EdgeServer ℕ, (edgeSystem ℕ).Reachable t ∧ s.Serves t := by
  apply h.simulated
  · rintro s ⟨k, k₁, k₂, epInstance, srvFd, hk, h₁, h₂, rfl⟩
    obtain ⟨-, ⟨hbacklog, hlost⟩, harrived⟩ := kernel_initial hk h₁ h₂
    have hrank : ¬ 1 ≤ ExampleMainPc.addServer.rank := by decide
    refine ⟨.initial, rfl, ?_, hbacklog.symm, hlost, rfl, fun hr => absurd hr hrank⟩
    change [] = List.range k₂.arrived
    rw [harrived]
    rfl
  · intro s a s' t hs hserves hG hstep
    exact hserves.step (Inv.of_reachable hs) hG hstep

/-- The labels, taken from the start in a new process, lead to a state. Each call of `accept` is
tested for the guard. -/
lemma reachable_of_exec {P : ExampleServer → Prop} [DecidablePred P] (acts : List ExampleAct)
    (h : ((openFd .initial 3 .epoll).bind fun k => (openFd k 4 .listener).bind fun k =>
      exampleSystem.execMeeting (fun s a => decide (s.AcceptsAll a)) (initial k 3 4) acts).any
        (P ·) = true) : ∃ s, exampleSystem.ReachableMeeting AcceptsAll s ∧ P s := by
  obtain ⟨s, hs, hP⟩ := (Option.any_eq_true ..).mp h
  obtain ⟨k₁, h₁, hs⟩ := Option.bind_eq_some_iff.mp hs
  obtain ⟨k₂, h₂, hs⟩ := Option.bind_eq_some_iff.mp hs
  have hrun := LTS.runMeeting_of_exec (G := AcceptsAll) hs fun _ _ => of_decide_eq_true
  exact ⟨s, ⟨_, acts, ⟨_, k₁, k₂, 3, 4, ⟨rfl, rfl⟩, h₁, h₂, rfl⟩, hrun⟩, of_decide_eq_true hP⟩

end ExampleServer

open ExampleServer in
/-- Under every schedule the side thread serves the connections one at a time, in the order in which
they came: those that it closed are the first ones that no `accept` lost, each was passed to `send`
once before that, with the greeting, and no connection is open but the one that it serves. -/
theorem example_server_serves_in_order {s : ExampleServer} (h : exampleSystem.Reachable s) :
    s.kernel.closedConns ++ s.inHand.toList ++ s.kernel.backlog =
        (List.range s.kernel.arrived).filter (· ∉ s.kernel.lost) ∧
      (s.sends.map fun call => (call.file, call.msg)) =
        (s.kernel.closedConns ++ s.greeted.toList).map toClient ∧
      ∀ fd c, s.kernel.files fd = some (.conn c) → s.sidePc.hand = some fd := by
  have hserved := Served.of_reachable h
  exact ⟨hserved.order, hserved.sends, (Inv.of_reachable h).table.conn⟩

/-- The first of four connections is lost, and the second is gone when it is greeted. The third is
served while the fourth waits. -/
theorem example_server_serves_in_order_four : ∃ s : ExampleServer,
    s.sidePc = .close 6 ∧ s.kernel.arrived = 4 ∧ s.kernel.lost = [0] ∧
      s.sends.map SendCall.sent = [false, true] ∧
      s.kernel.closedConns ++ s.inHand.toList ++ s.kernel.backlog = [1, 2, 3] := by
  let acts : List ExampleAct :=
    [.arrive, .main, .eventfd 5, .main, .epollWait (.event 4), .sideProc, .accept (-1) (some 6),
      .arrive, .arrive, .arrive, .epollWait (.event 4), .sideProc, .accept 0 (some 6),
      .send .failed, .sideProc, .sideProc, .accept 0 (some 6), .send .sent, .sideProc]
  have hrun : ((openFd .initial 3 .epoll).bind fun k => (openFd k 4 .listener).bind fun k =>
      (exampleSystem.exec (.initial k 3 4) acts).map fun s =>
        (s.sidePc, s.kernel.arrived, s.kernel.lost, s.sends.map SendCall.sent)) =
      some (.close 6, 4, [0], [false, true]) := by decide +kernel
  simp only [Option.bind_eq_some_iff, Option.map_eq_some_iff, Prod.mk.injEq] at hrun
  obtain ⟨k₁, h₁, k₂, h₂, s, hs, hpc, harrived, hlost, hsends⟩ := hrun
  have hreach : exampleSystem.Reachable s :=
    ⟨_, acts, ⟨_, k₁, k₂, 3, 4, ⟨rfl, rfl⟩, h₁, h₂, rfl⟩, LTS.run_of_exec hs⟩
  have horder := (example_server_serves_in_order hreach).1
  rw [harrived, hlost] at horder
  exact ⟨s, hpc, harrived, hlost, hsends, horder⟩

open ExampleServer in
/-- As long as `accept` fails only when no connection waits, the edge-triggered entry loses no
wake-up: whenever the side thread calls `epoll_wait` while a connection waits, the listening socket
can be reported; and when the call times out, every connection that ever came in was passed to
`send` once, with the greeting, and closed. -/
theorem example_server_leaves_none {s s' : ExampleServer}
    (h : exampleSystem.ReachableMeeting AcceptsAll s) (hpc : s.sidePc = .epollWait) :
    (s.kernel.backlog ≠ [] → s.pending s.srvFd = some (srvEvents s.srvFd).watched) ∧
      (s.step (.epollWait .timeout) = some s' →
        s.kernel.closedConns = List.range s.kernel.arrived ∧
          (s.sends.map fun call => (call.file, call.msg)) =
            (List.range s.kernel.arrived).map toClient) := by
  have hI := Inv.of_reachable h.reachable
  have hS := Served.of_reachable h.reachable
  obtain ⟨t, -, hserves⟩ := Serves.of_reachable h
  obtain ⟨hrank, htable⟩ := hI.running hpc nofun nofun
  have hasleep : t.awake = false := by rw [hserves.awake, draining, hpc]
  have hpending : s.kernel.backlog ≠ [] →
      s.pending s.srvFd = some (srvEvents s.srvFd).watched := by
    intro hne
    have hraised := (t.noticed (hserves.waiting ▸ hne)).resolve_right (by rw [hasleep]; exact nofun)
    have honList := ((hserves.raised (by omega) (by omega)).2 hraised).resolve_right hne
    have hreadable : s.readable s.srvFd = true := by
      simp only [readable, htable.serverOpen, Bool.not_eq_true', List.isEmpty_eq_false_iff]
      exact hne
    rw [pending, htable.serverEntry (by omega) (by omega), Option.filter_some, hreadable, honList,
      Bool.or_true, Bool.and_true, if_pos rfl]
  refine ⟨hpending, fun hstep => ?_⟩
  cases Rule.of_step hstep with
  | timeout _ hsrv =>
    have hnil : s.kernel.backlog = [] := by
      by_contra hne
      cases hsrv.symm.trans (hpending hne)
    have hhand : s.sidePc.hand = none := by rw [hpc]; rfl
    have hnone : (List.range s.kernel.arrived).filter (· ∉ s.kernel.lost) =
        List.range s.kernel.arrived := by simp [hserves.lost]
    have hclosed := hS.order
    rw [hnil, inHand_of_hand hhand, Option.toList_none, List.append_nil, List.append_nil,
      hnone] at hclosed
    refine ⟨hclosed, ?_⟩
    rw [hS.sends, greeted_of_hand hhand, Option.toList_none, List.append_nil, hclosed]

/-- Of two connections, the second one came in while the first one was served. -/
theorem example_server_leaves_none_two : ∃ s : ExampleServer, s.sidePc = .epollWait ∧
    s.kernel.closedConns = [0, 1] ∧ (s.sends.map fun call => (call.file, call.msg)) =
      [ExampleServer.toClient 0, ExampleServer.toClient 1] := by
  obtain ⟨s, hs, hpc, harrived, htimeout⟩ := ExampleServer.reachable_of_exec
    (P := fun s => s.sidePc = .epollWait ∧ s.kernel.arrived = 2 ∧
      (s.step (.epollWait .timeout)).isSome = true)
    [.arrive, .main, .eventfd 5, .main, .epollWait (.event 4), .sideProc, .accept 0 (some 6),
      .arrive, .send .sent, .sideProc, .sideProc, .accept (-1) (some 6), .send .failed, .sideProc,
      .sideProc, .accept 0 none] (by decide +kernel)
  obtain ⟨s', hs'⟩ := Option.isSome_iff_exists.mp htimeout
  obtain ⟨hclosed, hsends⟩ := (example_server_leaves_none hs hpc).2 hs'
  rw [harrived] at hclosed hsends
  exact ⟨s, hpc, hclosed, hsends⟩

end C10K
