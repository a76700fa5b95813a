import C10K.Example.Service

/-!
# Stopping the example server

The count of the `eventfd` is never read, so once `main` has listed it, `epoll_wait` does not time
out any more. What is left to do is bounded then: each wait reports the `eventfd` or takes the
listening socket off the ready list, and only a connection that comes in puts it back.
-/

namespace C10K

/-- What a label brings: a connection is worth 8 steps, and an interrupted wait 2. -/
def ExampleAct.brings : ExampleAct → ℕ
  | .arrive                 => 8
  | .epollWait .interrupted => 2
  | _                       => 0

namespace ExampleServer

variable {s s' : ExampleServer} {a : ExampleAct} {as : List ExampleAct}

instance (count : ℤ) (interrupted : Bool) : Decidable (Repeats count interrupted) :=
  inferInstanceAs (Decidable (_ ∨ _))

/-- The steps that the side thread needs to return, or to take the socket off the ready list and to
come back to `epoll_wait` when nothing waits. -/
def sideToDo (s : ExampleServer) : ℕ :=
  match s.sidePc with
  | .notStarted | .returned => 0
  | .epollWait => 2
  | .test count interrupted =>
    if Repeats count interrupted then 3 else if s.event = some s.signaler then 1 else 4
  | .accept => 3
  | .send _ => 6
  | .shutdown _ => 5
  | .close _ => 4

/-- What there is to do: the rest of `main` and of the side thread, four steps for each connection
that waits, three if the listening socket is on the ready list, and one while the process runs. -/
def toDo (s : ExampleServer) : ℕ :=
  8 - s.mainPc.rank + s.sideToDo + 4 * s.kernel.backlog.length + 3 * s.onReadyList.toNat +
    (!s.killed).toNat

lemma sideToDo_reported (hpc : s.sidePc = .test 1 false) :
    s.sideToDo = if s.event = some s.signaler then 1 else 4 := by
  have hrepeats : ¬ Repeats 1 false := by decide
  rw [sideToDo, hpc]
  exact if_neg hrepeats

/-- The `eventfd` can be reported at any time. -/
lemma Inv.signaler_pending (h : s.Inv) (hrank : 5 ≤ s.mainPc.rank ∧ s.mainPc.rank < 7) :
    s.pending s.signaler = some (signalerEvents s.signaler).watched := by
  have hreadable : s.readable s.signaler = true := by
    simp only [readable, h.table.signalerOpen (by omega) hrank.2]
  rw [pending, h.table.signalerEntry hrank.1 hrank.2, Option.filter_some, hreadable,
    level_signalerEvents, Bool.true_or, Bool.and_true, if_pos rfl]

/-- The side thread makes a step that no other part of the measure sees. -/
lemma toDo_side {kernel : Kernel Fd} {sidePc : SidePc} {clientAddressLen : Option (BitVec 32)}
    {sends : List SendCall} (hbacklog : kernel.backlog = s.kernel.backlog)
    (hside : sideToDo { s with kernel, sidePc, clientAddressLen, sends } + 1 ≤ s.sideToDo) :
    1 + toDo { s with kernel, sidePc, clientAddressLen, sends } ≤ s.toDo := by
  simp only [toDo, hbacklog]
  omega

/-- `main` makes a step. -/
lemma toDo_main {kernel : Kernel Fd} {mainPc : ExampleMainPc}
    (hbacklog : kernel.backlog = s.kernel.backlog) (hrank : mainPc.rank = s.mainPc.rank + 1)
    (hle : mainPc.rank ≤ 8) : 1 + toDo { s with kernel, mainPc } ≤ s.toDo := by
  have hside : sideToDo { s with kernel, mainPc } = s.sideToDo := rfl
  simp only [toDo, hside, hbacklog, hrank]
  omega

/-- An entry is reported. -/
lemma Inv.toDo_report (h : s.Inv) (hpc : s.sidePc = .epollWait) {fd : Fd} {e : EpollEvent Fd}
    (hpending : s.pending fd = some e) :
    1 + toDo { s with
      event := some e.data
      onReadyList := s.onReadyList && e.events &&& EPOLLET == 0
      sidePc := .test 1 false } ≤ s.toDo := by
  obtain ⟨hrank, htable⟩ := h.running hpc nofun nofun
  have hwait : s.sideToDo = 2 := by rw [sideToDo, hpc]
  rcases h.pending_spec hrank hpending with ⟨-, rfl, honList, -⟩ | ⟨-, rfl, hr⟩
  · have hne : ¬ some s.srvFd = some s.signaler := fun heq =>
      htable.signaler_ne (by omega) (by omega) (Option.some_inj.mp heq).symm
    have htest : sideToDo { s with
        event := some (srvEvents s.srvFd).watched.data
        onReadyList := false
        sidePc := .test 1 false } = 4 := by
      rw [sideToDo_reported rfl]
      exact if_neg hne
    simp only [edge_srvEvents, Bool.and_false, toDo, hwait, htest, honList, Bool.toNat_false,
      Bool.toNat_true]
    omega
  · have htest : sideToDo { s with
        event := some (signalerEvents s.signaler).watched.data
        onReadyList := s.onReadyList
        sidePc := .test 1 false } = 1 := by
      rw [sideToDo_reported rfl]
      exact if_pos rfl
    simp only [level_signalerEvents, Bool.and_true, toDo, hwait, htest]
    omega

/-- Each step does something that is left to do. -/
lemma Inv.toDo_step (h : s.Inv) (hstop : 5 ≤ s.mainPc.rank) (hstep : s.step a = some s') :
    5 ≤ s'.mainPc.rank ∧ 1 + s'.toDo ≤ s.toDo + a.brings := by
  cases Rule.of_step hstep with
  | arrive =>
    refine ⟨hstop, ?_⟩
    have hlength : (s.kernel.backlog ++ [s.kernel.arrived]).length = s.kernel.backlog.length + 1 :=
      List.length_append
    have hlist := Bool.toNat_le s.arrive.onReadyList
    have hsame : s.arrive.sideToDo = s.sideToDo := rfl
    have hkilled : s.arrive.killed = s.killed := rfl
    have hbacklog : s.arrive.kernel.backlog.length = s.kernel.backlog.length + 1 := hlength
    have hrank : s.arrive.mainPc.rank = s.mainPc.rank := rfl
    simp only [toDo, hsame, hkilled, hbacklog, hrank, ExampleAct.brings]
    omega
  | addServer hpc | eventfd hpc | createThread hpc | read hpc | addSignaler hpc =>
    rw [hpc] at hstop
    exact absurd hstop (by decide)
  | join hpc | closeSignaler hpc | closeInstance hpc =>
    rw [hpc] at hstop
    refine ⟨hstop.trans (Nat.le_succ _), toDo_main rfl ?_ ?_⟩
    · rw [hpc]
      rfl
    · decide
  | failed hpc hfile =>
    obtain ⟨hrank, -⟩ := h.running hpc nofun nofun
    exact absurd (h.table.instanceOpen (by omega)) hfile
  | timeout hpc _ hsignaler =>
    obtain ⟨hrank, -⟩ := h.running hpc nofun nofun
    cases hsignaler.symm.trans (h.signaler_pending ⟨hstop, by omega⟩)
  | interrupted hpc =>
    refine ⟨hstop, ?_⟩
    have hrepeats : Repeats (-1) true := .inr ⟨rfl, rfl⟩
    simp only [toDo, sideToDo, hpc, if_pos hrepeats, ExampleAct.brings]
    omega
  | report hpc hpending => exact ⟨hstop, h.toDo_report hpc hpending⟩
  | acceptLost hpc _ hlose =>
    refine ⟨hstop, ?_⟩
    obtain ⟨c, backlog, hbacklog, -, hbacklog', -⟩ := Kernel.lose_spec hlose
    simp only [toDo, sideToDo, hpc, hbacklog, hbacklog', List.length_cons]
    omega
  | acceptSome hpc _ _ haccept =>
    refine ⟨hstop, ?_⟩
    obtain ⟨c, backlog, hbacklog, -, hbacklog', -⟩ := Kernel.accept_spec haccept
    simp only [toDo, sideToDo, hpc, hbacklog, hbacklog', List.length_cons]
    omega
  | again hpc hrepeats =>
    refine ⟨hstop, toDo_side rfl ?_⟩
    simp only [sideToDo, hpc, if_pos hrepeats, le_refl]
  | leave hpc hrepeats hevent =>
    refine ⟨hstop, toDo_side rfl ?_⟩
    simp only [sideToDo, hpc, if_neg hrepeats, if_pos hevent, le_refl]
  | connect hpc hrepeats hevent hne =>
    refine ⟨hstop, toDo_side rfl ?_⟩
    have hother : ¬ s.event = some s.signaler := by
      rw [hevent]
      exact fun heq => hne (Option.some_inj.mp heq)
    simp only [sideToDo, hpc, if_neg hrepeats, if_neg hother, le_refl]
  | acceptNone hpc | send hpc | shutdown hpc | close hpc =>
    exact ⟨hstop, toDo_side rfl (by simp only [sideToDo, hpc, le_refl])⟩
  | sigpipe hpc =>
    refine ⟨hstop, ?_⟩
    simp only [toDo, sideToDo, hpc, not_killed_of_step hstep, Bool.not_false, Bool.not_true,
      Bool.toNat_false, Bool.toNat_true]
    omega

/-! ### At rest -/

/-- When nothing but connections and interruptions is left, `main` has returned, unless a signal
ended the process. -/
lemma Inv.returned_of_rest (h : s.Inv) (hstop : 5 ≤ s.mainPc.rank) (hkilled : s.killed = false)
    (hrest : ∀ a, a.brings = 0 → s.step a = none) : s.mainPc = .returned := by
  have hstuck : ∀ {x : Option ExampleServer}, (if s.killed then none else x) = none → x = none := by
    intro x hx
    rw [hkilled] at hx
    exact hx
  have hmain : s.main = none := hstuck (hrest .main rfl)
  have hside : s.sideProc = none := hstuck (hrest .sideProc rfl)
  have hreturned : s.sidePc = .returned := by
    cases hpc : s.sidePc with
    | returned => rfl
    | notStarted => exact absurd (h.started.mp hpc) (by omega)
    | epollWait =>
      obtain ⟨hrank, -⟩ := h.running hpc nofun nofun
      have hnone : s.epollWait (.event s.signaler) = none := hstuck (hrest (.epollWait _) rfl)
      have hpending := h.signaler_pending ⟨hstop, by omega⟩
      simp only [ExampleServer.epollWait, hpc, hpending] at hnone
      cases hnone
    | test count interrupted =>
      simp only [sideProc, hpc] at hside
      split_ifs at hside with hzero hinterrupted
      have hevent := ((h.tested _ _ hpc).resolve_left (not_or.mpr ⟨hzero, hinterrupted⟩)).2
      obtain ⟨fd, hfd⟩ := Option.ne_none_iff_exists'.mp hevent
      simp only [hfd, Option.bind_eq_bind, Option.bind_some] at hside
      split_ifs at hside
    | accept =>
      have hnone : s.accept 0 none = none := hstuck (hrest (.accept 0 none) rfl)
      simp only [ExampleServer.accept, hpc] at hnone
      cases hnone
    | send =>
      have hnone : s.send .sent = none := hstuck (hrest (.send .sent) rfl)
      simp only [ExampleServer.send, hpc] at hnone
      cases hnone
    | shutdown | close =>
      rw [sideProc, hpc] at hside
      cases hside
  cases hpc : s.mainPc with
  | returned => rfl
  | join =>
    simp only [main, hpc, if_pos hreturned] at hmain
    cases hmain
  | closeSignaler | closeInstance =>
    rw [main, hpc] at hmain
    cases hmain
  | addServer | eventfd | createThread | read | addSignaler =>
    rw [hpc] at hstop
    exact absurd hstop (by decide)

/-- When both threads have returned, nothing else is left. -/
lemma rest_of_returned (hmain : s.mainPc = .returned) (hside : s.sidePc = .returned)
    (hbrings : a.brings = 0) : s.step a = none := by
  unfold step
  split_ifs
  · rfl
  · cases a with
    | arrive => cases hbrings
    | eventfd | main | epollWait | accept | send | sideProc =>
      simp only [ExampleServer.eventfd, ExampleServer.main, ExampleServer.epollWait,
        ExampleServer.accept, ExampleServer.send, ExampleServer.sideProc, hmain, hside]

end ExampleServer

open ExampleServer in
/-- Once `main` has listed the `eventfd`, a run is as long as what is left to do and what is brought
allow, whatever the side thread is doing and whatever order the kernel reports the entries in. Where
it comes to rest, `main` has returned, the `eventfd` and the epoll instance are closed, and no
connection is open, unless `SIGPIPE` ended the process in a call of `send`. -/
theorem example_server_stops {s s' : ExampleServer} {as : List ExampleAct}
    (h : exampleSystem.Reachable s) (hstop : 5 ≤ s.mainPc.rank) (hrun : exampleSystem.Run s as s') :
    as.length + s'.toDo ≤ s.toDo + (as.map ExampleAct.brings).sum ∧
      ((∀ a, a.brings = 0 → s'.step a = none) → s'.killed = false →
        s'.mainPc = .returned ∧ s'.kernel.files s'.signaler = none ∧
          s'.kernel.files s'.epInstance = none ∧ ∀ fd c, s'.kernel.files fd ≠ some (.conn c)) := by
  have hI := Inv.of_reachable h
  have hkeep : ∀ s a t, s.Inv ∧ 5 ≤ s.mainPc.rank → exampleSystem.step s a = some t →
      t.Inv ∧ 5 ≤ t.mainPc.rank :=
    fun s a t hs hstep => ⟨hs.1.step hstep, (hs.1.toDo_step hs.2 hstep).1⟩
  have hsum := hrun.sum_add_le (f := fun _ => 1) (g := ExampleAct.brings) (m := toDo) ⟨hI, hstop⟩
    hkeep fun s a t hs hstep => (hs.1.toDo_step hs.2 hstep).2
  rw [List.map_const', List.sum_replicate, smul_eq_mul, Nat.mul_one] at hsum
  refine ⟨hsum, fun hrest hkilled => ?_⟩
  obtain ⟨hI', hstop'⟩ := hrun.invariant (I := fun s => s.Inv ∧ 5 ≤ s.mainPc.rank) ⟨hI, hstop⟩ hkeep
  have hpc := hI'.returned_of_rest hstop' hkilled hrest
  have htable := hI'.tableAt hpc
  have hreturned := hI'.joined (by rw [hpc]; decide)
  refine ⟨hpc, htable.closed.1 (by decide), htable.closed.2 (by decide), fun fd c hc => ?_⟩
  have hhand := htable.conn fd c hc
  rw [hreturned] at hhand
  cases hhand

open ExampleServer in
/-- `main` stops the server while a connection waits, and another one comes in. A third one is lost,
and nothing is left to do. -/
theorem example_server_stops_waiting : ∃ s s' : ExampleServer, ∃ as : List ExampleAct,
    s.mainPc = .join ∧ s.sidePc = .epollWait ∧ as.length = 24 ∧
      as.length + s'.toDo ≤ s.toDo + (as.map ExampleAct.brings).sum ∧
        s'.kernel.files s'.epInstance = none ∧ ∀ fd c, s'.kernel.files fd ≠ some (.conn c) := by
  let as : List ExampleAct := [.epollWait (.event 4), .sideProc, .arrive, .accept 0 (some 6),
    .send .sent, .sideProc, .sideProc, .accept 0 (some 6), .send .failed, .sideProc, .sideProc,
    .accept 0 none, .arrive, .epollWait (.event 4), .sideProc, .accept (-1) (some 6),
    .epollWait .interrupted, .sideProc, .epollWait (.event 5), .sideProc, .main, .main, .main,
    .arrive]
  obtain ⟨s, hs, hmain, hside, hrun⟩ := ExampleServer.reachable_of_exec
    (P := fun s => s.mainPc = .join ∧ s.sidePc = .epollWait ∧
      ((exampleSystem.exec s as).any fun s =>
        s.mainPc = .returned ∧ s.sidePc = .returned ∧ s.killed = false) = true)
    [.main, .eventfd 5, .main, .main, .main, .arrive] (by decide +kernel)
  obtain ⟨s', hs', hreturned⟩ := (Option.any_eq_true ..).mp hrun
  obtain ⟨hmain', hside', hkilled⟩ := of_decide_eq_true hreturned
  have hstop : 5 ≤ s.mainPc.rank := by rw [hmain]; decide
  obtain ⟨hsum, hrest⟩ := example_server_stops hs.reachable hstop (LTS.run_of_exec hs')
  obtain ⟨-, -, hinstance, hconn⟩ := hrest (fun _ => rest_of_returned hmain' hside') hkilled
  exact ⟨s, s', as, hmain, hside, rfl, hsum, hinstance, hconn⟩

end C10K
