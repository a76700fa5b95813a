import C10K.Workers.Safety

/-!
# `w_join`

`w_join` sets `_stop` and signals without the lock, and the outer loop of `w_process` reads `_jobs`
and `_stop` without it. Two things can go wrong: the last worker leaves between a job and the flag,
and the signal of `w_join` falls between a worker's test and its wait. The results say exactly
when the first happens, and that nothing goes wrong in the runs in which the second does not.
-/

namespace C10K

open LawfulFifoQueue (contents)

variable {Q W : Type} [FifoQueue Q W] [LawfulFifoQueue Q W] {n : ℕ} {ι : Type}
variable {s s' : Pool Q W n ι} {a : PoolAct W n ι}

/-! ### Jobs that nobody runs -/

/-- The worker will not take a job any more. -/
def WorkerPc.leaving : WorkerPc W → Bool
  | .exitUnlock | .exitSignal | .exited => true
  | _ => false

namespace Pool

/-- The pair with number `k` was called once and returned once. -/
def RanOnce (s : Pool Q W n ι) (k : ℕ) : Prop :=
  (∃ p, s.hist.called.filter (fun p => p.ticket = k) = [p] ∧
    s.hist.pushed[k]? = some (p.functionP, p.args)) ∧
  s.hist.finished.count k = 1

/-- The queue is empty and every job that was posted before `w_join` ran once. -/
def AllRan (s : Pool Q W n ι) : Prop :=
  contents s.jobs = [] ∧ ∀ k ∈ s.hist.due, s.RanOnce k

/-- The last worker does not leave through the outer loop while a job is queued, and no job is
pushed after the last worker decided to leave. -/
def LeavesNone (s : Pool Q W n ι) : PoolAct W n ι → Prop
  | .work i => s.worker i = .testStop → s.stop = true → contents s.jobs ≠ [] →
      ∃ j, j ≠ i ∧ (s.worker j).leaving = false
  | .post t => ∀ job args, s.post t = some (.pushJob job args) →
      ∃ j, (s.worker j).leaving = false
  | _ => True

/-- A queued job has a worker that will look at the queue again. -/
def Served (s : Pool Q W n ι) : Prop :=
  contents s.jobs ≠ [] → ∃ j, (s.worker j).leaving = false

/-- A job is queued and every worker has decided to leave. -/
def Stranded (s : Pool Q W n ι) : Prop :=
  contents s.jobs ≠ [] ∧ ∀ j, (s.worker j).leaving = true

/-- Once every worker has left, each pair that was taken was called once and returned once. -/
lemma Inv.ranOnce (hI : Inv s) (hexit : ∀ i, s.worker i = .exited) {k : ℕ}
    (hk : k < s.hist.plucked.length) : s.RanOnce k := by
  have hheld : Hands.held s.heldTicket = 0 :=
    Hands.held_eq_zero fun i => by simp [heldTicket, hexit, WorkerPc.held]
  have hjob : Hands.held s.jobTicket = 0 :=
    Hands.held_eq_zero fun i => by simp [jobTicket, hexit, WorkerPc.job]
  have hcalled : (s.hist.called.map Plucked.ticket : Multiset ℕ) =
      Multiset.range s.hist.plucked.length := by
    simpa [hheld] using hI.tickets.plucked_eq.symm
  have hfinished : (s.hist.finished : Multiset ℕ) = Multiset.range s.hist.plucked.length := by
    rw [← hcalled, hI.tickets.called_eq, hjob, zero_add]
  obtain ⟨p, hmem, hticket, hone⟩ := Hands.filter_eq_singleton hcalled hk
  constructor
  · exact ⟨p, hone, hticket ▸ hI.pushed_of_plucked (hI.tickets.called_pair p hmem)⟩
  · rw [← Multiset.coe_count, hfinished]
    exact Multiset.count_eq_one_of_mem (Multiset.nodup_range _) (Multiset.mem_range.mpr hk)

/-- When every worker has left and the queue is empty, every job that was posted ran. -/
lemma Inv.allRan (hI : Inv s) (hexit : ∀ i, s.worker i = .exited) (hjobs : contents s.jobs = []) :
    s.AllRan := by
  refine ⟨hjobs, fun k hk => hI.ranOnce hexit ?_⟩
  obtain ⟨rest, hrest, heq⟩ := hI.jobs.jobs_eq
  have htaken : s.midTaken = [] := by
    rcases hl : s.lock with _ | (j | p) <;> simp [midTaken, workerOf, hl, hexit, WorkerPc.taken]
  have hentries : entries rest = [] := by
    rw [htaken, hjobs, List.append_nil, eq_comm, List.append_eq_nil_iff] at heq
    exact heq.1
  have hrest' : rest = [] := by
    cases rest with
    | nil => rfl
    | cons p rest => simp [entries] at hentries
  have hlt := hI.posted.due_lt k hk
  rwa [hrest, hrest', List.append_nil] at hlt

/-- A worker decides to leave in two places. -/
lemma leaves_of_reads {x y : WorkerPc W} (h : x.Reads s y) (hy : y.leaving = true) :
    x = .testStop ∧ s.stop = true ∧ y = .exited ∨ x = .exitStop := by
  cases h with
  | testStopSet hstop => exact .inl ⟨rfl, hstop, rfl⟩
  | exitStopSet => exact .inr rfl
  | _ => cases hy

omit [FifoQueue Q W] [LawfulFifoQueue Q W] in
lemma leaving_setWorker {i j : Fin n} {x : WorkerPc W}
    (hx : x.leaving = (s.worker i).leaving) :
    ((s.setWorker i x).worker j).leaving = (s.worker j).leaving := by
  by_cases hj : j = i <;> simp [hj, hx]

omit [FifoQueue Q W] [LawfulFifoQueue Q W] in
/-- A signal makes no worker leave and leaves the queue alone. -/
lemma Wakes.frame (h : s.Wakes s') :
    s'.jobs = s.jobs ∧ ∀ j, (s'.worker j).leaving = (s.worker j).leaving := by
  cases h with
  | nobody => exact ⟨rfl, fun _ => rfl⟩
  | one k hk => exact ⟨rfl, fun j => leaving_setWorker (by rw [hk]; rfl)⟩

/-- The queue is not longer and no worker left. -/
lemma Served.frame (hS : Served s) (hjobs : contents s'.jobs ≠ [] → contents s.jobs ≠ [])
    (hworker : ∀ j, (s'.worker j).leaving = (s.worker j).leaving) : Served s' := by
  intro hne
  obtain ⟨j, hj⟩ := hS (hjobs hne)
  exact ⟨j, (hworker j).trans hj⟩

/-- A worker that will look at the queue again serves it. -/
lemma served_of_worker {i : Fin n} (h : (s.worker i).leaving = false) :
    Served s :=
  fun _ => ⟨i, h⟩

lemma Stranded.frame (hS : Stranded s) (hjobs : contents s.jobs ≠ [] → contents s'.jobs ≠ [])
    (hworker : ∀ j, (s'.worker j).leaving = (s.worker j).leaving) : Stranded s' :=
  ⟨hjobs hS.1, fun j => (hworker j).trans (hS.2 j)⟩

variable [DecidableEq ι]

/-- A step that the guard allows leaves a worker for each queued job. -/
lemma Served.step (hS : Served s) (hI : Inv s) (hG : LeavesNone s a)
    (hstep : s.step a = some s') : Served s' := by
  cases PoolRule.of_step hstep with
  | @read i x y h hr =>
    subst h
    cases hy : y.leaving with
    | false => exact served_of_worker (i := i) (by simpa using hy)
    | true =>
      intro hjobs
      rcases leaves_of_reads hr hy with ⟨hx, hstop, -⟩ | hx
      · obtain ⟨j, hji, hj⟩ := hG hx hstop hjobs
        exact ⟨j, by simpa [hji] using hj⟩
      · have hsees := hI.jobs.sees i
        rw [hx] at hsees
        exact absurd hsees.1 hjobs
  | @acquire i | @nextFunction i | @nextArgs i | @call i | @jobReturn i =>
    exact served_of_worker (i := i) (by simp [WorkerPc.leaving])
  | @release i x y h hx =>
    refine hS.frame id fun j => leaving_setWorker ?_
    rw [h]
    cases hx <;> rfl
  | @signal i x y _ _ h hx hwake =>
    have hmid : Served (s.setWorker i y) := hS.frame id fun j => leaving_setWorker (by
      rw [h]
      cases hx <;> rfl)
    exact hmid.frame (by rw [hwake.frame.1]; exact id) hwake.frame.2
  | pushJob h => exact fun _ => hG _ _ h
  | @pushArgs t job args jobs h hpush =>
    -- the other half of the pair is in the queue already
    have hne : contents s.jobs ≠ [] := by
      obtain ⟨rest, -, heq⟩ := hI.jobs.jobs_eq
      have hmid := hI.lock.mid_of_post h rfl
      simp only [hmid, List.nil_append, PostPc.put] at heq
      simp [heq]
    exact hS.frame (fun _ => hne) fun _ => rfl
  | postSignal h hwake | joinSignal h hwake =>
    exact hS.frame (by rw [hwake.frame.1]; exact id) hwake.frame.2
  | @spurious i h =>
    have hwake : s.Wakes _ := .one i h
    exact hS.frame id hwake.frame.2
  | _ => exact hS.frame id fun _ => rfl

/-- Once every worker has decided to leave, a queued job stays in the queue. -/
lemma Stranded.step (hS : Stranded s) (hstep : s.step a = some s') : Stranded s' := by
  have hpush : ∀ {w : W} {jobs : Q}, FifoQueue.push s.jobs w = some jobs → contents jobs ≠ [] := by
    intro w jobs h
    simp [LawfulFifoQueue.contents_push h]
  cases PoolRule.of_step hstep with
  | @read i x y h hr =>
    have hx := h ▸ hS.2 i
    cases hr <;> cases hx
  | @acquire i x h hx =>
    have hx' := h ▸ hS.2 i
    cases hx <;> cases hx'
  | @nextFunction i f jobs h | @nextArgs i f a jobs h | @call i p h | @jobReturn i p h =>
    have hx := h ▸ hS.2 i
    cases hx
  | @release i x y h hx =>
    refine hS.frame id fun j => leaving_setWorker ?_
    rw [h]
    cases hx <;> rfl
  | @signal i x y _ _ h hx hwake =>
    have hmid : Stranded (s.setWorker i y) := hS.frame id fun j => leaving_setWorker (by
      rw [h]
      cases hx <;> rfl)
    exact hmid.frame (by rw [hwake.frame.1]; exact id) hwake.frame.2
  | pushJob h hq | pushArgs h hq => exact hS.frame (fun _ => hpush hq) fun _ => rfl
  | postSignal h hwake | joinSignal h hwake =>
    exact hS.frame (by rw [hwake.frame.1]; exact id) hwake.frame.2
  | @spurious i h =>
    have hwake : s.Wakes _ := .one i h
    exact hS.frame id hwake.frame.2
  | _ => exact hS.frame id fun _ => rfl

/-- A step that the guard does not allow strands a job. -/
lemma stranded_of_not_leavesNone (hG : ¬ LeavesNone s a) (hstep : s.step a = some s') :
    Stranded s' := by
  cases a with
  | work i =>
    simp only [LeavesNone, not_forall, not_exists, not_and, Bool.not_eq_false] at hG
    obtain ⟨hx, hstop, hjobs, hall⟩ := hG
    simp only [Pool.step, wProcess, hx, hstop, if_true, Option.some.injEq] at hstep
    subst hstep
    refine ⟨hjobs, fun j => ?_⟩
    by_cases hj : j = i
    · simp [hj, WorkerPc.leaving]
    · simpa [hj] using hall j hj
  | post t =>
    simp only [LeavesNone, not_forall, not_exists, Bool.not_eq_false] at hG
    obtain ⟨job, args, h, hall⟩ := hG
    simp only [Pool.step, wPost, h, bind, Option.bind_eq_some_iff, pure, Option.some.injEq] at hstep
    obtain ⟨jobs, hpush, rfl⟩ := hstep
    exact ⟨by simp [LawfulFifoQueue.contents_push hpush], hall⟩
  | _ => exact absurd trivial hG

end Pool

variable [DecidableEq ι] {s₀ : Pool Q W n ι} {as : List (PoolAct W n ι)}

/-- A run that ends with `w_join` returned has run every job that was posted before and left the
queue empty exactly when no step of it let the last worker leave a job behind. -/
theorem join_finishes_jobs_iff (h₀ : (poolSystem Q W n ι).init s₀)
    (hrun : (poolSystem Q W n ι).Run s₀ as s) (hjoin : s.join = .returned) :
    s.AllRan ↔ (poolSystem Q W n ι).RunMeeting Pool.LeavesNone s₀ as s := by
  obtain rfl : s₀ = Pool.initial := h₀
  have hI : s.Inv := .of_reachable ⟨_, _, rfl, hrun⟩
  have hexit : ∀ i, s.worker i = .exited := by
    have h := hI.join
    rw [Pool.JoinInv, hjoin] at h
    exact h.2
  constructor
  · intro hall
    rcases hrun.meeting_or_passes with hmeet | ⟨pre, u, a, v, post, -, hG, hstep, hpost⟩
    · exact hmeet
    · have hS := hpost.invariant (Pool.stranded_of_not_leavesNone hG hstep)
        fun _ _ _ hS hstep => hS.step hstep
      exact absurd hall.1 hS.1
  · intro hmeet
    have hS : s.Inv ∧ s.Served := by
      refine hmeet.invariant (I := fun s => s.Inv ∧ s.Served) ⟨.initial, fun hne => ?_⟩
        fun _ _ _ hs hG hstep => ⟨hs.1.step hstep, hs.2.step hs.1 hG hstep⟩
      exact absurd LawfulFifoQueue.contents_create hne
    refine hI.allRan hexit ?_
    by_contra hne
    obtain ⟨j, hj⟩ := hS.2 hne
    simp [hexit, WorkerPc.leaving] at hj

/-- One worker runs the job of a client and leaves after `w_join` set the flag. -/
theorem join_finishes_jobs_iff_one :
    ∃ (as : List (PoolAct ℕ 1 Unit)) (s : Pool (RingQueue ℕ) ℕ 1 Unit),
    s.hist.due = [0] ∧ s.hist.finished = [0] ∧
    (s.AllRan ↔ (poolSystem (RingQueue ℕ) ℕ 1 Unit).RunMeeting Pool.LeavesNone .initial as s) := by
  let acts : List (PoolAct ℕ 1 Unit) :=
    [.callPost (.client ()) 7 8, .post (.client ()), .post (.client ()), .post (.client ()),
      .post (.client ()), .postSignal (.client ()) none, .work 0, .work 0, .work 0, .work 0,
      .work 0, .work 0, .work 0, .workSignal 0 none, .work 0, .jobReturn 0, .callJoin, .join,
      .join, .joinSignal none, .work 0, .work 0, .join, .join]
  have hrun : (((poolSystem (RingQueue ℕ) ℕ 1 Unit).exec Pool.initial acts).map
      fun s => (s.join, s.hist.due, s.hist.finished)) = some (.returned, [0], [0]) := by
    decide +kernel
  obtain ⟨s, hs, hval⟩ := Option.map_eq_some_iff.mp hrun
  simp only [Prod.mk.injEq] at hval
  exact ⟨acts, s, hval.2.1, hval.2.2,
    join_finishes_jobs_iff rfl (LTS.run_of_exec hs) hval.1⟩

/-- The worker reads an empty queue, a client posts a job, `w_join` sets the flag, and the worker
reads the flag: `w_join` returns and the job stays in the queue. -/
theorem join_loses_job : ¬ ∀ s : Pool (RingQueue ℕ) ℕ 1 Unit,
    (poolSystem (RingQueue ℕ) ℕ 1 Unit).Reachable s → s.join = .returned → s.AllRan := by
  intro hall
  let acts : List (PoolAct ℕ 1 Unit) :=
    [.work 0, .callPost (.client ()) 7 8, .post (.client ()), .post (.client ()),
      .post (.client ()), .post (.client ()), .postSignal (.client ()) none, .callJoin, .join,
      .join, .work 0, .joinSignal none, .join, .join]
  have hrun : (((poolSystem (RingQueue ℕ) ℕ 1 Unit).exec Pool.initial acts).map
      fun s => (s.join, contents s.jobs)) = some (.returned, [7, 8]) := by decide +kernel
  obtain ⟨s, hs, hval⟩ := Option.map_eq_some_iff.mp hrun
  simp only [Prod.mk.injEq] at hval
  have h := hall s ⟨_, acts, rfl, LTS.run_of_exec hs⟩ hval.1
  exact absurd h.1 (by simp [hval.2])

end C10K
