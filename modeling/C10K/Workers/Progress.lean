import C10K.Workers.Shutdown
import C10K.Workers.Wakeup

/-!
# The pool gets its jobs done

Every step of the pool uses up some of what its threads and its queue have left to do; only a new
call of `w_post` and a wake-up without a signal bring more. So a pool that gets no new jobs comes to
rest, and a pool at rest has run every job.
-/

namespace C10K

open LawfulFifoQueue (contents)

variable {Q W : Type} {n : ℕ} {ι : Type}

/-! ### What is left to do -/

/-- What a worker can do before it sleeps or takes a job. A wake-up is worth 7, and a worker that is
not gone is worth the one that it owes when it leaves. -/
def WorkerPc.toDo : WorkerPc W → ℕ
  | .exited => 0
  | .blocked | .exitSignal => 8
  | .wait | .exitUnlock | .nextArgs _ => 9
  | .nextFunction => 10
  | .exitStop => 11
  | .exitJobs => 12
  | .waitStop => 13
  | .waitJobs => 14
  | .lock | .woken => 15
  | .testStop => 16
  | .testJobs => 17
  | .running _ => 18
  | .call _ => 19
  | .signal _ => 27
  | .unlock _ => 28

/-- What a call of `w_post` can do, and what the entries that it pushes are worth. -/
def PostPc.toDo : PostPc W → ℕ
  | .signal _ => 8
  | .unlock _ => 9
  | .pushArgs _ _ => 30
  | .pushJob _ _ => 51
  | .lock _ _ => 52

def JoinPc.toDo (n : ℕ) : JoinPc → ℕ
  | .returned  => 0
  | .joining k => n - k + 1
  | .signal    => n + 9
  | .setStop   => n + 10
  | .test      => n + 11
  | .notCalled => n + 12

/-- What a step brings that no thread of the pool has to take. -/
def PoolAct.brings : PoolAct W n ι → ℕ
  | .callPost _ _ _ => 53
  | .spurious _     => 8
  | _               => 0

/-- The threads are the workers and the others. -/
instance [Fintype ι] : Fintype (Tid n ι) :=
  Fintype.ofEquiv (Fin n ⊕ ι)
    { toFun := Sum.elim .worker .client
      invFun
        | .worker i => .inl i
        | .client p => .inr p
      left_inv := by rintro (i | p) <;> rfl
      right_inv := by rintro (i | p) <;> rfl }

namespace Pool

variable [FifoQueue Q W] [LawfulFifoQueue Q W] [Fintype ι]
variable {s s' : Pool Q W n ι} {i : Fin n} {x : WorkerPc W}

/-- What the pool can do without a new job. An entry of the queue is worth 20. -/
def toDo (s : Pool Q W n ι) : ℕ :=
  ∑ i, (s.worker i).toDo + 20 * (contents s.jobs).length +
    ∑ t, (s.post t).elim 0 PostPc.toDo + s.join.toDo n

lemma toDo_setWorker (s : Pool Q W n ι) (i : Fin n) (x : WorkerPc W) :
    (s.setWorker i x).toDo + (s.worker i).toDo = s.toDo + x.toDo := by
  have hsum : ∑ j, ((s.setWorker i x).worker j).toDo + (s.worker i).toDo =
      ∑ j, (s.worker j).toDo + x.toDo := Places.sum_update WorkerPc.toDo
  unfold toDo
  rw [jobs_setWorker, post_setWorker, join_setWorker]
  omega

lemma toDo_setLock (s : Pool Q W n ι) (holder : Option (Tid n ι)) :
    (s.setLock holder).toDo = s.toDo := rfl

lemma toDo_setPost [DecidableEq ι] (s : Pool Q W n ι) (t : Tid n ι) (z : Option (PostPc W)) :
    (s.setPost t z).toDo + (s.post t).elim 0 PostPc.toDo = s.toDo + z.elim 0 PostPc.toDo := by
  have hsum : ∑ u, ((s.setPost t z).post u).elim 0 PostPc.toDo + (s.post t).elim 0 PostPc.toDo =
      ∑ u, (s.post u).elim 0 PostPc.toDo + z.elim 0 PostPc.toDo :=
    Places.sum_update (Option.elim · 0 PostPc.toDo)
  unfold toDo
  rw [jobs_setPost, worker_setPost, join_setPost]
  omega

/-- Another queue. -/
lemma toDo_jobs (s : Pool Q W n ι) (jobs : Q) :
    toDo { s with jobs } + 20 * (contents s.jobs).length =
      s.toDo + 20 * (contents jobs).length := by
  simp only [toDo]
  omega

lemma toDo_join (s : Pool Q W n ι) (join : JoinPc) :
    toDo { s with join } + s.join.toDo n = s.toDo + join.toDo n := by
  simp only [toDo]
  omega

/-- A signal brings one wake-up at most. -/
lemma Wakes.toDo_le (h : s.Wakes s') : s'.toDo ≤ s.toDo + 7 := by
  cases h with
  | nobody => exact Nat.le_add_right ..
  | one k hk =>
    have hset := toDo_setWorker s k .woken
    rw [hk] at hset
    simp only [WorkerPc.toDo] at hset
    omega

/-- A worker moves on, and `c` comes to it from elsewhere. -/
lemma toDo_of_worker {y : WorkerPc W} {c : ℕ} (h : s.worker i = x) (hlt : y.toDo + c < x.toDo)
    (hs' : s'.toDo ≤ (s.setWorker i y).toDo + c) : 1 + s'.toDo ≤ s.toDo := by
  have hset := toDo_setWorker s i y
  rw [h] at hset
  omega

/-- A worker takes an entry off the queue. -/
lemma toDo_of_next {y : WorkerPc W} {w : W} {jobs : Q} (h : s.worker i = x)
    (hlt : y.toDo < x.toDo + 20) (hne : contents s.jobs ≠ [])
    (hnext : FifoQueue.next s.jobs = some (w, jobs)) :
    1 + toDo { s.setWorker i y with jobs } ≤ s.toDo := by
  have hset := toDo_setWorker s i y
  rw [h] at hset
  have hjobs : toDo { s.setWorker i y with jobs } + 20 * (contents s.jobs).length =
      (s.setWorker i y).toDo + 20 * (contents jobs).length := toDo_jobs ..
  have hlen : (contents s.jobs).length = (contents jobs).length + 1 :=
    congrArg List.length (LawfulFifoQueue.contents_next hne hnext)
  omega

section Step

variable [DecidableEq ι] {a : PoolAct W n ι} {t : Tid n ι}

/-- A call of `w_post` moves on, and `c` comes to it from elsewhere. -/
lemma toDo_of_post {y : PostPc W} {z : Option (PostPc W)} {c : ℕ} (h : s.post t = some y)
    (hlt : z.elim 0 PostPc.toDo + c < y.toDo) (hs' : s'.toDo ≤ (s.setPost t z).toDo + c) :
    1 + s'.toDo ≤ s.toDo := by
  have hset := toDo_setPost s t z
  rw [h, Option.elim_some] at hset
  omega

/-- A call of `w_post` pushes an entry. -/
lemma toDo_push {w : W} {jobs : Q} (z : Option (PostPc W))
    (hpush : FifoQueue.push s.jobs w = some jobs) :
    toDo { s.setPost t z with jobs } = (s.setPost t z).toDo + 20 := by
  have hjobs : toDo { s.setPost t z with jobs } + 20 * (contents s.jobs).length =
      (s.setPost t z).toDo + 20 * (contents jobs).length := toDo_jobs ..
  rw [LawfulFifoQueue.contents_push hpush, List.length_append, List.length_singleton] at hjobs
  omega

omit [DecidableEq ι] in
/-- `w_join` moves on, and `c` comes to it from elsewhere. -/
lemma toDo_of_join {x y : JoinPc} {c : ℕ} (h : s.join = x) (hlt : y.toDo n + c < x.toDo n)
    (hs' : s'.toDo ≤ toDo { s with join := y } + c) : 1 + s'.toDo ≤ s.toDo := by
  have hjoin := toDo_join s y
  rw [h] at hjoin
  omega

/-- Every step uses something up, but for what it brings. -/
theorem Inv.toDo_step (hI : Inv s) (hstep : s.step a = some s') :
    1 + s'.toDo ≤ s.toDo + a.brings := by
  cases PoolRule.of_step hstep with
  | @read i x y h hr =>
    refine toDo_of_worker (c := 0) h ?_ le_rfl
    cases hr with
    | _ => simp only [WorkerPc.toDo]; decide
  | @acquire i x h hx =>
    refine toDo_of_worker (c := 0) (y := .waitJobs) h ?_ le_rfl
    cases hx with
    | _ => simp only [WorkerPc.toDo]; decide
  | @release i x y h hx =>
    refine toDo_of_worker (c := 0) (y := y) h ?_ le_rfl
    cases hx with
    | _ => simp only [WorkerPc.toDo]; decide
  | @nextFunction i f jobs h hnext =>
    have hsees := hI.jobs.sees i
    rw [h] at hsees
    exact toDo_of_next h (by simp only [WorkerPc.toDo]; decide) hsees hnext
  | @nextArgs i f a jobs h hnext =>
    exact toDo_of_next h (by simp only [WorkerPc.toDo]; decide) (hI.nextArgs_ne_nil h) hnext
  | signal h hx hwake =>
    refine toDo_of_worker (c := 7) h ?_ hwake.toDo_le
    cases hx with
    | _ => simp only [WorkerPc.toDo]; decide
  | @call i p h =>
    refine toDo_of_worker (c := 0) (y := .running p) h ?_ le_rfl
    simp only [WorkerPc.toDo]
    decide
  | @jobReturn i p h =>
    refine toDo_of_worker (c := 0) (y := .testJobs) h ?_ le_rfl
    simp only [WorkerPc.toDo]
    decide
  | @callPost t job args hcan h =>
    have hset := toDo_setPost s t (some (.lock job args))
    rw [h] at hset
    simp only [Option.elim_none, Option.elim_some, PostPc.toDo] at hset
    simp only [PoolAct.brings]
    omega
  | @postAcquire t job args h =>
    refine toDo_of_post (c := 0) (z := some (.pushJob job args)) h ?_ le_rfl
    simp only [Option.elim_some, PostPc.toDo]
    decide
  | @pushJob t job args jobs h hpush =>
    refine toDo_of_post (c := 20) (z := some (.pushArgs job args)) h ?_ (toDo_push _ hpush).le
    simp only [Option.elim_some, PostPc.toDo]
    decide
  | @pushArgs t job args jobs h hpush =>
    refine toDo_of_post (c := 20) (z := some (.unlock s.hist.pushed.length)) h ?_
      (toDo_push _ hpush).le
    simp only [Option.elim_some, PostPc.toDo]
    decide
  | @postRelease t k h =>
    refine toDo_of_post (c := 0) (z := some (.signal k)) h ?_ le_rfl
    simp only [Option.elim_some, PostPc.toDo]
    decide
  | @postSignal t k target s' h hwake =>
    refine toDo_of_post (c := 7) (z := none) h ?_ hwake.toDo_le
    simp only [Option.elim_none, PostPc.toDo]
    decide
  | callJoin h =>
    refine toDo_of_join (c := 0) (y := .test) h ?_ le_rfl
    simp only [JoinPc.toDo]
    omega
  | joinTestSet h =>
    refine toDo_of_join (c := 0) (y := .returned) h ?_ le_rfl
    simp only [JoinPc.toDo]
    omega
  | joinTestUnset h =>
    refine toDo_of_join (c := 0) (y := .setStop) h ?_ le_rfl
    simp only [JoinPc.toDo]
    omega
  | setStop h =>
    refine toDo_of_join (c := 0) (y := .signal) h ?_ le_rfl
    simp only [JoinPc.toDo]
    omega
  | joinSignal h hwake =>
    refine toDo_of_join (c := 7) (y := .joining 0) h ?_ hwake.toDo_le
    simp only [JoinPc.toDo]
    omega
  | @joinOne k h =>
    refine toDo_of_join (c := 0) (y := .joining (k + 1)) h ?_ le_rfl
    simp only [JoinPc.toDo]
    omega
  | joinAll h =>
    refine toDo_of_join (c := 0) (y := .returned) h ?_ le_rfl
    simp only [JoinPc.toDo]
    omega
  | @spurious i h =>
    have hset := toDo_setWorker s i .woken
    rw [h] at hset
    simp only [WorkerPc.toDo] at hset
    simp only [PoolAct.brings]
    omega

/-- A run of the pool is as long as what there is to do at its start and what is brought allow: each
new job is worth at most 53 steps and each wake-up without a signal 8. So the pool comes to rest
when nothing new comes, also when `w_join` is called. -/
theorem run_length_le {as : List (PoolAct W n ι)} (h : (poolSystem Q W n ι).Reachable s)
    (hrun : (poolSystem Q W n ι).Run s as s') :
    as.length + s'.toDo ≤ s.toDo + (as.map PoolAct.brings).sum := by
  have hsum := hrun.sum_add_le (I := Inv) (f := fun _ => 1) (g := PoolAct.brings)
    (m := toDo) (Inv.of_reachable h) (fun _ _ _ hI hstep => hI.step hstep)
    fun _ _ _ hI hstep => hI.toDo_step hstep
  rwa [List.map_const', List.sum_replicate, smul_eq_mul, Nat.mul_one] at hsum

end Step

/-! ### A pool at rest -/

section Rest

omit [LawfulFifoQueue Q W] [Fintype ι]
variable [DecidableEq ι]

/-- No thread of the pool can take a step, whatever `main` and the others may still call. A thread
that is about to push can always go on, whatever becomes of the queue. -/
def Resting (s : Pool Q W n ι) : Prop :=
  (∀ a, (∀ t job args, a ≠ .callPost t job args) → (∀ i, a ≠ .spurious i) → a ≠ .callJoin →
    s.step a = none) ∧
  ∀ t job args, s.post t ≠ some (.pushJob job args) ∧ s.post t ≠ some (.pushArgs job args)

/-- The pool as it is when `w_join` waits for the first worker and its signal was lost. -/
def awaited (s : Pool Q W n ι) : Pool Q W n ι := { s with stop := true, join := .joining 0 }

omit [FifoQueue Q W] [DecidableEq ι] in
lemma condSignal_eq_none {target : Option (Fin n)} (hworker : s'.worker = s.worker)
    (h : s.condSignal target = none) : s'.condSignal target = none := by
  cases target with
  | none =>
    simp only [condSignal, hworker] at h ⊢
    split_ifs at h with hnone
    exact if_neg hnone
  | some k =>
    simp only [condSignal, hworker] at h ⊢
    split_ifs at h with hk
    exact if_neg hk

/-- A thread that cannot take a step cannot do so either when `w_join` waits. -/
lemma Resting.awaited_stuck (hs : s.Resting) (hexited : ∀ i, s.worker i ≠ .exited) (hn : 0 < n) :
    s.awaited.Stuck := by
  refine ⟨fun a hcall hspurious => ?_, hs.2⟩
  have h := hs.1 a hcall hspurious
  cases a with
  | work i =>
    have h : s.wProcess i = none := h (by rintro ⟨⟩)
    have hsame : s.awaited.wProcess i = none := by
      cases hw : s.worker i with
      | _ => simp_all [wProcess, lockThen, awaited, setWorker]
    exact hsame
  | workSignal i target =>
    have h : s.wProcessSignal i target = none := h (by rintro ⟨⟩)
    have hsame : s.awaited.wProcessSignal i target = none := by
      cases hw : s.worker i with
      | exitSignal | signal =>
        simp only [wProcessSignal, awaited, hw] at h ⊢
        refine condSignal_eq_none ?_ h
        rfl
      | _ => simp [wProcessSignal, awaited, hw]
    exact hsame
  | jobReturn i =>
    have h : s.jobReturn i = none := h (by rintro ⟨⟩)
    have hsame : s.awaited.jobReturn i = none := by
      cases hw : s.worker i with
      | _ => simp_all [jobReturn, awaited]
    exact hsame
  | callPost t job args => exact absurd rfl (hcall t job args)
  | post t =>
    have h : s.wPost t = none := h (by rintro ⟨⟩)
    have hsame : s.awaited.wPost t = none := by
      rcases hp : s.post t with _ | (_ | _ | _ | _ | _) <;> simp_all [wPost, awaited, setPost]
    exact hsame
  | postSignal t target =>
    have h : s.wPostSignal t target = none := h (by rintro ⟨⟩)
    have hsame : s.awaited.wPostSignal t target = none := by
      rcases hp : s.post t with _ | (_ | _ | _ | _ | _)
      case some.signal =>
        simp only [wPostSignal, awaited, hp] at h ⊢
        refine condSignal_eq_none ?_ h
        rfl
      all_goals simp [wPostSignal, awaited, hp]
    exact hsame
  | callJoin => rfl
  | join =>
    have hexit : (s.worker ⟨0, hn⟩).isExited = false :=
      Bool.eq_false_iff.mpr fun h => hexited _ (isExited_iff.mp h)
    simp [Pool.step, wJoin, awaited, hn, hexit]
  | joinSignal target => rfl
  | spurious i => exact absurd rfl (hspurious i)

end Rest

section Rest

variable [DecidableEq ι] {k : ℕ}

omit [Fintype ι] [DecidableEq ι] in
lemma Inv.awaited (hI : Inv s) : Inv s.awaited where
  lock := ⟨hI.lock.guards, hI.lock.post_running⟩
  jobs := ⟨hI.jobs.jobs_eq, fun i => (hI.jobs.sees i).of_stop⟩
  tickets := ⟨hI.tickets.plucked_eq, hI.tickets.called_eq, hI.tickets.held_pair,
    hI.tickets.called_pair, hI.tickets.job_called⟩
  posted := ⟨hI.posted.posted_lt, hI.posted.due_lt, hI.posted.post_lt⟩
  join := ⟨rfl, fun _ hi => absurd hi (Nat.not_lt_zero _)⟩

omit [Fintype ι] [DecidableEq ι] in
/-- Before `w_join` sets the flag no worker leaves. -/
lemma Inv.not_exited (hI : Inv s) (hjoin : s.join = .notCalled) (i : Fin n) :
    s.worker i ≠ .exited := by
  intro hi
  have hsees := hI.jobs.sees i
  rw [hi] at hsees
  have hstop := hI.join
  rw [JoinInv, hjoin] at hstop
  cases hsees.symm.trans hstop

omit [Fintype ι] [DecidableEq ι] in
/-- When every worker sleeps, each pair that was taken was called once and returned once. -/
lemma Inv.ranOnce_of_blocked (hI : Inv s) (hblocked : ∀ i, s.worker i = .blocked)
    (hk : k < s.hist.plucked.length) : s.RanOnce k := by
  have hheld : Hands.held s.heldTicket = 0 :=
    Hands.held_eq_zero fun i => by rw [heldTicket, hblocked]; rfl
  have hjob : Hands.held s.jobTicket = 0 :=
    Hands.held_eq_zero fun i => by rw [jobTicket, hblocked]; rfl
  have hcalled : (s.hist.called.map Plucked.ticket : Multiset ℕ) =
      Multiset.range s.hist.plucked.length := by
    rw [hI.tickets.plucked_eq, hheld, zero_add]
  have hfinished : (s.hist.finished : Multiset ℕ) = Multiset.range s.hist.plucked.length := by
    rw [← hcalled, hI.tickets.called_eq, hjob, zero_add]
  obtain ⟨p, hmem, hticket, hone⟩ := Hands.filter_eq_singleton hcalled hk
  constructor
  · exact ⟨p, hone, hticket ▸ hI.pushed_of_plucked (hI.tickets.called_pair p hmem)⟩
  · rw [← Multiset.coe_count, hfinished]
    exact Multiset.count_eq_one_of_mem (Multiset.nodup_range _) (Multiset.mem_range.mpr hk)

omit [Fintype ι] in
lemma watched_of_reachable (h : (poolSystem Q W n ι).Reachable s) : s.Watched := by
  have hboth : Inv s ∧ Watched s := by
    apply h.invariant (I := fun s => Inv s ∧ Watched s)
    · rintro s₀ rfl
      exact ⟨Inv.initial, fun _ hne => absurd LawfulFifoQueue.contents_create hne⟩
    · rintro s a s' ⟨hI, hW⟩ hstep
      exact ⟨hI.step hstep, hW.step hI hstep⟩
  exact hboth.2

omit [Fintype ι] in
/-- Before `w_join` is called, a pool at rest has nothing left to do: its workers sleep, the queue
is empty, and every job that was ever pushed was called once, with its own argument, and returned
once. -/
theorem posted_jobs_run (hn : 0 < n) (h : (poolSystem Q W n ι).Reachable s)
    (hjoin : s.join = .notCalled) (hrest : s.Resting) :
    (∀ i, s.worker i = .blocked) ∧ contents s.jobs = [] ∧
      ∀ k < s.hist.pushed.length, s.RanOnce k := by
  have hI := Inv.of_reachable h
  have hstuck := hrest.awaited_stuck (hI.not_exited hjoin) hn
  have hfree : s.lock = none := hstuck.lock_free hI.awaited
  have hpost : ∀ t, s.post t = none := fun t => hstuck.post_none hI.awaited t
  have hblocked : ∀ i, s.worker i = .blocked := fun i =>
    (hstuck.asleep_or_gone hI.awaited i).resolve_right (hI.not_exited hjoin i)
  have hjobs : contents s.jobs = [] := by
    by_contra hne
    rcases watched_of_reachable h hjoin hne ⟨0, hn⟩ (hblocked _) with
      ⟨t, ht⟩ | (⟨i, hi⟩ | ⟨t, y, ht, -⟩) | ⟨i, hi⟩
    · cases hfree.symm.trans ((hI.lock.guards t).mp ht)
    · rw [hblocked] at hi
      cases hi
    · cases (hpost t).symm.trans ht
    · rw [hblocked] at hi
      cases hi
  refine ⟨hblocked, hjobs, fun k hk => hI.ranOnce_of_blocked hblocked ?_⟩
  obtain ⟨rest, hrest, heq⟩ := hI.jobs.jobs_eq
  obtain ⟨htaken, hput⟩ := mid_of_free hfree
  rw [htaken, hput, hjobs, List.append_nil] at heq
  cases rest with
  | nil => rwa [hrest, List.append_nil] at hk
  | cons p rest => cases heq

omit [Fintype ι] [LawfulFifoQueue Q W] in
/-- A pool whose workers sleep is at rest. -/
lemma resting_of (hblocked : ∀ i, s.worker i = .blocked) (hpost : ∀ t, s.post t = none)
    (hjoin : s.join = .notCalled) : s.Resting := by
  refine ⟨fun a hcall hspurious hcallJoin => ?_, fun t job args => by simp [hpost]⟩
  cases a with
  | work i => simp [Pool.step, wProcess, hblocked]
  | workSignal i target => simp [Pool.step, wProcessSignal, hblocked]
  | jobReturn i => simp [Pool.step, jobReturn, hblocked]
  | callPost t job args => exact absurd rfl (hcall t job args)
  | post t => simp [Pool.step, wPost, hpost]
  | postSignal t target => simp [Pool.step, wPostSignal, hpost]
  | callJoin => exact absurd rfl hcallJoin
  | join => simp [Pool.step, wJoin, hjoin]
  | joinSignal target => simp [Pool.step, wJoinSignal, hjoin]
  | spurious i => exact absurd rfl (hspurious i)

end Rest

end Pool

/-- One job is posted, the worker runs it and goes to sleep. -/
def postAndRun {n : ℕ} (i : Fin n) : List (PoolAct ℕ n Unit) :=
  [.callPost (.client ()) 7 8, .post (.client ()), .post (.client ()), .post (.client ()),
    .post (.client ()), .postSignal (.client ()) none, .work i, .work i, .work i, .work i,
    .work i, .work i, .work i, .workSignal i none, .work i, .jobReturn i, .work i, .work i,
    .work i, .work i, .work i, .work i]

/-- The job brought as many steps as it is worth. -/
theorem run_length_le_one : ∃ s : Pool (RingQueue ℕ) ℕ 1 Unit,
    s.worker 0 = .blocked ∧
      22 + s.toDo ≤ (Pool.initial : Pool (RingQueue ℕ) ℕ 1 Unit).toDo + 53 := by
  have hrun : ((poolSystem (RingQueue ℕ) ℕ 1 Unit).exec Pool.initial (postAndRun 0)).any
      (·.worker 0 = .blocked) = true := by decide +kernel
  obtain ⟨s, hs, hworker⟩ := (Option.any_eq_true ..).mp hrun
  exact ⟨s, of_decide_eq_true hworker, Pool.run_length_le ⟨_, [], rfl, .nil⟩ (LTS.run_of_exec hs)⟩

/-- The worker sleeps after it ran the job. -/
theorem posted_jobs_run_one : ∃ s : Pool (RingQueue ℕ) ℕ 1 Unit,
    s.Resting ∧ s.hist.pushed = [(7, 8)] ∧ s.RanOnce 0 := by
  have hrun : ((poolSystem (RingQueue ℕ) ℕ 1 Unit).exec Pool.initial (postAndRun 0)).any
      (fun s => s.worker 0 = .blocked ∧ s.post (.worker 0) = none ∧ s.post (.client ()) = none ∧
        s.join = .notCalled ∧ s.hist.pushed = [(7, 8)]) = true := by decide +kernel
  obtain ⟨s, hs, hval⟩ := (Option.any_eq_true ..).mp hrun
  obtain ⟨hworker, hpost, hpost', hjoin, hpushed⟩ := of_decide_eq_true hval
  have hrest : s.Resting := by
    refine Pool.resting_of (fun i => Subsingleton.elim i 0 ▸ hworker) (fun t => ?_) hjoin
    cases t with
    | worker i => exact Subsingleton.elim i 0 ▸ hpost
    | client p => exact hpost'
  obtain ⟨-, -, hran⟩ := Pool.posted_jobs_run Nat.one_pos
    ⟨_, postAndRun 0, rfl, LTS.run_of_exec hs⟩ hjoin hrest
  exact ⟨s, hrest, hpushed, hran 0 (by rw [hpushed]; exact Nat.one_pos)⟩

end C10K
