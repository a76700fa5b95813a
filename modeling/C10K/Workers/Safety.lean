import C10K.Queue.Refinement
import C10K.Workers.Tickets

/-!
# What the pool promises while it works

Pairs leave the queue whole and in the order they came, each is called once with its own argument,
and a queued job is never left to workers that all sleep.
-/

namespace C10K

open LawfulFifoQueue (contents)

variable {Q W : Type} [FifoQueue Q W] [LawfulFifoQueue Q W] {n : ℕ} {ι : Type}
variable {s s' : Pool Q W n ι} {a : PoolAct W n ι}

/-! ### Pairs -/

namespace Pool

/-- A pair that was taken is the pair that was pushed under its number. -/
lemma Inv.pushed_of_plucked (hI : Inv s) {k : ℕ} {p : W × W}
    (h : s.hist.plucked[k]? = some p) : s.hist.pushed[k]? = some p := by
  obtain ⟨rest, hrest, -⟩ := hI.jobs.jobs_eq
  rw [hrest, List.getElem?_append_left (List.getElem?_eq_some_iff.mp h).1, h]

/-- No pair is called twice. -/
lemma Inv.called_nodup (hI : Inv s) : (s.hist.called.map Plucked.ticket).Nodup := by
  have hle : (s.hist.called.map Plucked.ticket : Multiset ℕ) ≤
      Multiset.range s.hist.plucked.length :=
    hI.tickets.plucked_eq ▸ Multiset.le_add_left ..
  exact Multiset.coe_nodup.mp (Multiset.nodup_of_le hle (Multiset.nodup_range _))

/-- A worker that is about to take a function finds a whole pair. -/
lemma Inv.nextFunction_pair (hI : Inv s) {i : Fin n} (h : s.worker i = .nextFunction) :
    ∃ f a l, contents s.jobs = f :: a :: l := by
  have hmid := hI.lock.mid_of_worker (i := i) (by rw [h]; rfl)
  have hne : contents s.jobs ≠ [] := by simpa [h, WorkerPc.Sees] using hI.jobs.sees i
  obtain ⟨rest, -, heq⟩ := hI.jobs.jobs_eq
  simp only [hmid, h, WorkerPc.taken, List.nil_append, List.append_nil] at heq
  cases rest with
  | nil => exact absurd heq hne
  | cons p rest => exact ⟨p.1, p.2, entries rest, heq⟩

/-- A worker that took a function finds its argument. -/
lemma Inv.nextArgs_ne_nil (hI : Inv s) {i : Fin n} {f : W} (h : s.worker i = .nextArgs f) :
    contents s.jobs ≠ [] := by
  have hmid := hI.lock.mid_of_worker (i := i) (by rw [h]; rfl)
  obtain ⟨rest, -, heq⟩ := hI.jobs.jobs_eq
  simp only [hmid, h, WorkerPc.taken, List.append_nil] at heq
  intro hnil
  cases rest <;> simp [hnil, entries] at heq

end Pool

variable [DecidableEq ι]

/-- In every reachable state, the pairs that workers took are the first of the pairs that were
pushed, in the same order; a function was called with the argument that was pushed with it; no pair
was called twice; and no worker takes from an empty queue. -/
theorem pairs_run_in_order (h : (poolSystem Q W n ι).Reachable s) :
    s.hist.plucked <+: s.hist.pushed ∧
    (∀ p ∈ s.hist.called, s.hist.pushed[p.ticket]? = some (p.functionP, p.args)) ∧
    (s.hist.called.map Plucked.ticket).Nodup ∧
    (∀ i, s.worker i = .nextFunction → ∃ f a l, contents s.jobs = f :: a :: l) ∧
    (∀ i f, s.worker i = .nextArgs f → contents s.jobs ≠ []) := by
  have hI := Pool.Inv.of_reachable h
  obtain ⟨rest, hrest, -⟩ := hI.jobs.jobs_eq
  refine ⟨⟨rest, hrest.symm⟩, fun p hp => ?_, hI.called_nodup, fun i hi => ?_, fun i f hf => ?_⟩
  · exact hI.pushed_of_plucked (hI.tickets.called_pair p hp)
  · exact hI.nextFunction_pair hi
  · exact hI.nextArgs_ne_nil hf

/-- Two clients post, and the one that called `w_post` last is the first to get the lock: a worker
runs its pair and then the other. -/
theorem pairs_run_in_order_two : ∃ s : Pool (RingQueue ℕ) ℕ 1 Bool,
    s.hist.called = [⟨9, 10, 0⟩, ⟨7, 8, 1⟩] ∧ s.hist.pushed = [(9, 10), (7, 8)] ∧
      s.hist.plucked <+: s.hist.pushed ∧
      (∀ p ∈ s.hist.called, s.hist.pushed[p.ticket]? = some (p.functionP, p.args)) ∧
      (s.hist.called.map Plucked.ticket).Nodup := by
  let posts : Bool → List (PoolAct ℕ 1 Bool) := fun client =>
    [.post (.client client), .post (.client client), .post (.client client),
      .post (.client client), .postSignal (.client client) none]
  let runs : List (PoolAct ℕ 1 Bool) :=
    [.work 0, .work 0, .work 0, .work 0, .work 0, .work 0, .work 0, .workSignal 0 none, .work 0]
  let acts : List (PoolAct ℕ 1 Bool) :=
    [.callPost (.client true) 7 8, .callPost (.client false) 9 10] ++ posts false ++ posts true ++
      runs ++ [.jobReturn 0] ++ runs
  have hrun : (((poolSystem (RingQueue ℕ) ℕ 1 Bool).exec Pool.initial acts).map
      fun s => (s.hist.called, s.hist.pushed)) =
      some ([⟨9, 10, 0⟩, ⟨7, 8, 1⟩], [(9, 10), (7, 8)]) := by decide +kernel
  obtain ⟨s, hs, hhist⟩ := Option.map_eq_some_iff.mp hrun
  obtain ⟨hcalled, hpushed⟩ := Prod.mk.inj hhist
  obtain ⟨hplucked, hpair, hnodup, -⟩ := pairs_run_in_order ⟨_, acts, rfl, LTS.run_of_exec hs⟩
  exact ⟨s, hcalled, hpushed, hplucked, hpair, hnodup⟩

/-! ### Sleeping workers -/

/-- The worker freed the lock and did not signal yet. -/
def WorkerPc.owesSignal : WorkerPc W → Bool
  | .exitSignal | .signal _ => true
  | _ => false

/-- The call freed the lock and did not signal yet. -/
def PostPc.owesSignal : PostPc W → Bool
  | .signal _ => true
  | _ => false

/-- The worker is on its way to take the lock. -/
def WorkerPc.onTheWay : WorkerPc W → Bool
  | .testJobs | .testStop | .lock | .woken => true
  | _ => false

namespace Pool

/-- Some worker or call of `w_post` still has to signal. -/
def SignalOwed (s : Pool Q W n ι) : Prop :=
  (∃ i, (s.worker i).owesSignal = true) ∨ ∃ t y, s.post t = some y ∧ y.owesSignal = true

/-- Some thread is inside the lock or still has to signal, or some worker is on its way to take the
lock. -/
def Attended (s : Pool Q W n ι) : Prop :=
  (∃ t, s.inLock t) ∨ s.SignalOwed ∨ ∃ i, (s.worker i).onTheWay = true

/-- While `w_join` was not called, a queued job is attended to unless every worker is awake. -/
def Watched (s : Pool Q W n ι) : Prop :=
  s.join = .notCalled → contents s.jobs ≠ [] → ∀ i, s.worker i = .blocked → s.Attended

omit [FifoQueue Q W] [LawfulFifoQueue Q W] [DecidableEq ι] in
/-- A woken worker is on its way, and without a blocked worker there is nothing to attend to. -/
lemma Wakes.attended (h : s.Wakes s') {i : Fin n} (hi : s'.worker i = .blocked) : s'.Attended := by
  cases h with
  | one k hk => exact .inr (.inr ⟨k, by simp [WorkerPc.onTheWay]⟩)
  | nobody h => exact absurd hi (h i)

omit [FifoQueue Q W] [LawfulFifoQueue Q W] [DecidableEq ι] in
/-- A worker that owes no signal moves. -/
lemma SignalOwed.setWorker (h : s.SignalOwed) {i : Fin n} {x : WorkerPc W}
    (howes : (s.worker i).owesSignal = false) : (s.setWorker i x).SignalOwed := by
  rcases h with hworker | hpost
  · exact .inl (Places.exists_update (Q := fun x => WorkerPc.owesSignal x = true) hworker
      (by simp [howes]))
  · exact .inr hpost

omit [FifoQueue Q W] [LawfulFifoQueue Q W] [DecidableEq ι] in
/-- A worker that neither held the lock, nor owed a signal, nor was on its way moves. -/
lemma Attended.setWorker (h : s.Attended) {i : Fin n} {x : WorkerPc W}
    (hin : x.inLock = (s.worker i).inLock) (howes : (s.worker i).owesSignal = false)
    (hway : (s.worker i).onTheWay = false) : (s.setWorker i x).Attended := by
  rcases h with ⟨t, ht⟩ | howed | honway
  · exact .inl ⟨t, (inLock_setWorker hin).mpr ht⟩
  · exact .inr (.inl (howed.setWorker howes))
  · exact .inr (.inr (Places.exists_update (Q := fun x => WorkerPc.onTheWay x = true) honway
      (by simp [hway])))

omit [FifoQueue Q W] [LawfulFifoQueue Q W] in
/-- A call of `w_post` starts. -/
lemma Attended.callPost (h : s.Attended) {t : Tid n ι} {job args : W} (hpost : s.post t = none) :
    (s.setPost t (some (.lock job args))).Attended := by
  rcases h with ⟨u, hu⟩ | (hworker | hcall) | hway
  · refine .inl ⟨u, ?_⟩
    by_cases hut : u = t
    · subst hut
      simpa [inLock, hpost, PostPc.inLock] using hu
    · exact (inLock_setPost_of_ne hut).mpr hu
  · exact .inr (.inl (.inl hworker))
  · exact .inr (.inl (.inr (Places.exists_update
      (Q := fun z => ∃ y, z = some y ∧ PostPc.owesSignal y = true) hcall (by simp [hpost]))))
  · exact .inr (.inr hway)

lemma Watched.step (hW : Watched s) (hI : Inv s) (hstep : s.step a = some s') : Watched s' := by
  intro hjoin hjobs i hi
  have hI' := hI.step hstep
  -- while some thread holds the lock there is nothing to show
  rcases hlock : s'.lock with _ | t
  swap
  · exact .inl ⟨t, (hI'.lock.guards t).mpr hlock⟩
  have hout : ∀ j, (s'.worker j).inLock = false := by
    intro j
    by_contra hin
    simp [hI'.lock.lock_of_worker (by simpa using hin)] at hlock
  have houtPost : ∀ t y, s'.post t = some y → y.inLock = false := by
    intro t y hy
    by_contra hin
    simp [hI'.lock.lock_of_post hy (by simpa using hin)] at hlock
  cases PoolRule.of_step hstep with
  | @read j x y h hr =>
    cases hr with
    | testJobsEmpty hempty => exact absurd hempty hjobs
    | testJobsSome | testStopUnset =>
      exact .inr (.inr ⟨j, by simp [WorkerPc.onTheWay]⟩)
    | testStopSet hstop =>
      have hstop' : s.stop = false := by simpa [JoinInv, JoinPc.Sees, show s.join = _ from hjoin]
        using hI.join
      simp [hstop'] at hstop
    | _ => simpa [WorkerPc.inLock] using hout j
  | acquire | postAcquire => cases hlock
  | @release j x y h hx =>
    cases hx with
    | wait => exact absurd (by simpa [h, WorkerPc.Sees] using hI.jobs.sees j) hjobs
    | exitUnlock | unlock p => exact .inr (.inl (.inl ⟨j, by simp [WorkerPc.owesSignal]⟩))
  | @nextFunction j | @nextArgs j => simpa [WorkerPc.inLock] using hout j
  | signal h hx hwake => exact hwake.attended hi
  | @call j p h =>
    have hij : i ≠ j := by
      rintro rfl
      simp at hi
    have hatt := hW hjoin hjobs i (by simpa [hij] using hi)
    exact hatt.setWorker (x := .running p) (by rw [h]; rfl) (by rw [h]; rfl) (by rw [h]; rfl)
  | @jobReturn j p h => exact .inr (.inr ⟨j, by simp [WorkerPc.onTheWay]⟩)
  | callPost hcan h => exact (hW hjoin hjobs i hi).callPost h
  | @pushJob t job args => cases houtPost t (.pushArgs job args) (by simp)
  | @pushArgs t => cases houtPost t (.unlock s.hist.pushed.length) (by simp)
  | @postRelease t k h =>
    exact .inr (.inl (.inr ⟨t, .signal k, by simp, rfl⟩))
  | postSignal h hwake | joinSignal h hwake => exact hwake.attended hi
  | spurious h => exact (Wakes.one _ h).attended hi
  | _ => cases hjoin

/-- In every reachable state before `w_join` is called in which a job is queued and a worker
sleeps, some thread is inside the lock or about to signal, or a worker is on its way to take the
lock. -/
theorem no_job_left_behind (h : (poolSystem Q W n ι).Reachable s) (hjoin : s.join = .notCalled)
    (hjobs : contents s.jobs ≠ []) (i : Fin n) (hi : s.worker i = .blocked) : s.Attended := by
  have hW : Inv s ∧ Watched s := by
    refine h.invariant (I := fun s => Inv s ∧ Watched s) (fun s₀ h₀ => ?_) fun _ _ _ hs hstep => ?_
    · obtain rfl : s₀ = Pool.initial := h₀
      exact ⟨Inv.initial, fun _ hne => absurd LawfulFifoQueue.contents_create hne⟩
    · exact ⟨hs.1.step hstep, hs.2.step hs.1 hstep⟩
  exact hW.2 hjoin hjobs i hi

end Pool

/-- Two workers sleep, a client has posted a job and is about to signal. -/
theorem no_job_left_behind_two : ∃ s : Pool (RingQueue ℕ) ℕ 2 Unit,
    s.worker 0 = .blocked ∧ contents s.jobs ≠ [] ∧ s.Attended := by
  let acts : List (PoolAct ℕ 2 Unit) :=
    [.work 0, .work 0, .work 0, .work 0, .work 0, .work 0, .work 1, .work 1, .work 1, .work 1,
      .work 1, .work 1, .callPost (.client ()) 7 8, .post (.client ()), .post (.client ()),
      .post (.client ()), .post (.client ())]
  have hrun : (((poolSystem (RingQueue ℕ) ℕ 2 Unit).exec Pool.initial acts).map
      fun s => (s.worker 0, s.join, contents s.jobs)) =
      some (.blocked, .notCalled, [7, 8]) := by decide +kernel
  obtain ⟨s, hs, hval⟩ := Option.map_eq_some_iff.mp hrun
  simp only [Prod.mk.injEq] at hval
  have hjobs : contents s.jobs ≠ [] := by simp [hval.2.2]
  exact ⟨s, hval.1, hjobs,
    Pool.no_job_left_behind ⟨_, acts, rfl, LTS.run_of_exec hs⟩ hval.2.1 hjobs 0 hval.1⟩

end C10K
