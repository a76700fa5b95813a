import C10K.Workers.Basic

/-!
# What a step of the pool can do

`PoolRule.of_step` reads a step of the pool back as one of the rules below. The invariants of the
pool are proved by cases on the rules and never unfold `Pool.step`.
-/

namespace C10K

open LawfulFifoQueue (contents)

variable {Q W : Type} [FifoQueue Q W] [LawfulFifoQueue Q W] {n : ℕ} {ι : Type} [DecidableEq ι]

/-- A read of `_jobs` or `_stop` takes a worker from the one place to the other. -/
inductive WorkerPc.Reads (s : Pool Q W n ι) : WorkerPc W → WorkerPc W → Prop where
  | testJobsEmpty (h : contents s.jobs = []) : Reads s .testJobs .testStop
  | testJobsSome (h : contents s.jobs ≠ []) : Reads s .testJobs .lock
  | testStopSet (h : s.stop = true) : Reads s .testStop .exited
  | testStopUnset (h : s.stop = false) : Reads s .testStop .lock
  | waitJobsEmpty (h : contents s.jobs = []) : Reads s .waitJobs .waitStop
  | waitJobsSome (h : contents s.jobs ≠ []) : Reads s .waitJobs .exitJobs
  | waitStopSet (h : s.stop = true) : Reads s .waitStop .exitJobs
  | waitStopUnset (h : s.stop = false) : Reads s .waitStop .wait
  | exitJobsEmpty (h : contents s.jobs = []) : Reads s .exitJobs .exitStop
  | exitJobsSome (h : contents s.jobs ≠ []) : Reads s .exitJobs .nextFunction
  | exitStopSet (h : s.stop = true) : Reads s .exitStop .exitUnlock
  | exitStopUnset (h : s.stop = false) : Reads s .exitStop .nextFunction

/-- The places where a worker waits for the lock. -/
inductive WorkerPc.Acquires : WorkerPc W → Prop where
  | lock : Acquires .lock
  | woken : Acquires .woken

/-- The places where a worker gives the lock back, and where it goes. -/
inductive WorkerPc.Releases : WorkerPc W → WorkerPc W → Prop where
  | wait : Releases .wait .blocked
  | exitUnlock : Releases .exitUnlock .exitSignal
  | unlock (p : Plucked W) : Releases (.unlock p) (.signal p)

/-- The places where a worker signals, and where it goes. -/
inductive WorkerPc.Signals : WorkerPc W → WorkerPc W → Prop where
  | exitSignal : Signals .exitSignal .exited
  | signal (p : Plucked W) : Signals (.signal p) (.call p)

/-- What a signal does: it wakes one blocked worker, and nothing when there is none. -/
inductive Pool.Wakes (s : Pool Q W n ι) : Pool Q W n ι → Prop where
  | one (k : Fin n) (h : s.worker k = .blocked) : Wakes s (s.setWorker k .woken)
  | nobody (h : ∀ k, s.worker k ≠ .blocked) : Wakes s s

/-- The steps of the pool. -/
inductive PoolRule (s : Pool Q W n ι) : PoolAct W n ι → Pool Q W n ι → Prop where
  | read {i x y} (h : s.worker i = x) (hr : x.Reads s y) : PoolRule s (.work i) (s.setWorker i y)
  | acquire {i x} (h : s.worker i = x) (hx : x.Acquires) (hfree : s.lock = none) :
      PoolRule s (.work i) ((s.setWorker i .waitJobs).setLock (some (.worker i)))
  | release {i x y} (h : s.worker i = x) (hx : x.Releases y) :
      PoolRule s (.work i) ((s.setWorker i y).setLock none)
  | nextFunction {i f jobs} (h : s.worker i = .nextFunction)
      (hnext : FifoQueue.next s.jobs = some (f, jobs)) :
      PoolRule s (.work i) { s.setWorker i (.nextArgs f) with jobs }
  | nextArgs {i f a jobs} (h : s.worker i = .nextArgs f)
      (hnext : FifoQueue.next s.jobs = some (a, jobs)) :
      PoolRule s (.work i) { s.setWorker i (.unlock ⟨f, a, s.hist.plucked.length⟩) with
        jobs
        hist := { s.hist with plucked := s.hist.plucked ++ [(f, a)] } }
  | signal {i x y target s'} (h : s.worker i = x) (hx : x.Signals y)
      (hwake : (s.setWorker i y).Wakes s') : PoolRule s (.workSignal i target) s'
  | call {i p} (h : s.worker i = .call p) :
      PoolRule s (.work i) { s.setWorker i (.running p) with
        hist := { s.hist with called := s.hist.called ++ [p] } }
  | jobReturn {i p} (h : s.worker i = .running p) (hpost : s.post (.worker i) = none) :
      PoolRule s (.jobReturn i) { s.setWorker i .testJobs with
        hist := { s.hist with finished := s.hist.finished ++ [p.ticket] } }
  | callPost {t job args} (hcan : s.canPost t) (h : s.post t = none) :
      PoolRule s (.callPost t job args) (s.setPost t (some (.lock job args)))
  | postAcquire {t job args} (h : s.post t = some (.lock job args)) (hfree : s.lock = none) :
      PoolRule s (.post t) ((s.setPost t (some (.pushJob job args))).setLock (some t))
  | pushJob {t job args jobs} (h : s.post t = some (.pushJob job args))
      (hpush : FifoQueue.push s.jobs job = some jobs) :
      PoolRule s (.post t) { s.setPost t (some (.pushArgs job args)) with jobs }
  | pushArgs {t job args jobs} (h : s.post t = some (.pushArgs job args))
      (hpush : FifoQueue.push s.jobs args = some jobs) :
      PoolRule s (.post t) { s.setPost t (some (.unlock s.hist.pushed.length)) with
        jobs
        hist := { s.hist with pushed := s.hist.pushed ++ [(job, args)] } }
  | postRelease {t k} (h : s.post t = some (.unlock k)) :
      PoolRule s (.post t) ((s.setPost t (some (.signal k))).setLock none)
  | postSignal {t k target s'} (h : s.post t = some (.signal k))
      (hwake : Pool.Wakes { s.setPost t none with
        hist := { s.hist with posted := s.hist.posted ++ [k] } } s') :
      PoolRule s (.postSignal t target) s'
  | callJoin (h : s.join = .notCalled) :
      PoolRule s .callJoin { s with join := .test, hist := { s.hist with due := s.hist.posted } }
  | joinTestSet (h : s.join = .test) (hstop : s.stop = true) :
      PoolRule s .join { s with join := .returned }
  | joinTestUnset (h : s.join = .test) (hstop : s.stop = false) :
      PoolRule s .join { s with join := .setStop }
  | setStop (h : s.join = .setStop) : PoolRule s .join { s with stop := true, join := .signal }
  | joinSignal {target s'} (h : s.join = .signal)
      (hwake : Pool.Wakes { s with join := .joining 0 } s') : PoolRule s (.joinSignal target) s'
  | joinOne {k : Fin n} (h : s.join = .joining k) (hexit : s.worker k = .exited) :
      PoolRule s .join { s with join := .joining (k + 1) }
  | joinAll {k : ℕ} (h : s.join = .joining k) (hk : n ≤ k) :
      PoolRule s .join { s with join := .returned }
  | spurious {i} (h : s.worker i = .blocked) : PoolRule s (.spurious i) (s.setWorker i .woken)

namespace Pool

variable {s s' : Pool Q W n ι} {i : Fin n} {t : Tid n ι} {target : Option (Fin n)}

lemma isBlocked_iff {x : WorkerPc W} : x.isBlocked = true ↔ x = .blocked := by
  cases x <;> simp [WorkerPc.isBlocked]

lemma isExited_iff {x : WorkerPc W} : x.isExited = true ↔ x = .exited := by
  cases x <;> simp [WorkerPc.isExited]

lemma isRunning_iff {x : WorkerPc W} : x.isRunning = true ↔ ∃ p, x = .running p := by
  cases x <;> simp [WorkerPc.isRunning]

lemma contents_eq_nil {q : Q} (h : FifoQueue.isEmpty q = true) : contents q = [] :=
  (LawfulFifoQueue.isEmpty_iff q).mp h

lemma contents_ne_nil {q : Q} (h : ¬ FifoQueue.isEmpty q = true) : contents q ≠ [] :=
  fun hq => h ((LawfulFifoQueue.isEmpty_iff q).mpr hq)

omit [FifoQueue Q W] [LawfulFifoQueue Q W] [DecidableEq ι] in
lemma wakes_of_condSignal (h : s.condSignal target = some s') : s.Wakes s' := by
  cases target with
  | none =>
    simp only [condSignal] at h
    split_ifs at h with hnone
    cases h
    exact .nobody fun k hk => Bool.false_ne_true ((hnone k).symm.trans (isBlocked_iff.mpr hk))
  | some k =>
    simp only [condSignal] at h
    split_ifs at h with hk
    cases h
    exact .one k (isBlocked_iff.mp hk)

/-- A worker's own step is a read, a lock operation, or one of its calls. -/
lemma rule_of_wProcess (h : s.wProcess i = some s') : PoolRule s (.work i) s' := by
  unfold wProcess at h
  cases hw : s.worker i <;>
    simp only [hw, lockThen, reduceCtorEq, Option.some.injEq, Option.isNone_iff_eq_none,
      Option.ite_none_right_eq_some, bind, Option.bind_eq_some_iff, pure, Prod.exists] at h
  case lock =>
    obtain ⟨hfree, rfl⟩ := h
    exact .acquire hw .lock hfree
  case woken =>
    obtain ⟨hfree, rfl⟩ := h
    exact .acquire hw .woken hfree
  case wait =>
    subst h
    exact .release hw .wait
  case exitUnlock =>
    subst h
    exact .release hw .exitUnlock
  case unlock p =>
    subst h
    exact .release hw (.unlock p)
  case nextFunction =>
    obtain ⟨f, jobs, hnext, rfl⟩ := h
    exact .nextFunction hw hnext
  case nextArgs f =>
    obtain ⟨a, jobs, hnext, rfl⟩ := h
    exact .nextArgs hw hnext
  case call p =>
    subst h
    exact .call hw
  case testJobs =>
    subst h
    split_ifs with hq
    · exact .read hw (.testJobsEmpty (contents_eq_nil hq))
    · exact .read hw (.testJobsSome (contents_ne_nil hq))
  case testStop =>
    subst h
    split_ifs with hstop
    · exact .read hw (.testStopSet hstop)
    · exact .read hw (.testStopUnset (eq_false_of_ne_true hstop))
  case waitJobs =>
    subst h
    split_ifs with hq
    · exact .read hw (.waitJobsEmpty (contents_eq_nil hq))
    · exact .read hw (.waitJobsSome (contents_ne_nil hq))
  case waitStop =>
    subst h
    split_ifs with hstop
    · exact .read hw (.waitStopSet hstop)
    · exact .read hw (.waitStopUnset (eq_false_of_ne_true hstop))
  case exitJobs =>
    subst h
    split_ifs with hq
    · exact .read hw (.exitJobsEmpty (contents_eq_nil hq))
    · exact .read hw (.exitJobsSome (contents_ne_nil hq))
  case exitStop =>
    subst h
    split_ifs with hstop
    · exact .read hw (.exitStopSet hstop)
    · exact .read hw (.exitStopUnset (eq_false_of_ne_true hstop))

lemma rule_of_wPost (h : s.wPost t = some s') : PoolRule s (.post t) s' := by
  unfold wPost at h
  rcases hp : s.post t with _ | (_ | _ | _ | _ | _) <;>
    simp only [hp, reduceCtorEq, Option.some.injEq, Option.isNone_iff_eq_none,
      Option.ite_none_right_eq_some, bind, Option.bind_eq_some_iff, pure] at h
  case some.lock =>
    obtain ⟨hfree, rfl⟩ := h
    exact .postAcquire hp hfree
  case some.pushJob =>
    obtain ⟨jobs, hpush, rfl⟩ := h
    exact .pushJob hp hpush
  case some.pushArgs =>
    obtain ⟨jobs, hpush, rfl⟩ := h
    exact .pushArgs hp hpush
  case some.unlock =>
    subst h
    exact .postRelease hp

lemma rule_of_wJoin (h : s.wJoin = some s') : PoolRule s .join s' := by
  unfold wJoin at h
  cases hj : s.join with
  | notCalled | signal | returned => simp [hj] at h
  | test =>
    simp only [hj, Option.some.injEq] at h
    subst h
    split_ifs with hstop
    · exact .joinTestSet hj hstop
    · exact .joinTestUnset hj (Bool.not_eq_true _ ▸ hstop)
  | setStop =>
    simp only [hj, Option.some.injEq] at h
    subst h
    exact .setStop hj
  | joining k =>
    simp only [hj] at h
    split_ifs at h with hk hexit
    · cases h
      exact .joinOne (k := ⟨k, hk⟩) hj (isExited_iff.mp hexit)
    · cases h
      exact .joinAll hj (not_lt.mp hk)

end Pool

variable {s s' : Pool Q W n ι} {a : PoolAct W n ι}

/-- Every step of the pool is an instance of one of the rules. -/
theorem PoolRule.of_step (h : s.step a = some s') : PoolRule s a s' := by
  cases a with
  | work i => exact Pool.rule_of_wProcess h
  | workSignal i target =>
    simp only [Pool.step, Pool.wProcessSignal] at h
    split at h
    · exact .signal ‹_› .exitSignal (Pool.wakes_of_condSignal h)
    · exact .signal ‹_› (.signal _) (Pool.wakes_of_condSignal h)
    · cases h
  | jobReturn i =>
    simp only [Pool.step, Pool.jobReturn, Option.isNone_iff_eq_none] at h
    split at h
    · split_ifs at h with hpost
      cases h
      exact .jobReturn ‹_› hpost
    · cases h
  | callPost t job args =>
    simp only [Pool.step, Option.isNone_iff_eq_none] at h
    split_ifs at h with hcan
    cases h
    exact .callPost hcan.1 hcan.2
  | post t => exact Pool.rule_of_wPost h
  | postSignal t target =>
    simp only [Pool.step, Pool.wPostSignal] at h
    split at h
    · exact .postSignal ‹_› (Pool.wakes_of_condSignal h)
    · cases h
  | callJoin =>
    simp only [Pool.step] at h
    split at h
    · cases h
      exact .callJoin ‹_›
    · cases h
  | join => exact Pool.rule_of_wJoin h
  | joinSignal target =>
    simp only [Pool.step, Pool.wJoinSignal] at h
    split at h
    · exact .joinSignal ‹_› (Pool.wakes_of_condSignal h)
    · cases h
  | spurious i =>
    simp only [Pool.step] at h
    split_ifs at h with hb
    cases h
    exact .spurious (Pool.isBlocked_iff.mp hb)

end C10K
