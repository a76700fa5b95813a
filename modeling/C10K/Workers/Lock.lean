import C10K.Lib.Sharing
import C10K.Workers.Rule

/-!
# The lock of the pool

What each place in the code says about its thread, and the invariant of the lock: at most one
thread stands between a lock and an unlock, and it is the one that the lock names.
-/

namespace C10K

open LawfulFifoQueue (contents)

/-! ### What a place in the code says -/

namespace WorkerPc

variable {W : Type}

/-- The worker stands between a lock and an unlock. -/
def inLock : WorkerPc W → Bool
  | .waitJobs | .waitStop | .wait | .exitJobs | .exitStop | .exitUnlock | .nextFunction
  | .nextArgs _ | .unlock _ => true
  | .testJobs | .testStop | .lock | .blocked | .woken | .exitSignal | .signal _ | .call _
  | .running _ | .exited => false

/-- The half of a pair that the worker took from the queue already. -/
def taken : WorkerPc W → List W
  | .nextArgs f => [f]
  | _ => []

/-- The pair that the worker took and did not run yet. -/
def held : WorkerPc W → Option (Plucked W)
  | .unlock p | .signal p | .call p => some p
  | _ => none

/-- The pair that the worker runs. -/
def job : WorkerPc W → Option (Plucked W)
  | .running p => some p
  | _ => none

/-- What the worker knows about the queue and the flag from what it read. -/
def Sees (jobs : List W) (stop : Bool) : WorkerPc W → Prop
  | .waitStop | .wait => jobs = []
  | .exitJobs => jobs = [] → stop = true
  | .exitStop | .exitUnlock => jobs = [] ∧ stop = true
  | .nextFunction => jobs ≠ []
  | .exitSignal | .exited => stop = true
  | _ => True

/-- Outside the lock a worker knows nothing about the queue, and the flag stays set. -/
lemma Sees.of_not_inLock {x : WorkerPc W} {jobs jobs' : List W} {stop stop' : Bool}
    (h : x.Sees jobs stop) (hx : x.inLock = false) (hstop : stop = true → stop' = true) :
    x.Sees jobs' stop' := by
  cases x <;> simp_all [Sees, inLock]

lemma Sees.of_stop {x : WorkerPc W} {jobs : List W} {stop : Bool} (h : x.Sees jobs stop) :
    x.Sees jobs true := by
  cases x <;> simp_all [Sees]

end WorkerPc

/-- The call stands between the lock and the unlock. -/
def PostPc.inLock {W : Type} : PostPc W → Bool
  | .pushJob _ _ | .pushArgs _ _ | .unlock _ => true
  | .lock _ _ | .signal _ => false

/-- The half of a pair that the call pushed already. -/
def PostPc.put {W : Type} : PostPc W → List W
  | .pushArgs job _ => [job]
  | _ => []

/-- The number of the pair that the call pushed. -/
def PostPc.ticket {W : Type} : PostPc W → Option ℕ
  | .unlock k | .signal k => some k
  | _ => none

variable {Q W : Type} {n : ℕ} {ι : Type}

namespace WorkerPc

variable [FifoQueue Q W] [LawfulFifoQueue Q W] {s : Pool Q W n ι} {x y : WorkerPc W}

lemma Reads.inLock_eq (h : x.Reads s y) : y.inLock = x.inLock := by cases h <;> rfl
lemma Reads.isRunning_eq (h : x.Reads s y) : x.isRunning = false := by cases h <;> rfl
lemma Reads.taken_eq (h : x.Reads s y) : y.taken = x.taken := by cases h <;> rfl
lemma Reads.held_eq (h : x.Reads s y) : y.held = x.held := by cases h <;> rfl
lemma Reads.job_eq (h : x.Reads s y) : y.job = x.job := by cases h <;> rfl

/-- What a worker reads is what it knows afterwards. -/
lemma Reads.sees (h : x.Reads s y) (hx : x.Sees (contents s.jobs) s.stop) :
    y.Sees (contents s.jobs) s.stop := by
  cases h <;> simp_all [Sees]

omit [FifoQueue Q W] [LawfulFifoQueue Q W]

lemma Acquires.isRunning_eq (h : x.Acquires) : x.isRunning = false := by cases h <;> rfl
lemma Acquires.held_eq (h : x.Acquires) : x.held = none := by cases h <;> rfl
lemma Acquires.job_eq (h : x.Acquires) : x.job = none := by cases h <;> rfl

lemma Releases.inLock_eq (h : x.Releases y) : x.inLock = true ∧ y.inLock = false := by
  cases h <;> exact ⟨rfl, rfl⟩

lemma Releases.isRunning_eq (h : x.Releases y) : x.isRunning = false := by cases h <;> rfl
lemma Releases.taken_eq (h : x.Releases y) : x.taken = [] := by cases h <;> rfl
lemma Releases.held_eq (h : x.Releases y) : y.held = x.held := by cases h <;> rfl
lemma Releases.job_eq (h : x.Releases y) : y.job = x.job := by cases h <;> rfl

lemma Releases.sees {jobs : List W} {stop : Bool} (h : x.Releases y) (hx : x.Sees jobs stop) :
    y.Sees jobs stop := by
  cases h <;> simp_all [Sees]

lemma Signals.inLock_eq (h : x.Signals y) : x.inLock = false ∧ y.inLock = false := by
  cases h <;> exact ⟨rfl, rfl⟩

lemma Signals.isRunning_eq (h : x.Signals y) : x.isRunning = false := by cases h <;> rfl
lemma Signals.taken_eq (h : x.Signals y) : y.taken = x.taken := by cases h <;> rfl
lemma Signals.held_eq (h : x.Signals y) : y.held = x.held := by cases h <;> rfl
lemma Signals.job_eq (h : x.Signals y) : y.job = x.job := by cases h <;> rfl

lemma Signals.sees {jobs : List W} {stop : Bool} (h : x.Signals y) (hx : x.Sees jobs stop) :
    y.Sees jobs stop := by
  cases h <;> simp_all [Sees]

end WorkerPc

/-! ### The lock -/

namespace Pool

/-- The place of thread `t` in `w_process`, if it is a worker. -/
def workerOf (s : Pool Q W n ι) : Tid n ι → Option (WorkerPc W)
  | .worker i => some (s.worker i)
  | .client _ => none

/-- Thread `t` stands between a lock and an unlock. -/
def inLock (s : Pool Q W n ι) (t : Tid n ι) : Prop :=
  (s.workerOf t).any WorkerPc.inLock = true ∨ (s.post t).any PostPc.inLock = true

/-- The threads take turns with the lock, and only a job of a worker calls `w_post`. -/
structure LockInv (s : Pool Q W n ι) : Prop where
  guards : Mutex.Guards s.lock s.inLock
  post_running : ∀ i, s.post (.worker i) ≠ none → (s.worker i).isRunning = true

variable {s s' : Pool Q W n ι} {i : Fin n} {t : Tid n ι} {x : WorkerPc W} {y : PostPc W}

lemma LockInv.post_eq_none (hI : LockInv s) (h : (s.worker i).isRunning = false) :
    s.post (.worker i) = none := by
  by_contra hpost
  simp [hI.post_running i hpost] at h

lemma LockInv.lock_of_worker (hI : LockInv s) (h : (s.worker i).inLock = true) :
    s.lock = some (.worker i) :=
  (hI.guards _).mp (.inl (by simpa [workerOf] using h))

lemma LockInv.lock_of_post (hI : LockInv s) (h : s.post t = some y) (hy : y.inLock = true) :
    s.lock = some t :=
  (hI.guards t).mp (.inr (by simpa [h] using hy))

/-- While another thread holds the lock, a worker stands outside. -/
lemma LockInv.worker_outside (hI : LockInv s) (h : s.lock = some t) (ht : t ≠ .worker i) :
    (s.worker i).inLock = false := by
  by_contra hin
  exact ht (Option.some.inj (h.symm.trans (hI.lock_of_worker (by simpa using hin))))

/-- A thread that is in a call of `w_post` does not hold the lock as a worker. -/
lemma LockInv.workerOf_of_post (hI : LockInv s) (h : s.post t ≠ none) :
    (s.workerOf t).any WorkerPc.inLock = false ∧ (s.workerOf t).elim [] WorkerPc.taken = [] := by
  cases t with
  | client p => exact ⟨rfl, rfl⟩
  | worker i =>
    obtain ⟨p, hp⟩ := isRunning_iff.mp (hI.post_running i h)
    simp [workerOf, hp, WorkerPc.inLock, WorkerPc.taken]

@[simp] lemma workerOf_setLock {holder : Option (Tid n ι)} :
    (s.setLock holder).workerOf t = s.workerOf t := by
  cases t <;> rfl

@[simp] lemma inLock_setLock {holder : Option (Tid n ι)} :
    (s.setLock holder).inLock t = s.inLock t := by
  simp [inLock]

lemma inLock_setWorker_of_ne (h : t ≠ .worker i) : (s.setWorker i x).inLock t ↔ s.inLock t := by
  cases t with
  | client p => rfl
  | worker j =>
    have hj : j ≠ i := fun hji => h (hji ▸ rfl)
    simp [inLock, workerOf, hj]

lemma inLock_setWorker (hx : x.inLock = (s.worker i).inLock) :
    (s.setWorker i x).inLock t ↔ s.inLock t := by
  by_cases ht : t = .worker i
  · subst ht
    simp [inLock, workerOf, hx]
  · exact inLock_setWorker_of_ne ht

/-- A worker moves without passing a lock or an unlock. -/
lemma LockInv.setWorker (hI : LockInv s) (hx : x.inLock = (s.worker i).inLock)
    (hpost : s.post (.worker i) = none) : LockInv (s.setWorker i x) := by
  refine ⟨hI.guards.frame fun t => inLock_setWorker hx, fun j hj => ?_⟩
  have hji : j ≠ i := fun h => hj (h ▸ hpost)
  simpa [hji] using hI.post_running j hj

/-- A worker takes the free lock. -/
lemma LockInv.acquire (hI : LockInv s) (hfree : s.lock = none) (hx : x.inLock = true)
    (hpost : s.post (.worker i) = none) :
    LockInv ((s.setWorker i x).setLock (some (.worker i))) := by
  have hguards : Mutex.Guards none s.inLock := hfree ▸ hI.guards
  refine ⟨hguards.acquire fun u => ?_, fun j hj => ?_⟩
  · by_cases hu : u = .worker i
    · subst hu
      simp [inLock, workerOf, hx]
    · simpa [hu] using inLock_setWorker_of_ne (s := s) (x := x) hu
  · have hji : j ≠ i := fun h => hj (h ▸ hpost)
    simpa [hji] using hI.post_running j hj

/-- A worker frees the lock. -/
lemma LockInv.release (hI : LockInv s) (hin : (s.worker i).inLock = true) (hx : x.inLock = false)
    (hpost : s.post (.worker i) = none) : LockInv ((s.setWorker i x).setLock none) := by
  refine ⟨hI.guards.release (t := .worker i) ?_ fun u => ?_, fun j hj => ?_⟩
  · exact .inl (by simpa [workerOf] using hin)
  · by_cases hu : u = .worker i
    · subst hu
      simp [inLock, workerOf, hx, hpost]
    · simpa [hu] using inLock_setWorker_of_ne (s := s) (x := x) hu
  · have hji : j ≠ i := fun h => hj (h ▸ hpost)
    simpa [hji] using hI.post_running j hj

variable [DecidableEq ι] {z : Option (PostPc W)}

@[simp] lemma workerOf_setPost {u : Tid n ι} : (s.setPost t z).workerOf u = s.workerOf u := by
  cases u <;> rfl

lemma inLock_setPost_of_ne {u : Tid n ι} (h : u ≠ t) : (s.setPost t z).inLock u ↔ s.inLock u := by
  simp [inLock, h]

/-- A call of `w_post` moves without passing a lock or an unlock. -/
lemma LockInv.setPost (hI : LockInv s) (hz : z.any PostPc.inLock = (s.post t).any PostPc.inLock)
    (hrun : ∀ i, t = .worker i → z ≠ none → (s.worker i).isRunning = true) :
    LockInv (s.setPost t z) := by
  refine ⟨hI.guards.frame fun u => ?_, fun i hi => ?_⟩
  · by_cases hu : u = t
    · subst hu
      simp [inLock, hz]
    · exact inLock_setPost_of_ne hu
  · by_cases ht : Tid.worker i = t
    · exact hrun i ht.symm (by simpa [ht] using hi)
    · exact hI.post_running i (by simpa [ht] using hi)

/-- A call of `w_post` takes the free lock. -/
lemma LockInv.postAcquire (hI : LockInv s) (hfree : s.lock = none) (hy : y.inLock = true)
    (hpost : s.post t ≠ none) : LockInv ((s.setPost t (some y)).setLock (some t)) := by
  have hguards : Mutex.Guards none s.inLock := hfree ▸ hI.guards
  refine ⟨hguards.acquire fun u => ?_, fun i hi => ?_⟩
  · by_cases hu : u = t
    · subst hu
      simp [inLock, hy]
    · simpa [hu] using inLock_setPost_of_ne (s := s) (z := some y) hu
  · by_cases ht : Tid.worker i = t
    · exact hI.post_running i (ht ▸ hpost)
    · exact hI.post_running i (by simpa [ht] using hi)

/-- A call of `w_post` frees the lock. -/
lemma LockInv.postRelease (hI : LockInv s) {w : PostPc W} (h : s.post t = some w)
    (hw : w.inLock = true) (hy : y.inLock = false) :
    LockInv ((s.setPost t (some y)).setLock none) := by
  have hpost : s.post t ≠ none := by simp [h]
  refine ⟨hI.guards.release (t := t) (.inr (by simp [h, hw])) fun u => ?_, fun i hi => ?_⟩
  · by_cases hu : u = t
    · subst hu
      simp [inLock, hy, (hI.workerOf_of_post hpost).1]
    · simpa [hu] using inLock_setPost_of_ne (s := s) (z := some y) hu
  · by_cases ht : Tid.worker i = t
    · exact hI.post_running i (ht ▸ hpost)
    · exact hI.post_running i (by simpa [ht] using hi)

omit [DecidableEq ι] in
/-- Nothing but the lock and the places of the threads counts. -/
lemma LockInv.congr (hI : LockInv s) (hlock : s'.lock = s.lock) (hworker : s'.worker = s.worker)
    (hpost : s'.post = s.post) : LockInv s' := by
  obtain ⟨_, _, _, _, _, _, _⟩ := s'
  subst hlock hworker hpost
  exact ⟨hI.guards, hI.post_running⟩

omit [DecidableEq ι] in
lemma LockInv.wakes (hI : LockInv s) (h : s.Wakes s') : LockInv s' := by
  cases h with
  | nobody => exact hI
  | one k hk =>
    exact hI.setWorker (by rw [hk]; rfl) (hI.post_eq_none (by rw [hk]; rfl))

theorem LockInv.step [FifoQueue Q W] [LawfulFifoQueue Q W] {a : PoolAct W n ι} (hI : LockInv s)
    (hstep : s.step a = some s') : LockInv s' := by
  cases PoolRule.of_step hstep with
  | read h hr =>
    subst h
    exact hI.setWorker hr.inLock_eq (hI.post_eq_none hr.isRunning_eq)
  | acquire h hx hfree =>
    subst h
    exact hI.acquire hfree rfl (hI.post_eq_none hx.isRunning_eq)
  | release h hx =>
    subst h
    exact hI.release hx.inLock_eq.1 hx.inLock_eq.2 (hI.post_eq_none hx.isRunning_eq)
  | nextFunction h | nextArgs h | call h =>
    refine (hI.setWorker ?_ (hI.post_eq_none ?_)).congr rfl rfl rfl <;> rw [h] <;> rfl
  | signal h hx hwake =>
    subst h
    have hmid := hI.setWorker (hx.inLock_eq.2.trans hx.inLock_eq.1.symm)
      (hI.post_eq_none hx.isRunning_eq)
    exact hmid.wakes hwake
  | jobReturn h hpost => exact (hI.setWorker (by rw [h]; rfl) hpost).congr rfl rfl rfl
  | callPost hcan h =>
    refine hI.setPost (by rw [h]; rfl) fun i hi _ => ?_
    subst hi
    exact hcan
  | postAcquire h hfree => exact hI.postAcquire hfree rfl (by simp [h])
  | @pushJob t | @pushArgs t =>
    rename_i h hpush
    refine (hI.setPost (t := t) (by rw [h]; rfl) fun i hi _ => ?_).congr rfl rfl rfl
    exact hI.post_running i (by simp [← hi, h])
  | postRelease h => exact hI.postRelease h rfl rfl
  | postSignal h hwake =>
    have hmid := hI.setPost (t := _) (z := none) (by rw [h]; rfl) fun _ _ hne => absurd rfl hne
    refine LockInv.wakes ?_ hwake
    exact hmid.congr rfl rfl rfl
  | callJoin | joinTestSet | joinTestUnset | setStop | joinOne | joinAll =>
    exact hI.congr rfl rfl rfl
  | joinSignal h hwake =>
    refine LockInv.wakes ?_ hwake
    exact hI.congr rfl rfl rfl
  | spurious h => exact hI.wakes (.one _ h)

end Pool

end C10K
