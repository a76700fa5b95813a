import C10K.Lib.TransitionSystem
import C10K.Lib.Ring

/-!
# The worker pool of `workers.c`

`n` workers run `w_process`, any threads call `w_post`, jobs that a worker runs may call `w_post`
too, and one thread calls `w_join`. A step is one read or write of shared data, one lock operation
or one call on the queue; the reads of `_jobs` and `_stop` in the outer `while` and the write of
`_stop` in `w_join` happen without the lock. Taking the lock is only possible while it is free, so
a region between lock and unlock is atomic with respect to the other regions, and a schedule that
never leaves a region half way is one of the schedules.

`pthread_cond_wait` releases the lock and blocks in one step. `pthread_cond_signal` wakes one
blocked waiter, chosen by the scheduler, and is lost when there is none.
-/

namespace C10K

/-- A thread that uses the lock: a worker, or a thread of the program that calls `w_post`. -/
inductive Tid (n : ℕ) (ι : Type) where
  | worker (i : Fin n)
  | client (p : ι)
  deriving DecidableEq

/-- The pair that a worker took from the queue. Not in the source: `ticket`, the number of pairs
that were taken before it. -/
structure Plucked (W : Type) where
  functionP : W
  args : W
  ticket : ℕ
  deriving DecidableEq

/-- Where a worker stands in `w_process`; each name says what the worker does next. -/
inductive WorkerPc (W : Type) where
  | testJobs                          -- outer `while`: read `_jobs`
  | testStop                          -- outer `while`: `_jobs` was empty, read `_stop`
  | lock
  | waitJobs                          -- inner `while`: read `_jobs`
  | waitStop                          -- inner `while`: `_jobs` was empty, read `_stop`
  | wait                              -- call `pthread_cond_wait`
  | blocked                           -- inside `pthread_cond_wait`, not signalled
  | woken                             -- inside `pthread_cond_wait`, take the lock again
  | exitJobs                          -- `if`: read `_jobs`
  | exitStop                          -- `if`: `_jobs` was empty, read `_stop`
  | exitUnlock
  | exitSignal
  | nextFunction                      -- the first `q_next`
  | nextArgs (functionP : W)          -- the second `q_next`
  | unlock (p : Plucked W)
  | signal (p : Plucked W)
  | call (p : Plucked W)
  | running (p : Plucked W)           -- inside `function_p(args)`
  | exited
  deriving DecidableEq

/-- Where a thread stands in `w_post`. Not in the source: the number of pairs that were pushed
before the one of this call. -/
inductive PostPc (W : Type) where
  | lock (job args : W)
  | pushJob (job args : W)
  | pushArgs (job args : W)
  | unlock (ticket : ℕ)
  | signal (ticket : ℕ)
  deriving DecidableEq

/-- Where the joining thread stands in `w_join`. -/
inductive JoinPc where
  | notCalled
  | test                              -- `if (w->_stop)`
  | setStop
  | signal
  | joining (i : ℕ)                   -- `pthread_join` of the `i`-th worker
  | returned
  deriving DecidableEq

/-- What happened so far. Nothing in the program reads it. -/
structure History (W : Type) where
  pushed : List (W × W)               -- the pairs that `w_post` pushed, in order
  plucked : List (W × W)              -- the pairs that workers took, in order
  called : List (Plucked W)           -- the calls of job functions, in order
  finished : List ℕ                   -- the tickets of the calls that returned
  posted : List ℕ                     -- the tickets of the `w_post` calls that returned
  due : List ℕ                        -- `posted` at the moment `w_join` was called

/-- The state of the pool `struct workers`, of its threads and of the history. -/
structure Pool (Q W : Type) (n : ℕ) (ι : Type) where
  jobs : Q
  stop : Bool
  lock : Option (Tid n ι)
  worker : Fin n → WorkerPc W
  post : Tid n ι → Option (PostPc W)
  join : JoinPc
  hist : History W

/-- The next step of a thread, with the choices that are not its own. -/
inductive PoolAct (W : Type) (n : ℕ) (ι : Type) where
  | work (i : Fin n)
  | workSignal (i : Fin n) (target : Option (Fin n))
  | jobReturn (i : Fin n)
  | callPost (t : Tid n ι) (job args : W)
  | post (t : Tid n ι)
  | postSignal (t : Tid n ι) (target : Option (Fin n))
  | callJoin
  | join
  | joinSignal (target : Option (Fin n))
  | spurious (i : Fin n)              -- `pthread_cond_wait` returns without a signal

def WorkerPc.isBlocked {W : Type} : WorkerPc W → Bool
  | .blocked => true
  | _        => false

def WorkerPc.isRunning {W : Type} : WorkerPc W → Bool
  | .running _ => true
  | _          => false

def WorkerPc.isExited {W : Type} : WorkerPc W → Bool
  | .exited => true
  | _       => false

/-! ### Updates of the state -/

namespace Pool

variable {Q W : Type} {n : ℕ} {ι : Type}

def setWorker (s : Pool Q W n ι) (i : Fin n) (pc : WorkerPc W) : Pool Q W n ι :=
  { s with worker := Function.update s.worker i pc }

def setPost [DecidableEq ι] (s : Pool Q W n ι) (t : Tid n ι) (pc : Option (PostPc W)) :
    Pool Q W n ι :=
  { s with post := Function.update s.post t pc }

def setLock (s : Pool Q W n ι) (holder : Option (Tid n ι)) : Pool Q W n ι :=
  { s with lock := holder }

variable (s : Pool Q W n ι) (i j : Fin n) (x : WorkerPc W) (holder : Option (Tid n ι))

@[simp, grind =] lemma worker_setWorker :
    (s.setWorker i x).worker j = if j = i then x else s.worker j := by
  simp [setWorker, Function.update_apply]

@[simp, grind =] lemma jobs_setWorker : (s.setWorker i x).jobs = s.jobs := rfl
@[simp, grind =] lemma stop_setWorker : (s.setWorker i x).stop = s.stop := rfl
@[simp, grind =] lemma lock_setWorker : (s.setWorker i x).lock = s.lock := rfl
@[simp, grind =] lemma post_setWorker : (s.setWorker i x).post = s.post := rfl
@[simp, grind =] lemma join_setWorker : (s.setWorker i x).join = s.join := rfl
@[simp, grind =] lemma hist_setWorker : (s.setWorker i x).hist = s.hist := rfl

@[simp, grind =] lemma jobs_setLock : (s.setLock holder).jobs = s.jobs := rfl
@[simp, grind =] lemma stop_setLock : (s.setLock holder).stop = s.stop := rfl
@[simp, grind =] lemma lock_setLock : (s.setLock holder).lock = holder := rfl
@[simp, grind =] lemma worker_setLock : (s.setLock holder).worker = s.worker := rfl
@[simp, grind =] lemma post_setLock : (s.setLock holder).post = s.post := rfl
@[simp, grind =] lemma join_setLock : (s.setLock holder).join = s.join := rfl
@[simp, grind =] lemma hist_setLock : (s.setLock holder).hist = s.hist := rfl

variable [DecidableEq ι] (t u : Tid n ι) (y : Option (PostPc W))

@[simp, grind =] lemma post_setPost :
    (s.setPost t y).post u = if u = t then y else s.post u := by
  simp [setPost, Function.update_apply]

@[simp, grind =] lemma jobs_setPost : (s.setPost t y).jobs = s.jobs := rfl
@[simp, grind =] lemma stop_setPost : (s.setPost t y).stop = s.stop := rfl
@[simp, grind =] lemma lock_setPost : (s.setPost t y).lock = s.lock := rfl
@[simp, grind =] lemma worker_setPost : (s.setPost t y).worker = s.worker := rfl
@[simp, grind =] lemma join_setPost : (s.setPost t y).join = s.join := rfl
@[simp, grind =] lemma hist_setPost : (s.setPost t y).hist = s.hist := rfl

end Pool

/-! ### The threads -/

variable {Q W : Type} [FifoQueue Q W] {n : ℕ} {ι : Type} [DecidableEq ι]

namespace Pool

/-- `w_create`: the workers are at the start of `w_process`. -/
def initial : Pool Q W n ι where
  jobs := FifoQueue.create
  stop := false
  lock := none
  worker _ := .testJobs
  post _ := none
  join := .notCalled
  hist := ⟨[], [], [], [], [], []⟩

/-- `pthread_cond_signal`, waking the blocked waiter `target`; `none` when nobody is blocked. -/
def condSignal (s : Pool Q W n ι) : Option (Fin n) → Option (Pool Q W n ι)
  | some k => if (s.worker k).isBlocked then some (s.setWorker k .woken) else none
  | none   => if ∀ k, (s.worker k).isBlocked = false then some s else none

/-- `pthread_mutex_lock` by a worker. -/
def lockThen (s : Pool Q W n ι) (i : Fin n) (pc : WorkerPc W) : Option (Pool Q W n ι) :=
  if s.lock.isNone then some ((s.setWorker i pc).setLock (some (.worker i))) else none

/-- The next step of worker `i`, other than a signal or the end of its job. -/
def wProcess (s : Pool Q W n ι) (i : Fin n) : Option (Pool Q W n ι) :=
  match s.worker i with
  -- while (!q_is_empty(w->_jobs) || !w->_stop)
  | .testJobs => some (s.setWorker i (if FifoQueue.isEmpty s.jobs then .testStop else .lock))
  | .testStop => some (s.setWorker i (if s.stop then .exited else .lock))
  | .lock => s.lockThen i .waitJobs
  -- while (q_is_empty(w->_jobs) && !w->_stop)
  | .waitJobs => some (s.setWorker i (if FifoQueue.isEmpty s.jobs then .waitStop else .exitJobs))
  | .waitStop => some (s.setWorker i (if s.stop then .exitJobs else .wait))
  | .wait => some ((s.setWorker i .blocked).setLock none)
  | .woken => s.lockThen i .waitJobs
  -- if (q_is_empty(w->_jobs) && w->_stop)
  | .exitJobs =>
    some (s.setWorker i (if FifoQueue.isEmpty s.jobs then .exitStop else .nextFunction))
  | .exitStop => some (s.setWorker i (if s.stop then .exitUnlock else .nextFunction))
  | .exitUnlock => some ((s.setWorker i .exitSignal).setLock none)
  -- pluck a job from the queue
  | .nextFunction => do
    let (functionP, jobs) ← FifoQueue.next s.jobs
    return { s.setWorker i (.nextArgs functionP) with jobs }
  | .nextArgs functionP => do
    let (args, jobs) ← FifoQueue.next s.jobs
    return { s.setWorker i (.unlock ⟨functionP, args, s.hist.plucked.length⟩) with
      jobs
      hist := { s.hist with plucked := s.hist.plucked ++ [(functionP, args)] } }
  | .unlock p => some ((s.setWorker i (.signal p)).setLock none)
  -- function_p(args)
  | .call p =>
    some { s.setWorker i (.running p) with
      hist := { s.hist with called := s.hist.called ++ [p] } }
  | .blocked | .exitSignal | .signal _ | .running _ | .exited => none

/-- The signal that worker `i` sends after an unlock. -/
def wProcessSignal (s : Pool Q W n ι) (i : Fin n) (target : Option (Fin n)) :
    Option (Pool Q W n ι) :=
  match s.worker i with
  | .exitSignal => (s.setWorker i .exited).condSignal target
  | .signal p => (s.setWorker i (.call p)).condSignal target
  | _ => none

/-- The job that worker `i` runs returns, and the outer loop starts over. -/
def jobReturn (s : Pool Q W n ι) (i : Fin n) : Option (Pool Q W n ι) :=
  match s.worker i with
  | .running p =>
    if (s.post (.worker i)).isNone then
      some { s.setWorker i .testJobs with
        hist := { s.hist with finished := s.hist.finished ++ [p.ticket] } }
    else none
  | _ => none

/-- A thread may call `w_post` unless it is a worker outside a job. -/
def canPost (s : Pool Q W n ι) : Tid n ι → Bool
  | .worker i => (s.worker i).isRunning
  | .client _ => true

/-- The next step of the `w_post` call of thread `t`, other than its signal. -/
def wPost (s : Pool Q W n ι) (t : Tid n ι) : Option (Pool Q W n ι) :=
  match s.post t with
  | some (.lock job args) =>
    if s.lock.isNone then some ((s.setPost t (some (.pushJob job args))).setLock (some t)) else none
  | some (.pushJob job args) => do
    let jobs ← FifoQueue.push s.jobs job
    return { s.setPost t (some (.pushArgs job args)) with jobs }
  | some (.pushArgs job args) => do
    let jobs ← FifoQueue.push s.jobs args
    return { s.setPost t (some (.unlock s.hist.pushed.length)) with
      jobs
      hist := { s.hist with pushed := s.hist.pushed ++ [(job, args)] } }
  | some (.unlock k) => some ((s.setPost t (some (.signal k))).setLock none)
  | some (.signal _) | none => none

/-- The signal of `w_post`, after which the call returns. -/
def wPostSignal (s : Pool Q W n ι) (t : Tid n ι) (target : Option (Fin n)) :
    Option (Pool Q W n ι) :=
  match s.post t with
  | some (.signal k) =>
    { s.setPost t none with hist := { s.hist with posted := s.hist.posted ++ [k] } }.condSignal
      target
  | _ => none

/-- The next step of `w_join`, other than its signal. -/
def wJoin (s : Pool Q W n ι) : Option (Pool Q W n ι) :=
  match s.join with
  | .test => some { s with join := if s.stop then .returned else .setStop }
  | .setStop => some { s with stop := true, join := .signal }
  | .joining k =>
    if h : k < n then
      if (s.worker ⟨k, h⟩).isExited then some { s with join := .joining (k + 1) } else none
    else some { s with join := .returned }
  | .notCalled | .signal | .returned => none

def wJoinSignal (s : Pool Q W n ι) (target : Option (Fin n)) : Option (Pool Q W n ι) :=
  match s.join with
  | .signal => { s with join := .joining 0 }.condSignal target
  | _ => none

def step (s : Pool Q W n ι) : PoolAct W n ι → Option (Pool Q W n ι)
  | .work i => s.wProcess i
  | .workSignal i target => s.wProcessSignal i target
  | .jobReturn i => s.jobReturn i
  | .callPost t job args =>
    if s.canPost t ∧ (s.post t).isNone then some (s.setPost t (some (.lock job args))) else none
  | .post t => s.wPost t
  | .postSignal t target => s.wPostSignal t target
  | .callJoin =>
    match s.join with
    | .notCalled => some { s with join := .test, hist := { s.hist with due := s.hist.posted } }
    | _ => none
  | .join => s.wJoin
  | .joinSignal target => s.wJoinSignal target
  | .spurious i => if (s.worker i).isBlocked then some (s.setWorker i .woken) else none

end Pool

/-- The pool under every schedule. -/
def poolSystem (Q W : Type) [FifoQueue Q W] (n : ℕ) (ι : Type) [DecidableEq ι] :
    LTS (Pool Q W n ι) (PoolAct W n ι) where
  init s := s = Pool.initial
  step := Pool.step

end C10K
