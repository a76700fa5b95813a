import C10K.Lib.Sharing
import C10K.Lib.TransitionSystem

/-!
# The thread pool of `Threadpool.cpp`

`n` threads run `process`, any other threads and posted functions call `post`, and one thread calls
`join`. A region under `jobs_lock` is one step, but a thread that finds no job and no `stop` still
holds the lock when it is about to call `cv.wait`: the unlocked write of `stop` and the notification
of `join` may fall in between. The reads of `jobs.empty()` and `stop` in the outer `while` are steps
of their own.

`cv.wait` releases the lock and blocks in one step. `cv.notify_one` wakes one blocked thread, chosen
by the scheduler, and is lost when there is none. A step is `none` where the source has undefined
behaviour, such as `front()` of an empty queue.
-/

namespace C10K

/-- A posted function. Not in the source: `ticket`, the number of functions that were posted before
it. -/
structure Posted (F : Type) where
  functionP : F
  ticket : ℕ
  deriving DecidableEq

/-- Where a thread stands in `process`; each name says what it does next. -/
inductive ProcessPlace (F : Type) where
  | testJobs                          -- outer `while`: read `jobs.empty()`
  | testStop                          -- outer `while`: `jobs` was empty, read `stop`
  | lock                              -- take `jobs_lock` for the region
  | wait                              -- holding `jobs_lock`, call `cv.wait`
  | blocked                           -- inside `cv.wait`, not notified
  | woken                             -- inside `cv.wait`, take `jobs_lock` again
  | leave                             -- notify, and break
  | notify (p : Posted F)             -- notify, and go on to the function
  | call (p : Posted F)
  | running (p : Posted F)            -- inside the function
  | exited
  deriving DecidableEq

/-- Where the joining thread stands in `join`. -/
inductive JoinPlace where
  | notCalled
  | test                              -- `if (stop)`
  | setStop
  | notify
  | joining (t : ℕ)                   -- `t->join()` of the `t`-th thread
  | returned
  deriving DecidableEq

/-- `class Threadpool` and its threads. Nothing in the program reads `posted`, the functions that
were posted, `called`, the calls in order, and `due`, the number of functions that were posted when
`join` was called. -/
structure Threadpool (F : Type) (n : ℕ) where
  jobs : List (Posted F)
  stop : Bool
  holder : Option (Fin n)             -- the thread between its test and `cv.wait`
  thread : Fin n → ProcessPlace F
  join : JoinPlace
  posted : List F
  called : List (Posted F)
  due : ℕ

/-- The next step of a thread, with the choices that are not its own. -/
inductive ThreadpoolAct (F : Type) (n : ℕ) where
  | process (i : Fin n)
  | notify (i : Fin n) (target : Option (Fin n))
  | functionReturn (i : Fin n)
  | post (functionP : F) (target : Option (Fin n))
  | callJoin
  | join
  | joinNotify (target : Option (Fin n))
  | spurious (i : Fin n)              -- `cv.wait` returns without a notification

namespace Threadpool

variable {F : Type} {n : ℕ}

/-- The constructor: the threads are at the start of `process`. -/
def initial : Threadpool F n where
  jobs := []
  stop := false
  holder := none
  thread _ := .testJobs
  join := .notCalled
  posted := []
  called := []
  due := 0

def setThread (s : Threadpool F n) (i : Fin n) (place : ProcessPlace F) : Threadpool F n :=
  { s with thread := Function.update s.thread i place }

/-- `cv.notify_one()`, waking the blocked thread `target`; `none` when nobody is blocked. -/
def notifyOne [DecidableEq F] (s : Threadpool F n) : Option (Fin n) → Option (Threadpool F n)
  | some k => if s.thread k = .blocked then some (s.setThread k .woken) else none
  | none   => if ∀ k, s.thread k ≠ .blocked then some s else none

/-- The region of `process`, from taking the lock to its release or to `cv.wait`. -/
def region (s : Threadpool F n) (i : Fin n) : Option (Threadpool F n) :=
  if s.holder.isNone then
    -- while (jobs.empty() && !stop)
    if s.jobs.isEmpty ∧ s.stop = false then some { s.setThread i .wait with holder := some i }
    -- if (jobs.empty() && stop)
    else if s.jobs.isEmpty ∧ s.stop = true then some (s.setThread i .leave)
    else
      -- function_p = jobs.front(); jobs.pop();
      match s.jobs with
      | []        => none
      | p :: jobs => some { s.setThread i (.notify p) with jobs }
  else none

/-- The next step of thread `i`, other than a notification or the end of its function. -/
def process (s : Threadpool F n) (i : Fin n) : Option (Threadpool F n) :=
  match s.thread i with
  -- while (!jobs.empty() || !stop)
  | .testJobs => some (s.setThread i (if s.jobs.isEmpty then .testStop else .lock))
  | .testStop => some (s.setThread i (if s.stop then .exited else .lock))
  | .lock | .woken => s.region i
  | .wait => some { s.setThread i .blocked with holder := none }
  | .call p => some { s.setThread i (.running p) with called := s.called ++ [p] }
  | .blocked | .leave | .notify _ | .running _ | .exited => none

variable [DecidableEq F]

/-- The notification that thread `i` sends after its region. -/
def processNotify (s : Threadpool F n) (i : Fin n) (target : Option (Fin n)) :
    Option (Threadpool F n) :=
  match s.thread i with
  | .leave    => (s.setThread i .exited).notifyOne target
  | .notify p => (s.setThread i (.call p)).notifyOne target
  | _         => none

/-- The function that thread `i` runs returns, and the outer loop starts over. -/
def functionReturn (s : Threadpool F n) (i : Fin n) : Option (Threadpool F n) :=
  match s.thread i with
  | .running _ => some (s.setThread i .testJobs)
  | _          => none

/-- `jobs.push(function_p)` -/
def push (s : Threadpool F n) (functionP : F) : Threadpool F n :=
  { s with
    jobs := s.jobs ++ [⟨functionP, s.posted.length⟩]
    posted := s.posted ++ [functionP] }

/-- A call of `post`, which notifies before it releases the lock. -/
def post (s : Threadpool F n) (functionP : F) (target : Option (Fin n)) :
    Option (Threadpool F n) :=
  if s.holder.isNone then (s.push functionP).notifyOne target else none

/-- The next step of `join`, other than its notification. -/
def joinNext (s : Threadpool F n) : Option (Threadpool F n) :=
  match s.join with
  | .test => some { s with join := if s.stop then .returned else .setStop }
  | .setStop => some { s with stop := true, join := .notify }
  | .joining t =>
    if h : t < n then
      if s.thread ⟨t, h⟩ = .exited then some { s with join := .joining (t + 1) } else none
    else some { s with join := .returned }
  | .notCalled | .notify | .returned => none

def joinNotify (s : Threadpool F n) (target : Option (Fin n)) : Option (Threadpool F n) :=
  match s.join with
  | .notify => { s with join := .joining 0 }.notifyOne target
  | _       => none

def step (s : Threadpool F n) : ThreadpoolAct F n → Option (Threadpool F n)
  | .process i => s.process i
  | .notify i target => s.processNotify i target
  | .functionReturn i => s.functionReturn i
  | .post functionP target => s.post functionP target
  | .callJoin =>
    match s.join with
    | .notCalled => some { s with join := .test, due := s.posted.length }
    | _          => none
  | .join => s.joinNext
  | .joinNotify target => s.joinNotify target
  | .spurious i => if s.thread i = .blocked then some (s.setThread i .woken) else none

end Threadpool

/-- The thread pool under every schedule. -/
def threadpoolSystem (F : Type) [DecidableEq F] (n : ℕ) :
    LTS (Threadpool F n) (ThreadpoolAct F n) where
  init s := s = .initial
  step := Threadpool.step

/-! ### What a step of the pool can do -/

variable {F : Type} {n : ℕ}

/-- A step of a thread that reads the shared data and writes none. -/
inductive ProcessPlace.Moves (s : Threadpool F n) : ProcessPlace F → ProcessPlace F → Prop where
  | testJobsEmpty (h : s.jobs = []) : Moves s .testJobs .testStop
  | testJobsSome (h : s.jobs ≠ []) : Moves s .testJobs .lock
  | testStopSet (h : s.stop = true) : Moves s .testStop .exited
  | testStopUnset (h : s.stop = false) : Moves s .testStop .lock

/-- The places from which a thread enters the region. -/
inductive ProcessPlace.Enters : ProcessPlace F → Prop where
  | lock : Enters .lock
  | woken : Enters .woken

/-- The places where a thread notifies, and where it goes. -/
inductive ProcessPlace.Notifies : ProcessPlace F → ProcessPlace F → Prop where
  | leave : Notifies .leave .exited
  | notify (p : Posted F) : Notifies (.notify p) (.call p)

/-- What a notification does: it wakes one blocked thread, and nothing when there is none. -/
inductive Threadpool.Wakes (s : Threadpool F n) : Threadpool F n → Prop where
  | one (k : Fin n) (h : s.thread k = .blocked) : Wakes s (s.setThread k .woken)
  | nobody (h : ∀ k, s.thread k ≠ .blocked) : Wakes s s

/-- The steps of the pool. -/
inductive ThreadpoolRule (s : Threadpool F n) : ThreadpoolAct F n → Threadpool F n → Prop where
  | move {i x y} (h : s.thread i = x) (hm : x.Moves s y) :
      ThreadpoolRule s (.process i) (s.setThread i y)
  | sleep {i x} (h : s.thread i = x) (hx : x.Enters) (hfree : s.holder = none)
      (hjobs : s.jobs = []) (hstop : s.stop = false) :
      ThreadpoolRule s (.process i) { s.setThread i .wait with holder := some i }
  | leave {i x} (h : s.thread i = x) (hx : x.Enters) (hfree : s.holder = none)
      (hjobs : s.jobs = []) (hstop : s.stop = true) :
      ThreadpoolRule s (.process i) (s.setThread i .leave)
  | take {i x p jobs} (h : s.thread i = x) (hx : x.Enters) (hfree : s.holder = none)
      (hjobs : s.jobs = p :: jobs) :
      ThreadpoolRule s (.process i) { s.setThread i (.notify p) with jobs }
  | wait {i} (h : s.thread i = .wait) :
      ThreadpoolRule s (.process i) { s.setThread i .blocked with holder := none }
  | call {i p} (h : s.thread i = .call p) :
      ThreadpoolRule s (.process i) { s.setThread i (.running p) with called := s.called ++ [p] }
  | functionReturn {i p} (h : s.thread i = .running p) :
      ThreadpoolRule s (.functionReturn i) (s.setThread i .testJobs)
  | notify {i x y target s'} (h : s.thread i = x) (hx : x.Notifies y)
      (hwake : (s.setThread i y).Wakes s') : ThreadpoolRule s (.notify i target) s'
  | post {functionP target s'} (hfree : s.holder = none)
      (hwake : (s.push functionP).Wakes s') : ThreadpoolRule s (.post functionP target) s'
  | callJoin (h : s.join = .notCalled) :
      ThreadpoolRule s .callJoin { s with join := .test, due := s.posted.length }
  | joinTestSet (h : s.join = .test) (hstop : s.stop = true) :
      ThreadpoolRule s .join { s with join := .returned }
  | joinTestUnset (h : s.join = .test) (hstop : s.stop = false) :
      ThreadpoolRule s .join { s with join := .setStop }
  | setStop (h : s.join = .setStop) :
      ThreadpoolRule s .join { s with stop := true, join := .notify }
  | joinNotify {target s'} (h : s.join = .notify)
      (hwake : Threadpool.Wakes { s with join := .joining 0 } s') :
      ThreadpoolRule s (.joinNotify target) s'
  | joinOne {k : Fin n} (h : s.join = .joining k) (hexit : s.thread k = .exited) :
      ThreadpoolRule s .join { s with join := .joining (k + 1) }
  | joinAll {t : ℕ} (h : s.join = .joining t) (ht : n ≤ t) :
      ThreadpoolRule s .join { s with join := .returned }
  | spurious {i} (h : s.thread i = .blocked) :
      ThreadpoolRule s (.spurious i) (s.setThread i .woken)

namespace Threadpool

variable {s s' : Threadpool F n} {i j : Fin n} {x : ProcessPlace F} {target : Option (Fin n)}

@[simp] lemma thread_setThread :
    (s.setThread i x).thread j = if j = i then x else s.thread j := by
  simp [setThread, Function.update_apply]

@[simp] lemma jobs_setThread : (s.setThread i x).jobs = s.jobs := rfl
@[simp] lemma stop_setThread : (s.setThread i x).stop = s.stop := rfl
@[simp] lemma holder_setThread : (s.setThread i x).holder = s.holder := rfl
@[simp] lemma join_setThread : (s.setThread i x).join = s.join := rfl
@[simp] lemma posted_setThread : (s.setThread i x).posted = s.posted := rfl
@[simp] lemma called_setThread : (s.setThread i x).called = s.called := rfl
@[simp] lemma due_setThread : (s.setThread i x).due = s.due := rfl

lemma rule_of_region (h : s.region i = some s') (hx : (s.thread i).Enters) :
    ThreadpoolRule s (.process i) s' := by
  simp only [region, Option.isNone_iff_eq_none, List.isEmpty_iff] at h
  split_ifs at h with hfree hsleep hleave
  · cases h
    exact .sleep rfl hx hfree hsleep.1 hsleep.2
  · cases h
    exact .leave rfl hx hfree hleave.1 hleave.2
  · split at h
    · cases h
    · cases h
      exact .take rfl hx hfree ‹_›

lemma rule_of_process (h : s.process i = some s') : ThreadpoolRule s (.process i) s' := by
  unfold process at h
  split at h <;> rename_i hplace
  · cases h
    split_ifs with hjobs
    · exact .move hplace (.testJobsEmpty (List.isEmpty_iff.mp hjobs))
    · exact .move hplace (.testJobsSome fun hnil => hjobs (List.isEmpty_iff.mpr hnil))
  · cases h
    split_ifs with hstop
    · exact .move hplace (.testStopSet hstop)
    · exact .move hplace (.testStopUnset (eq_false_of_ne_true hstop))
  · exact rule_of_region h (hplace ▸ .lock)
  · exact rule_of_region h (hplace ▸ .woken)
  · cases h
    exact .wait hplace
  · cases h
    exact .call hplace
  all_goals cases h

variable [DecidableEq F]

lemma wakes_of_notifyOne (h : s.notifyOne target = some s') : s.Wakes s' := by
  cases target with
  | none =>
    simp only [notifyOne] at h
    split_ifs at h with hnone
    cases h
    exact .nobody hnone
  | some k =>
    simp only [notifyOne] at h
    split_ifs at h with hk
    cases h
    exact .one k hk

lemma rule_of_joinNext (h : s.joinNext = some s') : ThreadpoolRule s .join s' := by
  unfold joinNext at h
  cases hj : s.join with
  | notCalled | notify | returned => simp [hj] at h
  | test =>
    simp only [hj, Option.some.injEq] at h
    subst h
    split_ifs with hstop
    · exact .joinTestSet hj hstop
    · exact .joinTestUnset hj (eq_false_of_ne_true hstop)
  | setStop =>
    simp only [hj, Option.some.injEq] at h
    subst h
    exact .setStop hj
  | joining t =>
    simp only [hj] at h
    split_ifs at h with ht hexit
    · cases h
      exact .joinOne (k := ⟨t, ht⟩) hj hexit
    · cases h
      exact .joinAll hj (not_lt.mp ht)

end Threadpool

/-- Every step of the pool is an instance of one of the rules. -/
theorem ThreadpoolRule.of_step [DecidableEq F] {s s' : Threadpool F n} {a : ThreadpoolAct F n}
    (h : s.step a = some s') : ThreadpoolRule s a s' := by
  cases a with
  | process i => exact Threadpool.rule_of_process h
  | notify i target =>
    simp only [Threadpool.step, Threadpool.processNotify] at h
    split at h
    · exact .notify ‹_› .leave (Threadpool.wakes_of_notifyOne h)
    · exact .notify ‹_› (.notify _) (Threadpool.wakes_of_notifyOne h)
    · cases h
  | functionReturn i =>
    simp only [Threadpool.step, Threadpool.functionReturn] at h
    split at h
    · cases h
      exact .functionReturn ‹_›
    · cases h
  | post functionP target =>
    simp only [Threadpool.step, Threadpool.post, Option.isNone_iff_eq_none] at h
    split_ifs at h with hfree
    exact .post hfree (Threadpool.wakes_of_notifyOne h)
  | callJoin =>
    simp only [Threadpool.step] at h
    split at h
    · cases h
      exact .callJoin ‹_›
    · cases h
  | join => exact Threadpool.rule_of_joinNext h
  | joinNotify target =>
    simp only [Threadpool.step, Threadpool.joinNotify] at h
    split at h
    · exact .joinNotify ‹_› (Threadpool.wakes_of_notifyOne h)
    · cases h
  | spurious i =>
    simp only [Threadpool.step] at h
    split_ifs at h with hi
    cases h
    exact .spurious hi

end C10K
