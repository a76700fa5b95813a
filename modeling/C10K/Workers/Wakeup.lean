import C10K.Workers.Safety

/-!
# The last wake-up

`w_join` sets `_stop` and signals without the lock. A worker that has tested the flag and does not
wait yet misses the signal, and sleeps for ever when nobody signals after it. In the runs in which
the signal of `w_join` is heard, nobody sleeps for ever.
-/

namespace C10K

open LawfulFifoQueue (contents)

variable {Q W : Type} {n : ℕ} {ι : Type}

namespace Pool

/-- No thread can take a step. A job may call `w_post` and a client may start a call, but neither
has to; a thread that is about to push can always go on, whatever becomes of the queue. -/
def Stuck [FifoQueue Q W] [DecidableEq ι] (s : Pool Q W n ι) : Prop :=
  (∀ a, (∀ t job args, a ≠ .callPost t job args) → (∀ i, a ≠ .spurious i) → s.step a = none) ∧
  ∀ t job args, s.post t ≠ some (.pushJob job args) ∧ s.post t ≠ some (.pushArgs job args)

/-- Some worker or call of `w_post` waits for the lock. -/
def LockWanted (s : Pool Q W n ι) : Prop :=
  (∃ i, (s.worker i).Acquires) ∨ ∃ t job args, s.post t = some (.lock job args)

/-- When `w_join` signals while a worker stands between its test and its wait, some other worker
sleeps already, or some thread waits for the lock and will signal after the worker has gone to
sleep. -/
def SignalHeard (s : Pool Q W n ι) : PoolAct W n ι → Prop
  | .joinSignal _ => (∃ i, s.worker i = .wait) → (∃ i, s.worker i = .blocked) ∨ s.LockWanted
  | _ => True

/-- Every worker that sleeps or is about to has a thread that will signal. -/
structure Relieved (s : Pool Q W n ι) : Prop where
  wait : (∃ i, s.worker i = .wait) → s.LockWanted ∨ (s.SignalOwed ∧ ∃ i, s.worker i = .blocked)
  blocked : (∃ i, s.worker i = .blocked) → s.LockWanted ∨ s.SignalOwed ∨ ∃ t, s.inLock t

end Pool

/-- The worker sleeps or is about to. -/
def WorkerPc.sleepy : WorkerPc W → Bool
  | .wait | .blocked => true
  | _ => false

/-- The worker does not sleep, owes no signal and does not wait for the lock. -/
def WorkerPc.idle : WorkerPc W → Bool
  | .lock | .woken | .blocked | .exitSignal | .signal _ => false
  | _ => true

lemma WorkerPc.not_acquires_of_idle {x : WorkerPc W} (h : x.idle = true) : ¬ x.Acquires := by
  rintro ⟨⟩ <;> cases h

lemma WorkerPc.owesSignal_of_idle {x : WorkerPc W} (h : x.idle = true) : x.owesSignal = false := by
  cases x <;> simp_all [idle, owesSignal]

/-- `w_join` has signalled. -/
def JoinPc.signalled : JoinPc → Bool
  | .joining _ | .returned => true
  | _ => false

namespace Pool

variable {s s' : Pool Q W n ι} {i : Fin n} {t : Tid n ι} {x : WorkerPc W}

/-! ### The threads that will signal -/

lemma LockWanted.setWorker (h : s.LockWanted) (hx : ¬ (s.worker i).Acquires) :
    (s.setWorker i x).LockWanted := by
  rcases h with hworker | hpost
  · exact .inl (Places.exists_update hworker hx)
  · exact .inr hpost

lemma LockWanted.setPost [DecidableEq ι] {z : Option (PostPc W)} (h : s.LockWanted)
    (hpost : ∀ job args, s.post t ≠ some (.lock job args)) : (s.setPost t z).LockWanted := by
  rcases h with hworker | hcall
  · exact .inl hworker
  · refine .inr (Places.exists_update
      (Q := fun y => ∃ job args, y = some (PostPc.lock job args)) hcall ?_)
    rintro ⟨job, args, h⟩
    exact hpost job args h

lemma Relieved.of_lockWanted (h : s.LockWanted) : Relieved s := ⟨fun _ => .inl h, fun _ => .inl h⟩

/-- An idle worker moves and does not go to sleep. -/
lemma Relieved.setWorker (hR : Relieved s) (hin : x.inLock = (s.worker i).inLock)
    (hidle : (s.worker i).idle = true) (hx : x.sleepy = false) : Relieved (s.setWorker i x) := by
  have hacq := WorkerPc.not_acquires_of_idle hidle
  have howes := WorkerPc.owesSignal_of_idle hidle
  constructor
  · intro hwait
    have hwait := Places.exists_eq_of_update hwait (by rintro rfl; cases hx)
    rcases hR.wait hwait with hwanted | ⟨howed, hasleep⟩
    · exact .inl (hwanted.setWorker hacq)
    · refine .inr ⟨howed.setWorker howes, Places.exists_eq_update hasleep fun hb => ?_⟩
      rw [hb] at hidle
      cases hidle
  · intro hb
    have hb := Places.exists_eq_of_update hb (by rintro rfl; cases hx)
    rcases hR.blocked hb with hwanted | howed | ⟨t, ht⟩
    · exact .inl (hwanted.setWorker hacq)
    · exact .inr (.inl (howed.setWorker howes))
    · exact .inr (.inr ⟨t, (inLock_setWorker hin).mpr ht⟩)

/-- A signal that a worker between its test and its wait misses was not needed. -/
lemma Wakes.relieved (h : s.Wakes s')
    (hwait : (∃ i, s.worker i = .wait) → s.LockWanted ∨ ∃ i, s.worker i = .blocked) :
    Relieved s' := by
  cases h with
  | one k hk => exact .of_lockWanted (.inl ⟨k, by simpa using .woken⟩)
  | nobody hnone =>
    refine ⟨fun hw => .inl ?_, fun ⟨j, hj⟩ => absurd hj (hnone j)⟩
    rcases hwait hw with hwanted | ⟨j, hj⟩
    · exact hwanted
    · exact absurd hj (hnone j)

lemma Wakes.join_eq (h : s.Wakes s') : s'.join = s.join := by cases h <;> rfl

/-- A worker that is about to wait holds the lock. -/
lemma LockInv.lock_of_wait (hL : LockInv s) (h : s.worker i = .wait) :
    s.lock = some (.worker i) :=
  hL.lock_of_worker (by rw [h]; rfl)

/-! ### A step after the signal -/

variable [FifoQueue Q W] [LawfulFifoQueue Q W]

/-- While the flag is set, no worker that reads goes to sleep. -/
lemma reads_awake {y : WorkerPc W} (h : x.Reads s y) (hstop : s.stop = true) :
    x.idle = true ∧ y.sleepy = false := by
  cases h with
  | waitStopUnset hunset => simp [hstop] at hunset
  | _ => exact ⟨rfl, rfl⟩

variable [DecidableEq ι] {a : PoolAct W n ι}

lemma Relieved.step (hR : Relieved s) (hI : Inv s) (hstop : s.stop = true)
    (hstep : s.step a = some s') : Relieved s' := by
  have hL' := hI.lock.step hstep
  have hwait : (∃ j, s.worker j = .wait) → s.LockWanted ∨ ∃ j, s.worker j = .blocked :=
    fun h => (hR.wait h).imp_right And.right
  -- a step after which the lock is free or held by another thread has no worker about to wait
  have hnowait : (∀ j, s'.worker j = .wait → s'.lock ≠ some (.worker j)) →
      ¬ ∃ j, s'.worker j = .wait := fun h ⟨j, hj⟩ => h j hj (hL'.lock_of_wait hj)
  cases PoolRule.of_step hstep with
  | read h hr =>
    subst h
    exact hR.setWorker hr.inLock_eq (reads_awake hr hstop).1 (reads_awake hr hstop).2
  | @acquire i x h hx hfree =>
    refine ⟨fun hw => absurd hw (hnowait ?_), fun _ => .inr (.inr ⟨.worker i, ?_⟩)⟩
    · intro j hj heq
      have hij : i = j := by simpa using heq
      simp [hij] at hj
    · exact (hL'.guards _).mpr rfl
  | @release i x y h hx =>
    refine ⟨fun hw => absurd hw (hnowait fun j _ heq => ?_), fun _ => ?_⟩
    · cases heq
    · cases hx with
      | wait =>
        have hacq : ¬ (s.worker i).Acquires := fun hacq => by cases h ▸ hacq
        rcases hR.wait ⟨i, h⟩ with hwanted | ⟨howed, -⟩
        · exact .inl (hwanted.setWorker hacq)
        · exact .inr (.inl (howed.setWorker (by rw [h]; rfl)))
      | exitUnlock | unlock => exact .inr (.inl (.inl ⟨i, by simp [WorkerPc.owesSignal]⟩))
  | @nextFunction i f jobs h | @nextArgs i f _ jobs h =>
    have hlock : s.lock = some (.worker i) := hI.lock.lock_of_worker (by rw [h]; rfl)
    refine ⟨fun hw => absurd hw (hnowait ?_), fun _ => .inr (.inr ⟨.worker i, ?_⟩)⟩
    · intro j hj heq
      have hij : i = j := by simpa using hlock.symm.trans heq
      simp [hij] at hj
    · exact (hL'.guards _).mpr hlock
  | @signal i x y _ _ h hx hwake =>
    refine hwake.relieved fun hw => ?_
    have hy : y ≠ .wait := by cases hx <;> simp
    rcases hwait (Places.exists_eq_of_update hw hy) with hwanted | hasleep
    · exact .inl (hwanted.setWorker fun hacq => by cases h ▸ hacq <;> cases hx)
    · exact .inr (Places.exists_eq_update hasleep (by rw [h]; cases hx <;> simp))
  | @call i p h =>
    have hmid := hR.setWorker (i := i) (x := .running p) (by rw [h]; rfl) (by rw [h]; rfl) rfl
    exact ⟨hmid.wait, hmid.blocked⟩
  | @jobReturn i p h =>
    have hmid := hR.setWorker (i := i) (x := .testJobs) (by rw [h]; rfl) (by rw [h]; rfl) rfl
    exact ⟨hmid.wait, hmid.blocked⟩
  | @callPost t job args hcan h => exact .of_lockWanted (.inr ⟨t, job, args, by simp⟩)
  | @postAcquire t job args h hfree =>
    refine ⟨fun hw => absurd hw (hnowait fun j hj heq => ?_), fun _ => .inr (.inr ⟨t, ?_⟩)⟩
    · obtain rfl : t = .worker j := Option.some.inj heq
      simpa using hL'.post_eq_none (i := j) (by rw [hj]; rfl)
    · exact (hL'.guards _).mpr rfl
  | @pushJob t job args jobs h | @pushArgs t job args jobs h =>
    have hlock : s.lock = some t := hI.lock.lock_of_post h rfl
    refine ⟨fun hw => absurd hw (hnowait fun j hj heq => ?_), fun _ => .inr (.inr ⟨t, ?_⟩)⟩
    · obtain rfl : t = .worker j := Option.some.inj (hlock.symm.trans heq)
      simpa using hL'.post_eq_none (i := j) (by rw [hj]; rfl)
    · exact (hL'.guards _).mpr hlock
  | @postRelease t k h =>
    refine ⟨fun hw => absurd hw (hnowait fun j _ heq => ?_), fun _ => ?_⟩
    · cases heq
    · exact .inr (.inl (.inr ⟨t, .signal k, by simp, rfl⟩))
  | @postSignal t k _ _ h hwake =>
    refine hwake.relieved fun hw => (hwait hw).imp_left fun hwanted => ?_
    exact hwanted.setPost (t := t) (z := none) (by simp [h])
  | joinSignal h hwake => exact hwake.relieved hwait
  | spurious h => exact (Wakes.one _ h).relieved hwait
  | _ => exact ⟨hR.wait, hR.blocked⟩

/-! ### Stuck states -/

omit [FifoQueue Q W] [LawfulFifoQueue Q W] [DecidableEq ι] in
/-- A signal can always be sent. -/
lemma exists_condSignal (s : Pool Q W n ι) : ∃ target, s.condSignal target ≠ none := by
  by_cases h : ∃ k, s.worker k = .blocked
  · obtain ⟨k, hk⟩ := h
    exact ⟨some k, by simp [condSignal, isBlocked_iff.mpr hk]⟩
  · refine ⟨none, ?_⟩
    have hnone : ∀ k, (s.worker k).isBlocked = false := fun k =>
      Bool.eq_false_iff.mpr fun hk => h ⟨k, isBlocked_iff.mp hk⟩
    simp [condSignal, hnone]

omit [DecidableEq ι] in
/-- A worker inside the lock can take its next step. -/
lemma Inv.wProcess_of_inLock (hI : Inv s) (hin : (s.worker i).inLock = true) :
    s.wProcess i ≠ none := by
  have hnext : contents s.jobs ≠ [] → FifoQueue.next s.jobs ≠ none := by
    intro hne
    obtain ⟨w, l, hl⟩ := List.exists_cons_of_ne_nil hne
    obtain ⟨q, hq, -⟩ := LawfulFifoQueue.next_cons hl
    simp [hq]
  cases hw : s.worker i with
  | nextFunction =>
    have hsees := hI.jobs.sees i
    rw [hw] at hsees
    obtain ⟨⟨f, q⟩, hq⟩ := Option.ne_none_iff_exists'.mp (hnext hsees)
    simp [wProcess, hw, hq]
  | nextArgs f =>
    obtain ⟨⟨a, q⟩, hq⟩ := Option.ne_none_iff_exists'.mp (hnext (hI.nextArgs_ne_nil hw))
    simp [wProcess, hw, hq]
  | _ => simp_all [wProcess, WorkerPc.inLock]

lemma Stuck.lock_free (hs : Stuck s) (hI : Inv s) : s.lock = none := by
  by_contra hne
  obtain ⟨t, ht⟩ := Option.ne_none_iff_exists'.mp hne
  rcases (hI.lock.guards t).mpr ht with hin | hin
  · cases t with
    | client p => cases hin
    | worker i =>
      exact hI.wProcess_of_inLock (i := i) (by simpa [workerOf] using hin)
        (hs.1 (.work i) (by simp) (by simp))
  · have hpost := hs.1 (.post t) (by simp) (by simp)
    rcases hp : s.post t with _ | (⟨job, args⟩ | ⟨job, args⟩ | ⟨job, args⟩ | k | k)
    · simp [hp] at hin
    · simp [hp, PostPc.inLock] at hin
    · exact (hs.2 t job args).1 hp
    · exact (hs.2 t job args).2 hp
    · simp [Pool.step, wPost, hp] at hpost
    · simp [hp, PostPc.inLock] at hin

lemma Stuck.post_none (hs : Stuck s) (hI : Inv s) (t : Tid n ι) : s.post t = none := by
  have hfree := hs.lock_free hI
  have hpost := hs.1 (.post t) (by simp) (by simp)
  rcases hp : s.post t with _ | (⟨job, args⟩ | ⟨job, args⟩ | ⟨job, args⟩ | k | k)
  · rfl
  · simp [Pool.step, wPost, hp, hfree] at hpost
  · exact absurd hp (hs.2 t job args).1
  · exact absurd hp (hs.2 t job args).2
  · simp [Pool.step, wPost, hp] at hpost
  · obtain ⟨target, htarget⟩ := exists_condSignal
      { s.setPost t none with hist := { s.hist with posted := s.hist.posted ++ [k] } }
    have hsignal := hs.1 (.postSignal t target) (by simp) (by simp)
    simp only [Pool.step, wPostSignal, hp] at hsignal
    exact absurd hsignal htarget

lemma Stuck.asleep_or_gone (hs : Stuck s) (hI : Inv s) (i : Fin n) :
    s.worker i = .blocked ∨ s.worker i = .exited := by
  have hfree := hs.lock_free hI
  have hwork : s.wProcess i = none := hs.1 (.work i) (by simp) (by simp)
  have hsignal : ∀ {x y}, s.worker i = x → x.Signals y → False := by
    intro x y hx hy
    obtain ⟨target, htarget⟩ := exists_condSignal (s.setWorker i y)
    have h := hs.1 (.workSignal i target) (by simp) (by simp)
    cases hy <;> simp [Pool.step, wProcessSignal, hx, htarget] at h
  have hin : (s.worker i).inLock = false := by
    by_contra hin
    exact hI.wProcess_of_inLock (by simpa using hin) hwork
  cases hw : s.worker i with
  | blocked => exact .inl rfl
  | exited => exact .inr rfl
  | exitSignal => exact (hsignal hw .exitSignal).elim
  | signal p => exact (hsignal hw (.signal p)).elim
  | running p =>
    have hreturn := hs.1 (.jobReturn i) (by simp) (by simp)
    simp [Pool.step, jobReturn, hw, hs.post_none hI] at hreturn
  | testJobs | testStop | lock | woken | call p => simp [wProcess, lockThen, hw, hfree] at hwork
  | _ => simp [hw, WorkerPc.inLock] at hin

/-- Nobody is left in a stuck state in which no worker sleeps without relief. -/
lemma Stuck.shut_down (hs : Stuck s) (hI : Inv s)
    (hR : s.join.signalled = true → Relieved s) :
    s.join = .returned ∧ ∀ i, s.worker i = .exited := by
  have hjoin := hs.1 .join (by simp) (by simp)
  have hcall := hs.1 .callJoin (by simp) (by simp)
  have hgone : s.join.signalled = true → ∀ i, s.worker i = .exited := by
    intro hsig i
    refine (hs.asleep_or_gone hI i).resolve_left fun hi => ?_
    rcases (hR hsig).blocked ⟨i, hi⟩ with (⟨j, hj⟩ | ⟨t, job, args, ht⟩) |
      (⟨j, hj⟩ | ⟨t, y, ht, -⟩) | ⟨t, ht⟩
    · rcases hs.asleep_or_gone hI j with h | h <;> rw [h] at hj <;> cases hj
    · simp [hs.post_none hI] at ht
    · rcases hs.asleep_or_gone hI j with h | h <;> rw [h] at hj <;> cases hj
    · simp [hs.post_none hI] at ht
    · exact absurd ((hI.lock.guards t).mp ht) (by simp [hs.lock_free hI])
  cases hj : s.join with
  | notCalled => simp [Pool.step, hj] at hcall
  | test | setStop => simp [Pool.step, wJoin, hj] at hjoin
  | signal =>
    obtain ⟨target, htarget⟩ := exists_condSignal { s with join := .joining 0 }
    have hsignal := hs.1 (.joinSignal target) (by simp) (by simp)
    simp only [Pool.step, wJoinSignal, hj] at hsignal
    exact absurd hsignal htarget
  | joining k =>
    by_cases hk : k < n
    · simp [Pool.step, wJoin, hj, hk, hgone (by rw [hj]; rfl), WorkerPc.isExited] at hjoin
    · simp [Pool.step, wJoin, hj, hk] at hjoin
  | returned => exact ⟨rfl, hgone (by rw [hj]; rfl)⟩

omit [LawfulFifoQueue Q W] in
/-- A state is stuck when its workers sleep or are gone and `w_join` waits for a sleeper or has
returned. -/
lemma stuck_of (hworker : ∀ i, s.worker i = .blocked ∨ s.worker i = .exited)
    (hpost : ∀ t, s.post t = none)
    (hjoin : (∃ k : Fin n, s.join = .joining k ∧ s.worker k = .blocked) ∨ s.join = .returned) :
    s.Stuck := by
  refine ⟨fun a hcall hspurious => ?_, fun t job args => by simp [hpost]⟩
  cases a with
  | work i => rcases hworker i with h | h <;> simp [Pool.step, wProcess, h]
  | workSignal i target => rcases hworker i with h | h <;> simp [Pool.step, wProcessSignal, h]
  | jobReturn i => rcases hworker i with h | h <;> simp [Pool.step, jobReturn, h]
  | callPost t job args => exact absurd rfl (hcall t job args)
  | post t => simp [Pool.step, wPost, hpost]
  | postSignal t target => simp [Pool.step, wPostSignal, hpost]
  | callJoin => rcases hjoin with ⟨k, hk, -⟩ | h <;> simp [Pool.step, *]
  | join =>
    rcases hjoin with ⟨k, hk, hb⟩ | h
    · simp [Pool.step, wJoin, hk, hb, WorkerPc.isExited]
    · simp [Pool.step, wJoin, h]
  | joinSignal target => rcases hjoin with ⟨k, hk, -⟩ | h <;> simp [Pool.step, wJoinSignal, *]
  | spurious i => exact absurd rfl (hspurious i)

/-- A step after which `w_join` has signalled, and the signal was heard, leaves every sleeper
relieved. -/
lemma relieved_of_step (hI : Inv s) (hR : s.join.signalled = true → Relieved s)
    (hG : SignalHeard s a) (hstep : s.step a = some s') (hsig : s'.join.signalled = true) :
    Relieved s' := by
  have hstop : s.join.signalled = true → s.stop = true := by
    intro h
    have hjoin := hI.join
    unfold JoinInv at hjoin
    cases hj : s.join <;> simp_all [JoinPc.signalled, JoinPc.Sees]
  cases h : s.join.signalled with
  | true => exact (hR h).step hI (hstop h) hstep
  | false =>
    have hkeep : s'.join = s.join → Relieved s' := fun hjoin => by simp [hjoin, h] at hsig
    cases PoolRule.of_step hstep with
    | joinSignal hj hwake => exact hwake.relieved fun hw => (hG hw).symm
    | joinTestSet hj hstop =>
      have hjoin := hI.join
      simp [JoinInv, hj, JoinPc.Sees, hstop] at hjoin
    | joinOne hj | joinAll hj => simp [hj, JoinPc.signalled] at h
    | callJoin | joinTestUnset | setStop => cases hsig
    | signal _ _ hwake | postSignal _ hwake => exact hkeep hwake.join_eq
    | _ => exact hkeep rfl

/-- In a run in which the signal of `w_join` is heard, the only state in which no thread can take a
step is the one in which every worker has exited and `w_join` has returned. -/
theorem stuck_only_after_shutdown
    (h : (poolSystem Q W n ι).ReachableMeeting SignalHeard s) (hs : s.Stuck) :
    s.join = .returned ∧ ∀ i, s.worker i = .exited := by
  have hI := Inv.of_reachable h.reachable
  refine hs.shut_down hI ?_
  refine h.invariant (I := fun s => s.join.signalled = true → Relieved s) ?_ ?_
  · rintro s₀ rfl hsig
    cases hsig
  · intro s a s' hreach hR hG hstep hsig
    exact relieved_of_step (Inv.of_reachable hreach) hR hG hstep hsig

end Pool

/-- The worker sleeps, hears the signal of `w_join` and leaves. -/
theorem stuck_only_after_shutdown_one : ∃ s : Pool (RingQueue ℕ) ℕ 1 Unit,
    s.Stuck ∧ s.join = .returned ∧ ∀ i, s.worker i = .exited := by
  let before : List (PoolAct ℕ 1 Unit) :=
    [.work 0, .work 0, .work 0, .work 0, .work 0, .work 0, .callJoin, .join, .join]
  let after : List (PoolAct ℕ 1 Unit) :=
    [.work 0, .work 0, .work 0, .work 0, .work 0, .work 0, .workSignal 0 none, .join, .join]
  have hrun : (((poolSystem (RingQueue ℕ) ℕ 1 Unit).exec Pool.initial before).bind fun u =>
      ((poolSystem (RingQueue ℕ) ℕ 1 Unit).step u (.joinSignal (some 0))).bind fun v =>
        ((poolSystem (RingQueue ℕ) ℕ 1 Unit).exec v after).map fun s =>
          (u.worker 0, s.worker 0, s.post (.worker 0), s.post (.client ()), s.join)) =
      some (.blocked, .exited, none, none, .returned) := by decide +kernel
  simp only [Option.bind_eq_some_iff, Option.map_eq_some_iff, Prod.mk.injEq] at hrun
  obtain ⟨u, hu, v, hv, s, hs, hblocked, hworker, hpost, hpost', hjoin⟩ := hrun
  have hquiet : ∀ a ∈ before, ∀ u : Pool (RingQueue ℕ) ℕ 1 Unit, u.SignalHeard a := by
    simp [before, Pool.SignalHeard]
  have hquiet' : ∀ a ∈ after, ∀ u : Pool (RingQueue ℕ) ℕ 1 Unit, u.SignalHeard a := by
    simp [after, Pool.SignalHeard]
  have hmeet := (((LTS.run_of_exec hu).meeting hquiet).snoc (fun _ => .inl ⟨0, hblocked⟩) hv).append
    ((LTS.run_of_exec hs).meeting hquiet')
  have hstuck : s.Stuck := by
    refine Pool.stuck_of (fun i => ?_) (fun t => ?_) (.inr hjoin)
    · exact .inr (Subsingleton.elim i 0 ▸ hworker)
    · cases t with
      | worker i => exact Subsingleton.elim i 0 ▸ hpost
      | client p => exact hpost'
  exact ⟨s, hstuck, Pool.stuck_only_after_shutdown ⟨_, _, rfl, hmeet⟩ hstuck⟩

/-- The worker tests the flag, `w_join` sets it and signals, and the worker goes to sleep. -/
theorem worker_sleeps_for_ever : ¬ ∀ s : Pool (RingQueue ℕ) ℕ 1 Unit,
    (poolSystem (RingQueue ℕ) ℕ 1 Unit).Reachable s → s.Stuck →
      s.join = .returned ∧ ∀ i, s.worker i = .exited := by
  intro hall
  let acts : List (PoolAct ℕ 1 Unit) :=
    [.work 0, .work 0, .work 0, .work 0, .work 0, .callJoin, .join, .join, .joinSignal none,
      .work 0]
  have hrun : (((poolSystem (RingQueue ℕ) ℕ 1 Unit).exec Pool.initial acts).map fun s =>
      (s.worker 0, s.post (.worker 0), s.post (.client ()), s.join)) =
      some (.blocked, none, none, .joining 0) := by decide +kernel
  obtain ⟨s, hs, hval⟩ := Option.map_eq_some_iff.mp hrun
  simp only [Prod.mk.injEq] at hval
  obtain ⟨hworker, hpost, hpost', hjoin⟩ := hval
  have hstuck : s.Stuck := by
    refine Pool.stuck_of (fun i => ?_) (fun t => ?_) (.inl ⟨0, hjoin, hworker⟩)
    · exact .inl (Subsingleton.elim i 0 ▸ hworker)
    · cases t with
      | worker i => exact Subsingleton.elim i 0 ▸ hpost
      | client p => exact hpost'
  have h := hall s ⟨_, acts, rfl, LTS.run_of_exec hs⟩ hstuck
  simp [hjoin] at h

end C10K
