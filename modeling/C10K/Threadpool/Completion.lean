import C10K.Threadpool.Invariants

/-!
# Shutting the thread pool down

Two schedules keep a pool from completing: the last thread leaves the outer loop on an emptiness
that it read before a function was posted, and the notification of `join` falls between the test and
the `cv.wait` of a thread. In the runs in which neither happens, `join` returns, the queue is empty,
and each function that was posted before was called once.
-/

namespace C10K

variable {F : Type} {n : ℕ}

/-! ### Functions that nobody calls -/

/-- The thread will not take a function any more. -/
def ProcessPlace.leaving : ProcessPlace F → Bool
  | .leave | .exited => true
  | _                => false

namespace Threadpool

variable {s s' : Threadpool F n} {i : Fin n} {x : ProcessPlace F}

/-- The last thread does not leave through the outer loop while a function is queued, and none is
posted after the last thread decided to leave. -/
def LeavesNone (s : Threadpool F n) : ThreadpoolAct F n → Prop
  | .process i => s.thread i = .testStop → s.stop = true → s.jobs ≠ [] →
      ∃ j, j ≠ i ∧ (s.thread j).leaving = false
  | .post _ _ => ∃ j, (s.thread j).leaving = false
  | _ => True

/-- A queued function has a thread that will look at the queue again. -/
def Served (s : Threadpool F n) : Prop :=
  s.jobs ≠ [] → ∃ j, (s.thread j).leaving = false

/-- A thread that will look at the queue again serves it. -/
lemma served_of_thread (h : (s.thread i).leaving = false) : Served s := fun _ => ⟨i, h⟩

lemma Served.frame (hS : Served s) (hjobs : s'.jobs = s.jobs)
    (hthread : ∀ j, (s'.thread j).leaving = (s.thread j).leaving) : Served s' := by
  intro hne
  obtain ⟨j, hj⟩ := hS (hjobs ▸ hne)
  exact ⟨j, (hthread j).trans hj⟩

lemma leaving_setThread (hx : x.leaving = (s.thread i).leaving) (j : Fin n) :
    ((s.setThread i x).thread j).leaving = (s.thread j).leaving := by
  by_cases hj : j = i <;> simp [hj, hx]

/-- A notification makes no thread leave. -/
lemma Wakes.leaving_eq (h : s.Wakes s') (j : Fin n) :
    (s'.thread j).leaving = (s.thread j).leaving := by
  rcases h.thread j with hj | ⟨hj, hj'⟩
  · rw [hj]
  · rw [hj, hj']
    rfl

lemma Served.wakes (hS : Served s) (h : s.Wakes s') : Served s' :=
  hS.frame h.frame.1 h.leaving_eq

/-! ### Notifications that nobody hears -/

/-- Some thread waits for the lock. -/
def LockWanted (s : Threadpool F n) : Prop := ∃ i, (s.thread i).Enters

/-- Some thread is about to notify. -/
def NotifyOwed (s : Threadpool F n) : Prop := ∃ i y, (s.thread i).Notifies y

/-- When `join` notifies while a thread stands between its test and `cv.wait`, some other thread
is blocked already, or some thread waits for the lock and will notify after the first one is
blocked. -/
def NotifyHeard (s : Threadpool F n) : ThreadpoolAct F n → Prop
  | .joinNotify _ => (∃ i, s.thread i = .wait) → (∃ i, s.thread i = .blocked) ∨ s.LockWanted
  | _ => True

/-- Every thread that is blocked or about to be has a thread that will notify. -/
structure Relieved (s : Threadpool F n) : Prop where
  wait : (∃ i, s.thread i = .wait) → s.LockWanted ∨ s.NotifyOwed ∧ ∃ i, s.thread i = .blocked
  blocked : (∃ i, s.thread i = .blocked) → s.LockWanted ∨ s.NotifyOwed

end Threadpool

/-- The thread is not blocked or about to be, owes no notification and does not wait for the
lock. -/
def ProcessPlace.quiet : ProcessPlace F → Bool
  | .testJobs | .testStop | .call _ | .running _ | .exited => true
  | _                                                      => false

lemma ProcessPlace.not_enters_of_quiet {x : ProcessPlace F} (h : x.quiet = true) : ¬ x.Enters := by
  rintro ⟨⟩ <;> cases h

lemma ProcessPlace.not_notifies_of_quiet {x y : ProcessPlace F} (h : x.quiet = true) :
    ¬ x.Notifies y := by
  rintro ⟨⟩ <;> cases h

/-- `join` has notified. -/
def JoinPlace.notified : JoinPlace → Bool
  | .joining _ | .returned => true
  | _                      => false

namespace Threadpool

variable {s s' : Threadpool F n} {i : Fin n} {x : ProcessPlace F}

lemma LockWanted.setThread (h : s.LockWanted) (hi : ¬ (s.thread i).Enters) :
    (s.setThread i x).LockWanted :=
  Places.exists_update h hi

lemma NotifyOwed.setThread (h : s.NotifyOwed) (hi : ∀ y, ¬ (s.thread i).Notifies y) :
    (s.setThread i x).NotifyOwed :=
  Places.exists_update (Q := fun x => ∃ y, ProcessPlace.Notifies x y) h (not_exists.mpr hi)

lemma Relieved.of_lockWanted (h : s.LockWanted) : Relieved s := ⟨fun _ => .inl h, fun _ => .inl h⟩

/-- A quiet thread moves and does not go to sleep. -/
lemma Relieved.setThread (hR : Relieved s) (hi : (s.thread i).quiet = true) (hwait : x ≠ .wait)
    (hblocked : x ≠ .blocked) : Relieved (s.setThread i x) := by
  have hacq := ProcessPlace.not_enters_of_quiet hi
  have howes := fun y => ProcessPlace.not_notifies_of_quiet (y := y) hi
  constructor
  · intro hw
    rcases hR.wait (Places.exists_eq_of_update hw hwait) with hwanted | ⟨howed, hasleep⟩
    · exact .inl (hwanted.setThread hacq)
    · refine .inr ⟨howed.setThread howes, Places.exists_eq_update hasleep fun hb => ?_⟩
      rw [hb] at hi
      cases hi
  · intro hb
    have hasleep := Places.exists_eq_of_update hb hblocked
    exact (hR.blocked hasleep).imp (·.setThread hacq) (·.setThread howes)

/-- A notification that a thread between its test and `cv.wait` misses was not needed. -/
lemma Wakes.relieved (h : s.Wakes s')
    (hwait : (∃ i, s.thread i = .wait) → s.LockWanted ∨ ∃ i, s.thread i = .blocked) :
    Relieved s' := by
  cases h with
  | one k hk => exact .of_lockWanted ⟨k, by simpa using .woken⟩
  | nobody hnone =>
    refine ⟨fun hw => .inl ?_, fun ⟨j, hj⟩ => absurd hj (hnone j)⟩
    rcases hwait hw with hwanted | ⟨j, hj⟩
    · exact hwanted
    · exact absurd hj (hnone j)

/-- While the lock is free, no thread stands between its test and `cv.wait`. -/
lemma HolderInv.nobody_waits (hH : HolderInv s) (hfree : s.holder = none) :
    ¬ ∃ i, s.thread i = .wait := by
  rintro ⟨i, hi⟩
  cases hfree.symm.trans ((hH i).mp hi)

/-! ### The guarded steps -/

variable [DecidableEq F] {a : ThreadpoolAct F n}

/-- A step that the guard allows leaves a thread for each queued function. -/
lemma Served.step (hS : Served s) (hG : LeavesNone s a) (hstep : s.step a = some s') :
    Served s' := by
  cases ThreadpoolRule.of_step hstep with
  | @move i x y h hm =>
    cases hm with
    | testStopSet hstop =>
      intro hjobs
      obtain ⟨j, hji, hj⟩ := hG h hstop hjobs
      exact ⟨j, by simpa [hji] using hj⟩
    | _ => exact served_of_thread (i := i) (by simp [ProcessPlace.leaving])
  | @sleep i | @take i | @wait i | @call i | @functionReturn i =>
    exact served_of_thread (i := i) (by simp [ProcessPlace.leaving])
  | leave _ _ _ hjobs => exact fun hne => absurd hjobs hne
  | @notify i x y _ _ h hx hwake =>
    have hmid : Served (s.setThread i y) := hS.frame rfl (leaving_setThread (by
      rw [h]
      cases hx <;> rfl))
    exact hmid.wakes hwake
  | @post functionP _ _ _ hwake =>
    have hmid : Served (s.push functionP) := fun _ => hG
    exact hmid.wakes hwake
  | joinNotify _ hwake =>
    have hmid : Served { s with join := .joining 0 } := hS
    exact hmid.wakes hwake
  | spurious h => exact hS.wakes (.one _ h)
  | _ => exact hS

/-- Once the flag is set, every step leaves the sleepers relieved. -/
lemma Relieved.step (hR : Relieved s) (hH : HolderInv s) (hstop : s.stop = true)
    (hstep : s.step a = some s') : Relieved s' := by
  have hH' := hH.step hstep
  have hwait : (∃ j, s.thread j = .wait) → s.LockWanted ∨ ∃ j, s.thread j = .blocked :=
    fun h => (hR.wait h).imp_right And.right
  cases ThreadpoolRule.of_step hstep with
  | move h hm =>
    cases hm with
    | testStopUnset hunset => simp [hstop] at hunset
    | _ => exact hR.setThread (by rw [h]; rfl) (by simp) (by simp)
  | sleep _ _ _ _ hunset => simp [hstop] at hunset
  | @leave i _ _ _ hfree =>
    refine ⟨fun hw => absurd hw (hH'.nobody_waits hfree), fun _ => .inr ⟨i, .exited, ?_⟩⟩
    simpa using .leave
  | @take i _ p _ _ _ hfree =>
    refine ⟨fun hw => absurd hw (hH'.nobody_waits hfree), fun _ => .inr ⟨i, .call p, ?_⟩⟩
    simpa using .notify p
  | @wait i h =>
    refine ⟨fun hw => absurd hw (hH'.nobody_waits rfl), fun _ => ?_⟩
    refine (hR.wait ⟨i, h⟩).imp (fun hwanted => ?_) fun ⟨howed, _⟩ => ?_
    · exact hwanted.setThread (i := i) (x := .blocked) (by rw [h]; rintro ⟨⟩)
    · exact howed.setThread (i := i) (x := .blocked) (by rw [h]; rintro _ ⟨⟩)
  | @call i p h =>
    have hmid : Relieved (s.setThread i (.running p)) :=
      hR.setThread (by rw [h]; rfl) (by simp) (by simp)
    exact ⟨hmid.wait, hmid.blocked⟩
  | functionReturn h => exact hR.setThread (by rw [h]; rfl) (by simp) (by simp)
  | @notify i x y _ _ h hx hwake =>
    refine hwake.relieved fun hw => ?_
    have hy : y ≠ .wait := by cases hx <;> simp
    rcases hwait (Places.exists_eq_of_update hw hy) with hwanted | hasleep
    · exact .inl (hwanted.setThread (by rw [h]; cases hx <;> rintro ⟨⟩))
    · exact .inr (Places.exists_eq_update hasleep (by rw [h]; cases hx <;> simp))
  | post hfree hwake => exact hwake.relieved fun hw => absurd hw (hH.nobody_waits hfree)
  | joinNotify _ hwake => exact hwake.relieved hwait
  | spurious h => exact (Wakes.one _ h).relieved hwait
  | _ => exact ⟨hR.wait, hR.blocked⟩

/-- A step after which `join` has notified, and was heard, leaves the sleepers relieved. -/
lemma relieved_of_step (hI : Inv s) (hR : s.join.notified = true → Relieved s)
    (hG : NotifyHeard s a) (hstep : s.step a = some s') (hnotified : s'.join.notified = true) :
    Relieved s' := by
  cases h : s.join.notified with
  | true =>
    have hstop : s.stop = true := by
      rw [hI.stop]
      cases hj : s.join <;> simp_all [JoinPlace.notified, JoinPlace.stopped]
    exact (hR h).step hI.holder hstop hstep
  | false =>
    have hkeep : s'.join = s.join → Relieved s' := fun hjoin => by simp [hjoin, h] at hnotified
    cases ThreadpoolRule.of_step hstep with
    | joinNotify hj hwake => exact hwake.relieved fun hw => (hG hw).symm
    | joinTestSet hj hset => simp [hI.stop, hj, JoinPlace.stopped] at hset
    | joinOne hj | joinAll hj => simp [hj, JoinPlace.notified] at h
    | callJoin | joinTestUnset | setStop => cases hnotified
    | notify _ _ hwake | post _ hwake => exact hkeep hwake.frame.2.2.2
    | _ => exact hkeep rfl

/-! ### Stuck states -/

/-- No thread can take a step. A call of `post` may start, but none has to. -/
def Stuck (s : Threadpool F n) : Prop :=
  ∀ a, (∀ functionP target, a ≠ .post functionP target) → (∀ i, a ≠ .spurious i) → s.step a = none

/-- `join` has returned, the queue is empty, and every function that was posted before `join` was
called once. -/
structure Completed (s : Threadpool F n) : Prop where
  returned : s.join = .returned
  jobs : s.jobs = []
  called : ∀ k < s.due, s.CalledOnce k

omit [DecidableEq F] in
/-- The region never runs into `front()` or `pop()` of an empty queue. -/
lemma region_ne_none (hfree : s.holder = none) : s.region i ≠ none := by
  cases hjobs : s.jobs with
  | nil => cases hstop : s.stop <;> simp [region, hfree, hjobs, hstop]
  | cons p jobs => simp [region, hfree, hjobs]

/-- A notification can always be sent. -/
lemma exists_notifyOne (s : Threadpool F n) : ∃ target, s.notifyOne target ≠ none := by
  by_cases h : ∃ k, s.thread k = .blocked
  · obtain ⟨k, hk⟩ := h
    exact ⟨some k, by simp [notifyOne, hk]⟩
  · exact ⟨none, by simp [notifyOne, not_exists.mp h]⟩

lemma Stuck.process_eq (hs : Stuck s) (i : Fin n) : s.process i = none :=
  hs (.process i) (by simp) (by simp)

lemma Stuck.holder_free (hs : Stuck s) (hH : HolderInv s) : s.holder = none := by
  by_contra hne
  obtain ⟨i, hi⟩ := Option.ne_none_iff_exists'.mp hne
  have hwait : s.thread i = .wait := (hH i).mpr hi
  simpa [process, hwait] using hs.process_eq i

lemma Stuck.asleep_or_gone (hs : Stuck s) (hH : HolderInv s) (i : Fin n) :
    s.thread i = .blocked ∨ s.thread i = .exited := by
  have hprocess := hs.process_eq i
  have hregion : s.region i ≠ none := region_ne_none (hs.holder_free hH)
  have hnotify : ∀ {x y}, s.thread i = x → x.Notifies y → False := by
    intro x y hx hy
    obtain ⟨target, htarget⟩ := exists_notifyOne (s.setThread i y)
    have h := hs (.notify i target) (by simp) (by simp)
    cases hy <;> simp only [step, processNotify, hx] at h <;> exact htarget h
  cases hx : s.thread i with
  | blocked => exact .inl rfl
  | exited => exact .inr rfl
  | leave => exact (hnotify hx .leave).elim
  | notify p => exact (hnotify hx (.notify p)).elim
  | lock | woken =>
    simp only [process, hx] at hprocess
    exact absurd hprocess hregion
  | running p =>
    have hreturn := hs (.functionReturn i) (by simp) (by simp)
    simp [step, functionReturn, hx] at hreturn
  | _ => simp [process, hx] at hprocess

/-- A state in which no thread can take a step, no thread sleeps without relief and each queued
function has a thread is a completion. -/
lemma Stuck.completed (hs : Stuck s) (hI : Inv s) (hcalled : s.join ≠ .notCalled) (hS : Served s)
    (hR : s.join.notified = true → Relieved s) : Completed s := by
  have hjoin : s.joinNext = none := hs .join (by simp) (by simp)
  have hgone : s.join.notified = true → ∀ i, s.thread i = .exited := by
    intro hnotified i
    refine (hs.asleep_or_gone hI.holder i).resolve_left fun hi => ?_
    rcases (hR hnotified).blocked ⟨i, hi⟩ with ⟨j, hj⟩ | ⟨j, y, hj⟩
    all_goals rcases hs.asleep_or_gone hI.holder j with h | h <;> rw [h] at hj <;> cases hj
  cases hj : s.join with
  | notCalled => exact absurd hj hcalled
  | test | setStop => simp [joinNext, hj] at hjoin
  | notify =>
    obtain ⟨target, htarget⟩ := exists_notifyOne { s with join := .joining 0 }
    have hnotify := hs (.joinNotify target) (by simp) (by simp)
    simp only [step, joinNotify, hj] at hnotify
    exact absurd hnotify htarget
  | joining t =>
    have hexit := hgone (by rw [hj]; rfl)
    by_cases ht : t < n <;> simp [joinNext, hj, ht, hexit] at hjoin
  | returned =>
    have hexit := hgone (by rw [hj]; rfl)
    have hjobs : s.jobs = [] := by
      by_contra hne
      obtain ⟨j, hjl⟩ := hS hne
      simp [hexit, ProcessPlace.leaving] at hjl
    exact ⟨hj, hjobs, fun k hk => hI.calledOnce hexit hjobs (hk.trans_le hI.tickets.due_le)⟩

/-- A state is stuck when its threads sleep or are gone and `join` waits for a sleeper or has
returned. -/
lemma stuck_of (hthread : ∀ i, s.thread i = .blocked ∨ s.thread i = .exited)
    (hjoin : (∃ k : Fin n, s.join = .joining k ∧ s.thread k = .blocked) ∨ s.join = .returned) :
    s.Stuck := by
  intro a hpost hspurious
  cases a with
  | process i => rcases hthread i with h | h <;> simp [step, process, h]
  | notify i target => rcases hthread i with h | h <;> simp [step, processNotify, h]
  | functionReturn i => rcases hthread i with h | h <;> simp [step, functionReturn, h]
  | post functionP target => exact absurd rfl (hpost functionP target)
  | callJoin => rcases hjoin with ⟨k, hk, -⟩ | h <;> simp [step, *]
  | join =>
    rcases hjoin with ⟨k, hk, hb⟩ | h
    · simp [step, joinNext, hk, hb]
    · simp [step, joinNext, h]
  | joinNotify target => rcases hjoin with ⟨k, hk, -⟩ | h <;> simp [step, joinNotify, *]
  | spurious i => exact absurd rfl (hspurious i)

/-- The last thread leaves no function behind, and the notification of `join` is heard. -/
def LosesNothing (s : Threadpool F n) (a : ThreadpoolAct F n) : Prop :=
  s.LeavesNone a ∧ s.NotifyHeard a

end Threadpool

variable [DecidableEq F] {s : Threadpool F n}

/-- In a run that loses nothing, `front()` and `pop()` find a function whenever a thread gets to
them, and the only state after the call of `join` in which no thread can take a step is a
completion. -/
theorem threadpool_completes
    (h : (threadpoolSystem F n).ReachableMeeting Threadpool.LosesNothing s) :
    (∀ i, (s.thread i).Enters → s.holder = none → s.region i ≠ none) ∧
      (s.join ≠ .notCalled → s.Stuck → s.Completed) := by
  have hI := Threadpool.Inv.of_reachable h.reachable
  have hkept : s.Served ∧ (s.join.notified = true → s.Relieved) := by
    refine h.invariant (I := fun s => s.Served ∧ (s.join.notified = true → s.Relieved)) ?_ ?_
    · rintro s₀ rfl
      exact ⟨fun hne => absurd rfl hne, fun hnotified => by cases hnotified⟩
    · rintro s a s' hreach ⟨hS, hR⟩ ⟨hleaves, hheard⟩ hstep
      have hI := Threadpool.Inv.of_reachable hreach
      exact ⟨hS.step hleaves hstep, Threadpool.relieved_of_step hI hR hheard hstep⟩
  exact ⟨fun i _ hfree => Threadpool.region_ne_none hfree,
    fun hcalled hstuck => hstuck.completed hI hcalled hkept.1 hkept.2⟩

/-- The thread sleeps, is woken for a function, sleeps again, hears `join` and leaves. -/
theorem threadpool_completes_one : ∃ s : Threadpool ℕ 1,
    s.due = 1 ∧ s.called = [⟨7, 0⟩] ∧ s.join ≠ .notCalled ∧ s.Stuck ∧ s.Completed := by
  let acts : List (ThreadpoolAct ℕ 1) :=
    [.process 0, .process 0, .process 0, .process 0, .post 7 (some 0), .process 0, .notify 0 none,
      .process 0, .functionReturn 0, .process 0, .process 0, .process 0, .process 0, .callJoin,
      .join, .join, .joinNotify (some 0), .process 0, .notify 0 none, .join, .join]
  let test : Threadpool ℕ 1 → ThreadpoolAct ℕ 1 → Bool
    | s, .process 0      => s.stop = false ∨ s.thread 0 ≠ .testStop
    | s, .post _ _       => (s.thread 0).leaving = false
    | s, .joinNotify _   => s.thread 0 ≠ .wait
    | _, _               => true
  have htest : ∀ s a, test s a = true → s.LosesNothing a := by
    intro s a h
    cases a with
    | process i =>
      refine ⟨fun hplace hstop => ?_, trivial⟩
      rw [Subsingleton.elim i 0] at h hplace
      simp [test, hplace, hstop] at h
    | post functionP target => exact ⟨⟨0, of_decide_eq_true h⟩, trivial⟩
    | joinNotify target =>
      refine ⟨trivial, fun ⟨i, hi⟩ => ?_⟩
      rw [Subsingleton.elim i 0] at hi
      exact absurd hi (of_decide_eq_true h)
    | _ => exact ⟨trivial, trivial⟩
  have hrun : (((threadpoolSystem ℕ 1).execMeeting test .initial acts).map fun s =>
      (s.due, s.called, s.thread 0, s.join)) = some (1, [⟨7, 0⟩], .exited, .returned) := by
    decide +kernel
  obtain ⟨s, hs, hval⟩ := Option.map_eq_some_iff.mp hrun
  simp only [Prod.mk.injEq] at hval
  obtain ⟨hdue, hcalled, hthread, hjoin⟩ := hval
  have hstuck : s.Stuck :=
    Threadpool.stuck_of (fun i => .inr (Subsingleton.elim i 0 ▸ hthread)) (.inr hjoin)
  have hne : s.join ≠ .notCalled := by simp [hjoin]
  exact ⟨s, hdue, hcalled, hne, hstuck, (threadpool_completes
    ⟨_, acts, rfl, LTS.runMeeting_of_exec hs htest⟩).2 hne hstuck⟩

/-- The thread reads an empty queue, a function is posted, `join` sets the flag, and the thread
reads the flag: `join` returns and the function stays in the queue. -/
theorem threadpool_loses_function : ¬ ∀ s : Threadpool ℕ 1,
    (threadpoolSystem ℕ 1).Reachable s → s.join ≠ .notCalled → s.Stuck → s.Completed := by
  intro hall
  let acts : List (ThreadpoolAct ℕ 1) :=
    [.process 0, .post 7 none, .callJoin, .join, .join, .process 0, .joinNotify none, .join, .join]
  have hrun : (((threadpoolSystem ℕ 1).exec .initial acts).map fun s =>
      (s.jobs, s.thread 0, s.join)) = some ([⟨7, 0⟩], .exited, .returned) := by decide +kernel
  obtain ⟨s, hs, hval⟩ := Option.map_eq_some_iff.mp hrun
  simp only [Prod.mk.injEq] at hval
  obtain ⟨hjobs, hthread, hjoin⟩ := hval
  have hstuck : s.Stuck :=
    Threadpool.stuck_of (fun i => .inr (Subsingleton.elim i 0 ▸ hthread)) (.inr hjoin)
  have h := hall s ⟨_, acts, rfl, LTS.run_of_exec hs⟩ (by simp [hjoin]) hstuck
  exact absurd h.jobs (by simp [hjobs])

/-- The thread tests the flag, `join` sets it and notifies, and the thread calls `cv.wait`: nobody
wakes it, and `join` waits for it for ever. -/
theorem thread_misses_notification : ∃ s : Threadpool ℕ 1,
    (threadpoolSystem ℕ 1).Reachable s ∧ s.Stuck ∧ s.thread 0 = .blocked ∧ s.join = .joining 0 := by
  let acts : List (ThreadpoolAct ℕ 1) :=
    [.process 0, .process 0, .process 0, .callJoin, .join, .join, .joinNotify none, .process 0]
  have hrun : (((threadpoolSystem ℕ 1).exec .initial acts).map fun s => (s.thread 0, s.join)) =
      some (.blocked, .joining 0) := by decide +kernel
  obtain ⟨s, hs, hval⟩ := Option.map_eq_some_iff.mp hrun
  simp only [Prod.mk.injEq] at hval
  obtain ⟨hthread, hjoin⟩ := hval
  have hstuck : s.Stuck :=
    Threadpool.stuck_of (fun i => .inl (Subsingleton.elim i 0 ▸ hthread)) (.inl ⟨0, hjoin, hthread⟩)
  exact ⟨s, ⟨_, acts, rfl, LTS.run_of_exec hs⟩, hstuck, hthread, hjoin⟩

end C10K
