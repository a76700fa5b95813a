import C10K.Workers.Lock

/-!
# The queue of the pool

A pair is pushed and taken in two halves. While the lock is free the queue holds whole pairs, those
that were pushed and not taken yet; while it is held, all but the half that its holder has in hand.
-/

namespace C10K

open LawfulFifoQueue (contents)

variable {Q W : Type} {n : ℕ} {ι : Type}

namespace Pool

variable {s s' : Pool Q W n ι} {i : Fin n} {t : Tid n ι} {x : WorkerPc W} {y : PostPc W}

/-- The queue entries of a list of pairs. -/
def entries (l : List (W × W)) : List W := l.flatMap fun p => [p.1, p.2]

/-- The half of a pair that the holder of the lock took already. -/
def midTaken (s : Pool Q W n ι) : List W := (s.lock.bind s.workerOf).elim [] WorkerPc.taken

/-- The half of a pair that the holder of the lock pushed already. -/
def midPut (s : Pool Q W n ι) : List W := (s.lock.bind s.post).elim [] PostPc.put

/-- The queue holds the pairs that were pushed and not taken, but for the half that the holder of
the lock has in hand; and each worker is right about what it read. -/
structure JobsInv [FifoQueue Q W] [LawfulFifoQueue Q W] (s : Pool Q W n ι) : Prop where
  jobs_eq : ∃ rest, s.hist.pushed = s.hist.plucked ++ rest ∧
    s.midTaken ++ contents s.jobs = entries rest ++ s.midPut
  sees : ∀ i, (s.worker i).Sees (contents s.jobs) s.stop

/-! ### Moves of a worker -/

lemma midTaken_setWorker (hx : x.taken = (s.worker i).taken) :
    (s.setWorker i x).midTaken = s.midTaken := by
  unfold midTaken
  rcases hl : s.lock with _ | (j | p)
  · simp [hl]
  · by_cases hj : j = i
    · subst hj
      simp [hl, workerOf, hx]
    · simp [hl, workerOf, hj]
  · simp [hl, workerOf]

/-- The holder of the lock, as a worker, has pushed nothing. -/
lemma LockInv.mid_of_worker (hL : LockInv s) (hin : (s.worker i).inLock = true) :
    s.midTaken = (s.worker i).taken ∧ s.midPut = [] := by
  have hrun : (s.worker i).isRunning = false := by
    revert hin
    cases s.worker i <;> simp [WorkerPc.inLock, WorkerPc.isRunning]
  simp [midTaken, midPut, workerOf, hL.lock_of_worker hin, hL.post_eq_none hrun]

/-- The holder of the lock, in a call of `w_post`, has taken nothing. -/
lemma LockInv.mid_of_post (hL : LockInv s) (h : s.post t = some y) (hy : y.inLock = true) :
    s.midTaken = [] ∧ s.midPut = y.put := by
  have hlock := hL.lock_of_post h hy
  have htaken := (hL.workerOf_of_post (t := t) (by simp [h])).2
  simp [midTaken, midPut, hlock, h, htaken]

lemma mid_of_free (hfree : s.lock = none) : s.midTaken = [] ∧ s.midPut = [] := by
  simp [midTaken, midPut, hfree]

lemma sees_setWorker {jobs : List W} {stop : Bool} (h : ∀ j, (s.worker j).Sees jobs stop)
    (hx : x.Sees jobs stop) (j : Fin n) : ((s.setWorker i x).worker j).Sees jobs stop := by
  by_cases hj : j = i <;> simp [hj, hx, h]

section Worker

variable [FifoQueue Q W] [LawfulFifoQueue Q W]

/-- A worker inside the lock changes the queue: no other worker looks at it. -/
lemma JobsInv.sees_of_worker (hI : JobsInv s) (hL : LockInv s) (hin : (s.worker i).inLock = true)
    {jobs : List W} (hx : x.Sees jobs s.stop) (j : Fin n) :
    ((s.setWorker i x).worker j).Sees jobs s.stop := by
  by_cases hj : j = i
  · simpa [hj] using hx
  · have hout : (s.worker j).inLock = false :=
      hL.worker_outside (hL.lock_of_worker hin) fun h => hj (by cases h; rfl)
    simpa [hj] using (hI.sees j).of_not_inLock hout id

/-- A call of `w_post` inside the lock changes the queue: no worker looks at it. -/
lemma JobsInv.sees_of_post (hI : JobsInv s) (hL : LockInv s) (h : s.post t = some y)
    (hy : y.inLock = true) {jobs : List W} (j : Fin n) : (s.worker j).Sees jobs s.stop := by
  refine (hI.sees j).of_not_inLock ?_ id
  by_cases hj : t = .worker j
  · have hout := (hL.workerOf_of_post (t := t) (by simp [h])).1
    simpa [hj, workerOf] using hout
  · exact hL.worker_outside (hL.lock_of_post h hy) hj

/-- The halves in hand, the pairs in the history and the queue are as before. -/
lemma JobsInv.frame (hI : JobsInv s) (hpushed : s'.hist.pushed = s.hist.pushed)
    (hplucked : s'.hist.plucked = s.hist.plucked) (hjobs : s'.jobs = s.jobs)
    (htaken : s'.midTaken = s.midTaken) (hput : s'.midPut = s.midPut)
    (hsees : ∀ j, (s'.worker j).Sees (contents s'.jobs) s'.stop) : JobsInv s' := by
  obtain ⟨rest, hrest, heq⟩ := hI.jobs_eq
  refine ⟨⟨rest, by rw [hpushed, hplucked, hrest], ?_⟩, hsees⟩
  rw [htaken, hput, hjobs, heq]

/-- A worker moves without touching the lock or the queue. -/
lemma JobsInv.setWorker (hI : JobsInv s) (htaken : x.taken = (s.worker i).taken)
    (hx : x.Sees (contents s.jobs) s.stop) : JobsInv (s.setWorker i x) :=
  hI.frame rfl rfl rfl (midTaken_setWorker htaken) rfl (sees_setWorker hI.sees hx)

lemma JobsInv.wakes (hI : JobsInv s) (h : s.Wakes s') : JobsInv s' := by
  cases h with
  | nobody => exact hI
  | one k hk => exact hI.setWorker (by rw [hk]; rfl) trivial

/-- The first `q_next` of a worker. -/
lemma JobsInv.nextFunction (hI : JobsInv s) (hL : LockInv s) {f : W} {jobs : Q}
    (h : s.worker i = .nextFunction) (hnext : FifoQueue.next s.jobs = some (f, jobs)) :
    JobsInv { s.setWorker i (.nextArgs f) with jobs } := by
  have hin : (s.worker i).inLock = true := by rw [h]; rfl
  have hL' : LockInv (s.setWorker i (.nextArgs f)) :=
    hL.setWorker (by rw [h]; rfl) (hL.post_eq_none (by rw [h]; rfl))
  have hne : contents s.jobs ≠ [] := by simpa [h, WorkerPc.Sees] using hI.sees i
  obtain ⟨rest, hrest, heq⟩ := hI.jobs_eq
  refine ⟨⟨rest, hrest, ?_⟩, hI.sees_of_worker hL hin trivial⟩
  have hmid := hL.mid_of_worker hin
  have hmid' := hL'.mid_of_worker (i := i) (by simp [WorkerPc.inLock])
  calc _ = (s.setWorker i (.nextArgs f)).midTaken ++ contents jobs := rfl
    _ = [f] ++ contents jobs := by rw [hmid'.1]; simp [WorkerPc.taken]
    _ = contents s.jobs := (LawfulFifoQueue.contents_next hne hnext).symm
    _ = entries rest := by simpa [hmid, h, WorkerPc.taken] using heq
    _ = entries rest ++ (s.setWorker i (.nextArgs f)).midPut := by rw [hmid'.2, List.append_nil]

/-- The second `q_next` of a worker: what it takes is the other half of the oldest pair. -/
lemma JobsInv.nextArgs (hI : JobsInv s) (hL : LockInv s) {f a : W} {jobs : Q}
    (h : s.worker i = .nextArgs f) (hnext : FifoQueue.next s.jobs = some (a, jobs)) :
    JobsInv { s.setWorker i (.unlock ⟨f, a, s.hist.plucked.length⟩) with
      jobs
      hist := { s.hist with plucked := s.hist.plucked ++ [(f, a)] } } := by
  have hin : (s.worker i).inLock = true := by rw [h]; rfl
  have hL' : LockInv (s.setWorker i (.unlock ⟨f, a, s.hist.plucked.length⟩)) :=
    hL.setWorker (by rw [h]; rfl) (hL.post_eq_none (by rw [h]; rfl))
  obtain ⟨rest, hrest, heq⟩ := hI.jobs_eq
  have hmid := hL.mid_of_worker hin
  have hmid' := hL'.mid_of_worker (i := i) (by simp [WorkerPc.inLock])
  simp only [hmid, h, WorkerPc.taken, List.append_nil, List.singleton_append] at heq
  -- the half in hand is the first entry of a pair, so its other half is still in the queue
  obtain _ | ⟨⟨f', a'⟩, rest⟩ := rest
  · simp [entries] at heq
  · simp only [entries, List.flatMap_cons, List.cons_append, List.nil_append,
      List.cons.injEq] at heq
    obtain ⟨rfl, heq⟩ := heq
    have hcontents := LawfulFifoQueue.contents_next (by simp [heq]) hnext
    rw [heq, List.cons.injEq] at hcontents
    obtain ⟨rfl, hjobs⟩ := hcontents
    refine ⟨⟨rest, by simp [hrest], ?_⟩, hI.sees_of_worker hL hin trivial⟩
    calc _ = (s.setWorker i (.unlock ⟨f, a', s.hist.plucked.length⟩)).midTaken ++
          contents jobs := rfl
      _ = contents jobs := by rw [hmid'.1]; simp [WorkerPc.taken]
      _ = entries rest := hjobs.symm
      _ = entries rest ++ (s.setWorker i (.unlock ⟨f, a', s.hist.plucked.length⟩)).midPut := by
        rw [hmid'.2, List.append_nil]

end Worker

/-! ### Moves of a call of `w_post` -/

variable [DecidableEq ι] {z : Option (PostPc W)}

lemma midTaken_setPost : (s.setPost t z).midTaken = s.midTaken := by
  have hof : (s.setPost t z).workerOf = s.workerOf := funext fun _ => workerOf_setPost
  simp [midTaken, hof]

lemma midPut_setPost (hz : z.elim [] PostPc.put = (s.post t).elim [] PostPc.put) :
    (s.setPost t z).midPut = s.midPut := by
  unfold midPut
  rcases hl : s.lock with _ | u
  · simp [hl]
  · by_cases hu : u = t
    · subst hu
      simpa [hl] using hz
    · simp [hl, hu]

variable [FifoQueue Q W] [LawfulFifoQueue Q W]

/-- A call of `w_post` moves without touching the lock or the queue. -/
lemma JobsInv.setPost (hI : JobsInv s)
    (hz : z.elim [] PostPc.put = (s.post t).elim [] PostPc.put) : JobsInv (s.setPost t z) :=
  hI.frame rfl rfl rfl midTaken_setPost (midPut_setPost hz) hI.sees

/-- The first `q_push` of a call of `w_post`. -/
lemma JobsInv.pushJob (hI : JobsInv s) (hL : LockInv s) {job args : W} {jobs : Q}
    (h : s.post t = some (.pushJob job args)) (hpush : FifoQueue.push s.jobs job = some jobs) :
    JobsInv { s.setPost t (some (.pushArgs job args)) with jobs } := by
  have hlock : s.lock = some t := hL.lock_of_post h rfl
  obtain ⟨rest, hrest, heq⟩ := hI.jobs_eq
  refine ⟨⟨rest, hrest, ?_⟩, fun j => hI.sees_of_post hL h rfl j⟩
  have hmid := hL.mid_of_post h rfl
  have htaken : (s.setPost t (some (.pushArgs job args))).midTaken = [] :=
    midTaken_setPost.trans hmid.1
  have hput : (s.setPost t (some (.pushArgs job args))).midPut = [job] := by
    simp [midPut, hlock, PostPc.put]
  calc _ = (s.setPost t (some (.pushArgs job args))).midTaken ++ contents jobs := rfl
    _ = contents s.jobs ++ [job] := by rw [htaken, LawfulFifoQueue.contents_push hpush]; rfl
    _ = entries rest ++ [job] := by
      rw [← List.nil_append (contents s.jobs), ← hmid.1, heq, hmid.2]
      simp [PostPc.put]
    _ = entries rest ++ (s.setPost t (some (.pushArgs job args))).midPut := by rw [hput]

/-- The second `q_push` of a call of `w_post` completes the pair. -/
lemma JobsInv.pushArgs (hI : JobsInv s) (hL : LockInv s) {job args : W} {jobs : Q}
    (h : s.post t = some (.pushArgs job args)) (hpush : FifoQueue.push s.jobs args = some jobs) :
    JobsInv { s.setPost t (some (.unlock s.hist.pushed.length)) with
      jobs
      hist := { s.hist with pushed := s.hist.pushed ++ [(job, args)] } } := by
  have hlock : s.lock = some t := hL.lock_of_post h rfl
  obtain ⟨rest, hrest, heq⟩ := hI.jobs_eq
  have hmid := hL.mid_of_post h rfl
  have htaken : (s.setPost t (some (.unlock s.hist.pushed.length))).midTaken = [] :=
    midTaken_setPost.trans hmid.1
  have hput : (s.setPost t (some (.unlock s.hist.pushed.length))).midPut = [] := by
    simp [midPut, hlock, PostPc.put]
  simp only [hmid, List.nil_append, PostPc.put] at heq
  refine ⟨⟨rest ++ [(job, args)], by simp [hrest], ?_⟩, fun j => hI.sees_of_post hL h rfl j⟩
  calc _ = (s.setPost t (some (.unlock s.hist.pushed.length))).midTaken ++ contents jobs := rfl
    _ = entries rest ++ [job] ++ [args] := by
      rw [htaken, LawfulFifoQueue.contents_push hpush, heq]; rfl
    _ = entries (rest ++ [(job, args)]) := by simp [entries]
    _ = entries (rest ++ [(job, args)]) ++
        (s.setPost t (some (.unlock s.hist.pushed.length))).midPut := by
      rw [hput, List.append_nil]

/-! ### Every step -/

theorem JobsInv.step {a : PoolAct W n ι} (hI : JobsInv s) (hL : LockInv s)
    (hstep : s.step a = some s') : JobsInv s' := by
  have hL' := hL.step hstep
  cases PoolRule.of_step hstep with
  | read h hr =>
    subst h
    exact hI.setWorker hr.taken_eq (hr.sees (hI.sees _))
  | @acquire i _ h hx hfree =>
    have hmid := mid_of_free hfree
    have hmid' := hL'.mid_of_worker (i := i) (by simp [WorkerPc.inLock])
    have htaken : WorkerPc.taken (((s.setWorker i .waitJobs).setLock none).worker i) = [] := by
      simp [WorkerPc.taken]
    exact hI.frame rfl rfl rfl (hmid'.1.trans (htaken.trans hmid.1.symm))
      (hmid'.2.trans hmid.2.symm) (sees_setWorker hI.sees trivial)
  | release h hx =>
    subst h
    have hmid := hL.mid_of_worker hx.inLock_eq.1
    exact hI.frame rfl rfl rfl (hx.taken_eq.symm.trans hmid.1.symm) hmid.2.symm
      (sees_setWorker hI.sees (hx.sees (hI.sees _)))
  | nextFunction h hnext => exact hI.nextFunction hL h hnext
  | nextArgs h hnext => exact hI.nextArgs hL h hnext
  | signal h hx hwake =>
    subst h
    exact (hI.setWorker hx.taken_eq (hx.sees (hI.sees _))).wakes hwake
  | @call i p h =>
    have hmid : (s.setWorker i (.running p)).midTaken = s.midTaken :=
      midTaken_setWorker (by rw [h]; rfl)
    exact hI.frame rfl rfl rfl hmid rfl (sees_setWorker hI.sees trivial)
  | @jobReturn i p h =>
    have hmid : (s.setWorker i .testJobs).midTaken = s.midTaken :=
      midTaken_setWorker (by rw [h]; rfl)
    exact hI.frame rfl rfl rfl hmid rfl (sees_setWorker hI.sees trivial)
  | callPost hcan h => exact hI.setPost (by rw [h]; rfl)
  | @postAcquire t job args h hfree =>
    have hmid := mid_of_free hfree
    have hmid' := hL'.mid_of_post (t := t) (y := .pushJob job args) (by simp) rfl
    exact hI.frame rfl rfl rfl (hmid'.1.trans hmid.1.symm) (hmid'.2.trans hmid.2.symm) hI.sees
  | pushJob h hpush => exact hI.pushJob hL h hpush
  | pushArgs h hpush => exact hI.pushArgs hL h hpush
  | postRelease h =>
    have hmid := hL.mid_of_post h rfl
    exact hI.frame rfl rfl rfl hmid.1.symm hmid.2.symm hI.sees
  | @postSignal t _ _ _ h hwake =>
    have hmid := hI.setPost (t := t) (z := none) (by rw [h]; rfl)
    refine JobsInv.wakes ?_ hwake
    exact hmid.frame rfl rfl rfl rfl rfl hmid.sees
  | callJoin | joinTestSet | joinTestUnset | joinOne | joinAll =>
    exact hI.frame rfl rfl rfl rfl rfl hI.sees
  | setStop h => exact hI.frame rfl rfl rfl rfl rfl fun j => (hI.sees j).of_stop
  | joinSignal h hwake =>
    refine JobsInv.wakes ?_ hwake
    exact hI.frame rfl rfl rfl rfl rfl hI.sees
  | spurious h => exact hI.wakes (.one _ h)

end Pool

end C10K
