import C10K.Workers.Jobs

/-!
# Where each pair is

A pair that was taken from the queue is in the hands of one worker until it is called, and a pair
that was called is run by one worker until it returns. Together with the lock, the queue and the
progress of `w_join` this is the invariant `Pool.Inv` of every reachable state.
-/

namespace C10K

open LawfulFifoQueue (contents)

variable {Q W : Type} {n : ℕ} {ι : Type}

/-- What the place of the joining thread says. -/
def JoinPc.Sees (stop : Bool) (exited : Fin n → Prop) : JoinPc → Prop
  | .notCalled | .test | .setStop => stop = false
  | .signal => stop = true
  | .joining k => stop = true ∧ ∀ i : Fin n, i < k → exited i
  | .returned => stop = true ∧ ∀ i, exited i

namespace Pool

/-! ### Pairs in the hands of workers -/

/-- The number of the pair that each worker took and did not call yet. -/
def heldTicket (s : Pool Q W n ι) : Fin n → Option ℕ :=
  fun i => (s.worker i).held.map Plucked.ticket

/-- The number of the pair that each worker runs. -/
def jobTicket (s : Pool Q W n ι) : Fin n → Option ℕ := fun i => (s.worker i).job.map Plucked.ticket

/-- Every pair that was taken is held by one worker or was called once, every pair that was called
is run by one worker or returned once, and each is the pair of its number. -/
structure TicketInv (s : Pool Q W n ι) : Prop where
  plucked_eq : Multiset.range s.hist.plucked.length =
    Hands.held s.heldTicket + (s.hist.called.map Plucked.ticket : Multiset ℕ)
  called_eq : (s.hist.called.map Plucked.ticket : Multiset ℕ) =
    Hands.held s.jobTicket + (s.hist.finished : Multiset ℕ)
  held_pair : ∀ i p, (s.worker i).held = some p →
    s.hist.plucked[p.ticket]? = some (p.functionP, p.args)
  called_pair : ∀ p ∈ s.hist.called, s.hist.plucked[p.ticket]? = some (p.functionP, p.args)
  job_called : ∀ i p, (s.worker i).job = some p → p ∈ s.hist.called

variable {s s' : Pool Q W n ι} {i : Fin n} {t : Tid n ι} {x : WorkerPc W} {p : Plucked W}

lemma heldTicket_setWorker : (s.setWorker i x).heldTicket =
    Function.update s.heldTicket i (x.held.map Plucked.ticket) := by
  funext j
  by_cases hj : j = i
  · subst hj
    simp [heldTicket]
  · simp [heldTicket, hj]

lemma jobTicket_setWorker : (s.setWorker i x).jobTicket =
    Function.update s.jobTicket i (x.job.map Plucked.ticket) := by
  funext j
  by_cases hj : j = i
  · subst hj
    simp [jobTicket]
  · simp [jobTicket, hj]

/-- A worker moves with what it has in hand. -/
lemma TicketInv.setWorker (hI : TicketInv s) (hheld : x.held = (s.worker i).held)
    (hjob : x.job = (s.worker i).job) : TicketInv (s.setWorker i x) := by
  have hheld' : (s.setWorker i x).heldTicket = s.heldTicket := by
    rw [heldTicket_setWorker, hheld]
    exact Function.update_eq_self i s.heldTicket
  have hjob' : (s.setWorker i x).jobTicket = s.jobTicket := by
    rw [jobTicket_setWorker, hjob]
    exact Function.update_eq_self i s.jobTicket
  refine ⟨hheld' ▸ hI.plucked_eq, hjob' ▸ hI.called_eq, fun j p hp => ?_, hI.called_pair,
    fun j p hp => ?_⟩
  · by_cases hj : j = i
    · subst hj
      exact hI.held_pair j p (by simpa [hheld] using hp)
    · exact hI.held_pair j p (by simpa [hj] using hp)
  · by_cases hj : j = i
    · subst hj
      exact hI.job_called j p (by simpa [hjob] using hp)
    · exact hI.job_called j p (by simpa [hj] using hp)

lemma TicketInv.wakes (hI : TicketInv s) (h : s.Wakes s') : TicketInv s' := by
  cases h with
  | nobody => exact hI
  | one k hk => exact hI.setWorker (by rw [hk]; rfl) (by rw [hk]; rfl)

/-- Nothing but the places of the workers and the lists of taken, called and finished pairs
counts. -/
lemma TicketInv.frame (hI : TicketInv s) (hworker : s'.worker = s.worker)
    (hplucked : s'.hist.plucked = s.hist.plucked) (hcalled : s'.hist.called = s.hist.called)
    (hfinished : s'.hist.finished = s.hist.finished) : TicketInv s' := by
  have hheld : s'.heldTicket = s.heldTicket := by
    unfold heldTicket
    rw [hworker]
  have hjob : s'.jobTicket = s.jobTicket := by
    unfold jobTicket
    rw [hworker]
  obtain ⟨h₁, h₂, h₃, h₄, h₅⟩ := hI
  constructor
  · rw [hplucked, hheld, hcalled, h₁]
  · rw [hcalled, hjob, hfinished, h₂]
  · rw [hworker, hplucked]
    exact h₃
  · rw [hcalled, hplucked]
    exact h₄
  · rw [hworker, hcalled]
    exact h₅

/-- A worker takes the next pair. -/
lemma TicketInv.pluck (hI : TicketInv s) {f a : W} (hheld : (s.worker i).held = none)
    (hjob : (s.worker i).job = none) (hx : x.held = some ⟨f, a, s.hist.plucked.length⟩)
    (hx' : x.job = none) {jobs : Q} :
    TicketInv { s.setWorker i x with
      jobs
      hist := { s.hist with plucked := s.hist.plucked ++ [(f, a)] } } := by
  have hjob' : (s.setWorker i x).jobTicket = s.jobTicket := by
    rw [jobTicket_setWorker, hx', ← hjob]
    exact Function.update_eq_self i s.jobTicket
  have hheld' : Hands.held (s.setWorker i x).heldTicket =
      s.hist.plucked.length ::ₘ Hands.held s.heldTicket := by
    rw [heldTicket_setWorker, hx]
    exact Hands.held_take (by simp [heldTicket, hheld])
  have hold : ∀ q : Plucked W, s.hist.plucked[q.ticket]? = some (q.functionP, q.args) →
      (s.hist.plucked ++ [(f, a)])[q.ticket]? = some (q.functionP, q.args) := by
    intro q hq
    rw [List.getElem?_append_left (List.getElem?_eq_some_iff.mp hq).1, hq]
  refine ⟨?_, ?_, fun j q hq => ?_, fun q hq => hold q (hI.called_pair q hq), fun j q hq => ?_⟩
  · calc Multiset.range (s.hist.plucked ++ [(f, a)]).length
        = s.hist.plucked.length ::ₘ Multiset.range s.hist.plucked.length := by
          simp [Multiset.range_succ]
      _ = Hands.held (s.setWorker i x).heldTicket +
          (s.hist.called.map Plucked.ticket : Multiset ℕ) := by
        rw [hheld', hI.plucked_eq, Multiset.cons_add]
  · exact hI.called_eq.trans (congrArg (Hands.held · + _) hjob'.symm)
  · by_cases hj : j = i
    · subst hj
      have hq' : q = ⟨f, a, s.hist.plucked.length⟩ := by simpa [hx, eq_comm] using hq
      simp [hq']
    · exact hold q (hI.held_pair j q (by simpa [hj] using hq))
  · by_cases hj : j = i
    · subst hj
      simp [hx'] at hq
    · exact hI.job_called j q (by simpa [hj] using hq)

/-- A worker calls the pair that it holds. -/
lemma TicketInv.call (hI : TicketInv s) (h : s.worker i = .call p) :
    TicketInv { s.setWorker i (.running p) with
      hist := { s.hist with called := s.hist.called ++ [p] } } := by
  have hheld : s.heldTicket i = some p.ticket := by simp [heldTicket, h, WorkerPc.held]
  have hjob : s.jobTicket i = none := by simp [jobTicket, h, WorkerPc.job]
  have hheld' : p.ticket ::ₘ Hands.held (s.setWorker i (.running p)).heldTicket =
      Hands.held s.heldTicket := by
    rw [heldTicket_setWorker]
    exact Hands.held_drop hheld
  have hjob' : Hands.held (s.setWorker i (.running p)).jobTicket =
      p.ticket ::ₘ Hands.held s.jobTicket := by
    rw [jobTicket_setWorker]
    exact Hands.held_take hjob
  have hcalled : (((s.hist.called ++ [p]).map Plucked.ticket : List ℕ) : Multiset ℕ) =
      p.ticket ::ₘ (s.hist.called.map Plucked.ticket : Multiset ℕ) := by
    rw [List.map_append, List.map_singleton, Hands.coe_concat]
  have hpair := hI.held_pair i p (by rw [h]; rfl)
  refine ⟨?_, ?_, fun j q hq => ?_, fun q hq => ?_, fun j q hq => ?_⟩
  · refine hI.plucked_eq.trans ?_
    rw [hcalled, ← hheld', Multiset.cons_add, Multiset.add_cons]
    rfl
  · refine hcalled.trans ?_
    rw [hI.called_eq]
    exact (Multiset.cons_add ..).symm.trans (congrArg (· + _) hjob'.symm)
  · by_cases hj : j = i
    · subst hj
      simp [WorkerPc.held] at hq
    · exact hI.held_pair j q (by simpa [hj] using hq)
  · rcases List.mem_append.mp hq with hq | hq
    · exact hI.called_pair q hq
    · rw [List.mem_singleton.mp hq]
      exact hpair
  · by_cases hj : j = i
    · subst hj
      obtain rfl : p = q := by simpa [WorkerPc.job] using hq
      exact List.mem_append_right _ List.mem_cons_self
    · exact List.mem_append_left _ (hI.job_called j q (by simpa [hj] using hq))

/-- The pair that a worker runs returns. -/
lemma TicketInv.jobReturn (hI : TicketInv s) (h : s.worker i = .running p) :
    TicketInv { s.setWorker i .testJobs with
      hist := { s.hist with finished := s.hist.finished ++ [p.ticket] } } := by
  have hheld : (s.setWorker i .testJobs).heldTicket = s.heldTicket := by
    have hnone : none = s.heldTicket i := by simp [heldTicket, h, WorkerPc.held]
    rw [heldTicket_setWorker]
    exact (congrArg (Function.update s.heldTicket i) hnone).trans (Function.update_eq_self i _)
  have hjob : p.ticket ::ₘ Hands.held (s.setWorker i .testJobs).jobTicket =
      Hands.held s.jobTicket := by
    rw [jobTicket_setWorker]
    exact Hands.held_drop (by simp [jobTicket, h, WorkerPc.job])
  refine ⟨?_, ?_, fun j q hq => ?_, hI.called_pair, fun j q hq => ?_⟩
  · exact hI.plucked_eq.trans (congrArg (Hands.held · + _) hheld.symm)
  · have hfinished : ((s.hist.finished ++ [p.ticket] : List ℕ) : Multiset ℕ) =
        p.ticket ::ₘ (s.hist.finished : Multiset ℕ) := Hands.coe_concat ..
    refine hI.called_eq.trans ?_
    rw [← hjob, hfinished, Multiset.cons_add, Multiset.add_cons]
    rfl
  · by_cases hj : j = i
    · subst hj
      simp [WorkerPc.held] at hq
    · exact hI.held_pair j q (by simpa [hj] using hq)
  · by_cases hj : j = i
    · subst hj
      simp [WorkerPc.job] at hq
    · exact hI.job_called j q (by simpa [hj] using hq)

section Step

variable [FifoQueue Q W] [LawfulFifoQueue Q W] [DecidableEq ι] {a : PoolAct W n ι}

theorem TicketInv.step (hI : TicketInv s) (hstep : s.step a = some s') : TicketInv s' := by
  cases PoolRule.of_step hstep with
  | read h hr =>
    subst h
    exact hI.setWorker hr.held_eq hr.job_eq
  | acquire h hx =>
    subst h
    have hmid := hI.setWorker (x := .waitJobs) hx.held_eq.symm hx.job_eq.symm
    exact hmid.frame rfl rfl rfl rfl
  | release h hx =>
    subst h
    exact (hI.setWorker hx.held_eq hx.job_eq).frame rfl rfl rfl rfl
  | nextFunction h => exact (hI.setWorker (by rw [h]; rfl) (by rw [h]; rfl)).frame rfl rfl rfl rfl
  | nextArgs h => exact hI.pluck (by rw [h]; rfl) (by rw [h]; rfl) rfl rfl
  | signal h hx hwake =>
    subst h
    exact (hI.setWorker hx.held_eq hx.job_eq).wakes hwake
  | call h => exact hI.call h
  | jobReturn h => exact hI.jobReturn h
  | postSignal h hwake | joinSignal h hwake =>
    refine TicketInv.wakes ?_ hwake
    exact hI.frame rfl rfl rfl rfl
  | spurious h => exact hI.wakes (.one _ h)
  | _ => exact hI.frame rfl rfl rfl rfl

end Step

/-! ### Pairs that were posted -/

/-- A number that was posted is the number of a pushed pair. -/
structure PostedInv (s : Pool Q W n ι) : Prop where
  posted_lt : ∀ k ∈ s.hist.posted, k < s.hist.pushed.length
  due_lt : ∀ k ∈ s.hist.due, k < s.hist.pushed.length
  post_lt : ∀ t y, s.post t = some y → ∀ k ∈ y.ticket, k < s.hist.pushed.length

lemma PostedInv.wakes (hI : PostedInv s) (h : s.Wakes s') : PostedInv s' := by
  cases h <;> exact ⟨hI.posted_lt, hI.due_lt, hI.post_lt⟩

section Step

variable [DecidableEq ι] {z : Option (PostPc W)}

/-- A call of `w_post` moves with the number of its pair. -/
lemma PostedInv.setPost (hI : PostedInv s)
    (hz : ∀ y ∈ z, ∀ k ∈ y.ticket, k < s.hist.pushed.length) :
    PostedInv (s.setPost t z) := by
  refine ⟨hI.posted_lt, hI.due_lt, fun u y hy => ?_⟩
  by_cases hu : u = t
  · exact hz y (by simpa [hu] using hy)
  · exact hI.post_lt u y (by simpa [hu] using hy)

variable [FifoQueue Q W] [LawfulFifoQueue Q W] {a : PoolAct W n ι}

theorem PostedInv.step (hI : PostedInv s) (hstep : s.step a = some s') : PostedInv s' := by
  cases PoolRule.of_step hstep with
  | callPost => exact hI.setPost (by simp [PostPc.ticket])
  | @postAcquire t job args =>
    have hmid := hI.setPost (t := t) (z := some (.pushJob job args)) (by simp [PostPc.ticket])
    exact ⟨hmid.posted_lt, hmid.due_lt, hmid.post_lt⟩
  | @pushJob t job args =>
    have hmid := hI.setPost (t := t) (z := some (.pushArgs job args)) (by simp [PostPc.ticket])
    exact ⟨hmid.posted_lt, hmid.due_lt, hmid.post_lt⟩
  | @pushArgs t job args jobs h hpush =>
    have hlt : ∀ k, k < s.hist.pushed.length → k < (s.hist.pushed ++ [(job, args)]).length := by
      intro k hk
      rw [List.length_append]
      exact Nat.lt_add_right _ hk
    refine ⟨fun k hk => hlt k (hI.posted_lt k hk), fun k hk => hlt k (hI.due_lt k hk),
      fun u y hy k hk => ?_⟩
    by_cases hu : u = t
    · obtain rfl : y = .unlock s.hist.pushed.length := by simpa [hu, eq_comm] using hy
      obtain rfl : s.hist.pushed.length = k := by simpa [PostPc.ticket] using hk
      simp
    · exact hlt k (hI.post_lt u y (by simpa [hu] using hy) k hk)
  | @postRelease t k h =>
    have hmid := hI.setPost (t := t) (z := some (.signal k)) fun y hy k hk => by
      cases hy
      exact hI.post_lt t _ h k hk
    exact ⟨hmid.posted_lt, hmid.due_lt, hmid.post_lt⟩
  | @postSignal t k _ _ h hwake =>
    have hmid := hI.setPost (t := t) (z := none) fun y hy => by cases hy
    refine PostedInv.wakes ?_ hwake
    refine ⟨fun l hl => ?_, hmid.due_lt, hmid.post_lt⟩
    rcases List.mem_append.mp hl with hl | hl
    · exact hI.posted_lt l hl
    · rw [List.mem_singleton.mp hl]
      exact hI.post_lt t _ h k rfl
  | callJoin => exact ⟨hI.posted_lt, hI.posted_lt, hI.post_lt⟩
  | joinSignal h hwake | signal h hx hwake =>
    refine PostedInv.wakes ?_ hwake
    exact ⟨hI.posted_lt, hI.due_lt, hI.post_lt⟩
  | _ => exact ⟨hI.posted_lt, hI.due_lt, hI.post_lt⟩

end Step

/-! ### The joining thread -/

/-- The flag is set from the assignment of `w_join` on, and the workers that were joined are
gone. -/
def JoinInv (s : Pool Q W n ι) : Prop := s.join.Sees s.stop fun i => s.worker i = .exited

lemma JoinInv.frame (hI : JoinInv s) (hjoin : s'.join = s.join) (hstop : s'.stop = s.stop)
    (hexited : ∀ i, s.worker i = .exited → s'.worker i = .exited) : JoinInv s' := by
  unfold JoinInv at hI ⊢
  rw [hjoin, hstop]
  revert hI
  cases s.join with
  | joining k => exact fun hI => ⟨hI.1, fun i hi => hexited i (hI.2 i hi)⟩
  | returned => exact fun hI => ⟨hI.1, fun i => hexited i (hI.2 i)⟩
  | _ => exact id

/-- A worker that did not leave moves. -/
lemma JoinInv.setWorker (hI : JoinInv s) (h : s.worker i ≠ .exited) :
    JoinInv (s.setWorker i x) := by
  refine hI.frame rfl rfl fun j hj => ?_
  have hji : j ≠ i := fun heq => h (heq ▸ hj)
  simpa [hji] using hj

lemma JoinInv.wakes (hI : JoinInv s) (h : s.Wakes s') : JoinInv s' := by
  cases h with
  | nobody => exact hI
  | one k hk => exact hI.setWorker (by simp [hk])

section Step

variable [FifoQueue Q W] [LawfulFifoQueue Q W] [DecidableEq ι] {a : PoolAct W n ι}

theorem JoinInv.step (hI : JoinInv s) (hstep : s.step a = some s') : JoinInv s' := by
  cases PoolRule.of_step hstep with
  | read h hr =>
    subst h
    exact hI.setWorker fun h => by cases h ▸ hr
  | acquire h hx =>
    subst h
    have hmid : JoinInv (s.setWorker _ .waitJobs) := hI.setWorker fun h => by cases h ▸ hx
    exact hmid.frame rfl rfl fun _ => id
  | @release i x y h hx =>
    subst h
    have hmid : JoinInv (s.setWorker i y) := hI.setWorker fun h => by cases h ▸ hx
    exact hmid.frame rfl rfl fun _ => id
  | nextFunction h | nextArgs h | call h | jobReturn h =>
    exact (hI.setWorker (by simp [h])).frame rfl rfl fun _ => id
  | signal h hx hwake =>
    subst h
    exact (hI.setWorker fun h => by cases h ▸ hx).wakes hwake
  | postSignal h hwake =>
    refine JoinInv.wakes ?_ hwake
    exact hI.frame rfl rfl fun _ => id
  | callJoin h | joinTestUnset h => simpa [JoinInv, h, JoinPc.Sees] using hI
  | joinTestSet h hstop =>
    simp [JoinInv, h, JoinPc.Sees, hstop] at hI
  | setStop => rfl
  | joinSignal h hwake =>
    refine JoinInv.wakes ?_ hwake
    refine ⟨?_, fun i hi => absurd hi (Nat.not_lt_zero _)⟩
    simpa [JoinInv, h, JoinPc.Sees] using hI
  | @joinOne k h hexit =>
    simp only [JoinInv, h, JoinPc.Sees] at hI
    refine ⟨hI.1, fun i hi => ?_⟩
    rcases Nat.lt_succ_iff_lt_or_eq.mp hi with hlt | heq
    · exact hI.2 i hlt
    · rwa [Fin.ext heq]
  | joinAll h hk =>
    simp only [JoinInv, h, JoinPc.Sees] at hI
    exact ⟨hI.1, fun i => hI.2 i (i.isLt.trans_le hk)⟩
  | spurious h => exact hI.wakes (.one _ h)
  | _ => exact hI.frame rfl rfl fun _ => id

end Step

/-! ### The invariant of the pool -/

/-- What holds in every reachable state. -/
structure Inv [FifoQueue Q W] [LawfulFifoQueue Q W] (s : Pool Q W n ι) : Prop where
  lock : LockInv s
  jobs : JobsInv s
  tickets : TicketInv s
  posted : PostedInv s
  join : JoinInv s

section Reachable

variable [FifoQueue Q W] [LawfulFifoQueue Q W] [DecidableEq ι] {a : PoolAct W n ι}

omit [DecidableEq ι] in
theorem Inv.initial : Inv (Pool.initial : Pool Q W n ι) where
  lock := by
    refine ⟨fun t => ?_, fun i hi => absurd rfl hi⟩
    cases t <;> simp [inLock, workerOf, Pool.initial, WorkerPc.inLock]
  jobs := by
    refine ⟨⟨[], rfl, ?_⟩, fun i => trivial⟩
    simp [midTaken, midPut, Pool.initial, LawfulFifoQueue.contents_create, entries]
  tickets := by
    have hheld : (Pool.initial : Pool Q W n ι).heldTicket = fun _ => none := rfl
    have hjob : (Pool.initial : Pool Q W n ι).jobTicket = fun _ => none := rfl
    refine ⟨?_, ?_, fun i p hp => (by cases hp), fun p hp => (by cases hp),
      fun i p hp => (by cases hp)⟩
    · rw [hheld, Hands.held_eq_zero fun _ => rfl]
      rfl
    · rw [hjob, Hands.held_eq_zero fun _ => rfl]
      rfl
  posted := ⟨fun k hk => (by cases hk), fun k hk => (by cases hk), fun t y hy => (by cases hy)⟩
  join := rfl

theorem Inv.step (hI : Inv s) (hstep : s.step a = some s') : Inv s' where
  lock := hI.lock.step hstep
  jobs := hI.jobs.step hI.lock hstep
  tickets := hI.tickets.step hstep
  posted := hI.posted.step hstep
  join := hI.join.step hstep

/-- Every reachable state of the pool satisfies the invariant. -/
theorem Inv.of_reachable (h : (poolSystem Q W n ι).Reachable s) : Inv s :=
  h.invariant (fun _ h₀ => h₀ ▸ Inv.initial) fun _ _ _ hI hstep => hI.step hstep

end Reachable

end Pool

end C10K
