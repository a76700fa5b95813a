import C10K.Lib.JobServer
import C10K.Workers.Safety

/-!
# The pool serves first come, first served

A pair counts as submitted when `w_post` pushed its second half, as taken when a worker took its
second half, and as finished when the call of its function returned. Every other step of the pool
is invisible.
-/

namespace C10K

variable {Q W : Type} {n : ℕ} {ι : Type}

namespace WorkerPc

variable [FifoQueue Q W] [LawfulFifoQueue Q W] {s : Pool Q W n ι} {x y : WorkerPc W}

/-- The pair that the worker took and did not finish yet. -/
def inHand (x : WorkerPc W) : Option (Plucked W) := x.held <|> x.job

lemma Reads.inHand_eq (h : x.Reads s y) : y.inHand = x.inHand := by
  rw [inHand, h.held_eq, h.job_eq, inHand]

omit [FifoQueue Q W] [LawfulFifoQueue Q W]

lemma Acquires.inHand_eq (h : x.Acquires) : x.inHand = none := by
  rw [inHand, h.held_eq, h.job_eq]
  rfl

lemma Releases.inHand_eq (h : x.Releases y) : y.inHand = x.inHand := by
  rw [inHand, h.held_eq, h.job_eq, inHand]

lemma Signals.inHand_eq (h : x.Signals y) : y.inHand = x.inHand := by
  rw [inHand, h.held_eq, h.job_eq, inHand]

end WorkerPc

namespace Pool

variable {s s' : Pool Q W n ι} {t t' : JobServer (W × W) (Fin n)} {i : Fin n} {x : WorkerPc W}
variable {p : Plucked W}

/-- The pool stands where the job server stands, and each worker has the pair of its number. -/
structure Serves (s : Pool Q W n ι) (t : JobServer (W × W) (Fin n)) : Prop where
  submitted : t.submitted = s.hist.pushed
  taken : t.taken = s.hist.plucked.length
  inHand : ∀ i, t.inHand i = (s.worker i).inHand.map Plucked.ticket
  finished : t.finished = s.hist.finished
  pair : ∀ i p, (s.worker i).inHand = some p → t.submitted[p.ticket]? = some (p.functionP, p.args)

/-! ### Steps that the job server does not see -/

/-- Nobody pushes, takes or finishes a pair. -/
lemma Serves.stay (h : s.Serves t) (hpushed : s'.hist.pushed = s.hist.pushed)
    (hplucked : s'.hist.plucked = s.hist.plucked) (hfinished : s'.hist.finished = s.hist.finished)
    (hworker : ∀ i, (s'.worker i).inHand = (s.worker i).inHand) : s'.Serves t := by
  constructor
  · rw [hpushed]
    exact h.submitted
  · rw [hplucked]
    exact h.taken
  · intro i
    rw [hworker]
    exact h.inHand i
  · rw [hfinished]
    exact h.finished
  · intro i p hp
    rw [hworker] at hp
    exact h.pair i p hp

lemma inHand_setWorker (hx : x.inHand = (s.worker i).inHand) (j : Fin n) :
    ((s.setWorker i x).worker j).inHand = (s.worker j).inHand := by
  by_cases hj : j = i
  · rw [worker_setWorker, if_pos hj, hx, hj]
  · rw [worker_setWorker, if_neg hj]

/-- A worker moves with what it has in hand. -/
lemma Serves.setWorker (h : s.Serves t) (hx : x.inHand = (s.worker i).inHand) :
    (s.setWorker i x).Serves t := h.stay rfl rfl rfl (inHand_setWorker hx)

lemma Serves.wakes (h : s.Serves t) (hwake : s.Wakes s') : s'.Serves t := by
  cases hwake with
  | nobody => exact h
  | one k hk => exact h.setWorker (by rw [hk]; rfl)

/-! ### Steps that it sees -/

/-- What the job server has in hand, when one worker takes or finishes a pair. -/
lemma inHand_update (h : s.Serves t) (hhand : t'.inHand = Function.update t.inHand i
    (x.inHand.map Plucked.ticket)) (j : Fin n) :
    t'.inHand j = ((s.setWorker i x).worker j).inHand.map Plucked.ticket := by
  rw [hhand, worker_setWorker]
  by_cases hj : j = i
  · rw [hj, Function.update_self, if_pos rfl]
  · rw [Function.update_of_ne hj, if_neg hj, h.inHand]

section Step

variable [FifoQueue Q W] [LawfulFifoQueue Q W]

/-- A worker takes the second half of a pair. -/
lemma Serves.nextArgs (h : s.Serves t) {f a : W} {jobs : Q} (hpc : s.worker i = .nextArgs f)
    (hI' : Inv { s.setWorker i (.unlock ⟨f, a, s.hist.plucked.length⟩) with
      jobs
      hist := { s.hist with plucked := s.hist.plucked ++ [(f, a)] } }) :
    ∃ t', t.take i = some t' ∧
      Serves { s.setWorker i (.unlock ⟨f, a, s.hist.plucked.length⟩) with
        jobs
        hist := { s.hist with plucked := s.hist.plucked ++ [(f, a)] } } t' := by
  have hhand : t.inHand i = none := by
    rw [h.inHand, hpc]
    rfl
  have hpushed : s.hist.pushed[s.hist.plucked.length]? = some (f, a) :=
    hI'.pushed_of_plucked (List.getElem?_concat_length ..)
  have hlt : t.taken < t.submitted.length := by
    rw [h.taken, h.submitted]
    exact (List.getElem?_eq_some_iff.mp hpushed).1
  obtain ⟨t', ht', hsubmitted, htaken, hhand', hfinished⟩ := JobServer.take_spec hhand hlt
  refine ⟨t', ht', hsubmitted.trans h.submitted, ?_, ?_, hfinished.trans h.finished, ?_⟩
  · have hlen : (s.hist.plucked ++ [(f, a)]).length = s.hist.plucked.length + 1 :=
      List.length_append
    rw [htaken, h.taken]
    exact hlen.symm
  · apply inHand_update h
    rw [hhand', h.taken]
    rfl
  · intro j p hp
    rw [hsubmitted]
    have hp : ((s.setWorker i _).worker j).inHand = some p := hp
    rw [worker_setWorker] at hp
    split_ifs at hp
    · cases hp
      rw [h.submitted]
      exact hpushed
    · exact h.pair j p hp

omit [FifoQueue Q W] [LawfulFifoQueue Q W] in
/-- The function of a worker returns. -/
lemma Serves.jobReturn (h : s.Serves t) (hpc : s.worker i = .running p) :
    ∃ t', t.finish i = some t' ∧ Serves { s.setWorker i .testJobs with
      hist := { s.hist with finished := s.hist.finished ++ [p.ticket] } } t' := by
  have hhand : t.inHand i = some p.ticket := by
    rw [h.inHand, hpc]
    rfl
  obtain ⟨t', ht', hsubmitted, htaken, hhand', hfinished⟩ := JobServer.finish_spec hhand
  refine ⟨t', ht', hsubmitted.trans h.submitted, htaken.trans h.taken, inHand_update h hhand',
    ?_, ?_⟩
  · rw [hfinished, h.finished]
  · intro j q hq
    rw [hsubmitted]
    have hq : ((s.setWorker i .testJobs).worker j).inHand = some q := hq
    rw [worker_setWorker] at hq
    split_ifs at hq
    · cases hq
    · exact h.pair j q hq

omit [FifoQueue Q W] [LawfulFifoQueue Q W] in
/-- A pair is pushed. -/
lemma Serves.submit (h : s.Serves t) {job args : W} (hworker : s'.worker = s.worker)
    (hpushed : s'.hist.pushed = s.hist.pushed ++ [(job, args)])
    (hplucked : s'.hist.plucked = s.hist.plucked)
    (hfinished : s'.hist.finished = s.hist.finished) : s'.Serves (t.submit (job, args)) := by
  constructor
  · rw [hpushed, ← h.submitted]
    rfl
  · rw [hplucked]
    exact h.taken
  · rw [hworker]
    exact h.inHand
  · rw [hfinished]
    exact h.finished
  · intro i q hq
    rw [hworker] at hq
    have hold := h.pair i q hq
    exact (List.getElem?_append_left (List.getElem?_eq_some_iff.mp hold).1).trans hold

variable [DecidableEq ι] {a : PoolAct W n ι}

/-- The job server follows every step of the pool. -/
theorem Serves.step (h : s.Serves t) (hI : Inv s) (hstep : s.step a = some s') :
    s'.Serves t ∨ ∃ b t', t.step b = some t' ∧ s'.Serves t' := by
  have hI' := hI.step hstep
  cases PoolRule.of_step hstep with
  | @read i x y hpc hr =>
    exact .inl (h.setWorker (by rw [hr.inHand_eq, hpc]))
  | @acquire i x hpc hx =>
    have hmid := h.setWorker (i := i) (x := .waitJobs) (by rw [hpc, hx.inHand_eq]; rfl)
    exact .inl (hmid.stay rfl rfl rfl fun _ => rfl)
  | @release i x y hpc hx =>
    have hmid := h.setWorker (i := i) (x := y) (by rw [hx.inHand_eq, hpc])
    exact .inl (hmid.stay rfl rfl rfl fun _ => rfl)
  | @nextFunction i f jobs hpc =>
    have hmid := h.setWorker (i := i) (x := .nextArgs f) (by rw [hpc]; rfl)
    exact .inl (hmid.stay rfl rfl rfl fun _ => rfl)
  | @nextArgs i f a jobs hpc =>
    obtain ⟨t', ht', hserves⟩ := h.nextArgs hpc hI'
    exact .inr ⟨.take i, t', ht', hserves⟩
  | @signal i x y _ _ hpc hx hwake =>
    exact .inl ((h.setWorker (by rw [hx.inHand_eq, hpc])).wakes hwake)
  | @call i p hpc =>
    have hmid := h.setWorker (i := i) (x := .running p) (by rw [hpc]; rfl)
    exact .inl (hmid.stay rfl rfl rfl fun _ => rfl)
  | @jobReturn i p hpc =>
    obtain ⟨t', ht', hserves⟩ := h.jobReturn hpc
    exact .inr ⟨.finish i, t', ht', hserves⟩
  | @pushArgs _ job args =>
    exact .inr ⟨.submit (job, args), _, rfl, h.submit rfl rfl rfl rfl⟩
  | postSignal _ hwake | joinSignal _ hwake =>
    refine .inl (Serves.wakes ?_ hwake)
    exact h.stay rfl rfl rfl fun _ => rfl
  | spurious hpc => exact .inl (h.wakes (.one _ hpc))
  | _ => exact .inl (h.stay rfl rfl rfl fun _ => rfl)

end Step

end Pool

/-- Under every schedule the pool is a server of first come, first served: every run of it is one of
the job server, which submits the pairs in the order of `w_post` and takes them in that order. So no
two workers have the same pair in hand, no call returns twice, and no pair that a worker has in hand
was finished before. -/
theorem pool_serves_in_order [FifoQueue Q W] [LawfulFifoQueue Q W] [DecidableEq ι]
    {s : Pool Q W n ι} (h : (poolSystem Q W n ι).Reachable s) :
    (∃ t : JobServer (W × W) (Fin n), (jobSystem (W × W) (Fin n)).Reachable t ∧ s.Serves t) ∧
      (∀ i j p q, (s.worker i).inHand = some p → (s.worker j).inHand = some q →
        p.ticket = q.ticket → i = j) ∧
      s.hist.finished.Nodup ∧
      ∀ i p, (s.worker i).inHand = some p → p.ticket ∉ s.hist.finished := by
  have hserved : ∃ t, (jobSystem (W × W) (Fin n)).Reachable t ∧ s.Inv ∧ s.Serves t := by
    apply h.simulated (R := fun s t => s.Inv ∧ s.Serves t)
    · rintro s rfl
      exact ⟨.initial, rfl, Pool.Inv.initial, rfl, rfl, fun _ => rfl, rfl, nofun⟩
    · rintro s a s' t ⟨hI, hserves⟩ hstep
      have hI' := hI.step hstep
      rcases hserves.step hI hstep with hstay | ⟨b, t', ht', hfollow⟩
      · exact .inl ⟨hI', hstay⟩
      · exact .inr ⟨b, t', ht', hI', hfollow⟩
  obtain ⟨t, ht, -, hserves⟩ := hserved
  have hhand : ∀ i p, (s.worker i).inHand = some p → t.inHand i = some p.ticket := by
    intro i p hp
    rw [hserves.inHand, hp]
    rfl
  refine ⟨⟨t, ht, hserves⟩, ?_, ?_, ?_⟩
  · intro i j p q hp hq heq
    exact t.inHand_unique (hhand i p hp) (heq ▸ hhand j q hq)
  · rw [← hserves.finished]
    exact t.finished_nodup
  · intro i p hp
    rw [← hserves.finished]
    exact t.not_finished_of_inHand (hhand i p hp)

/-- The worker runs the first of two pairs. -/
theorem pool_serves_in_order_two : ∃ s : Pool (RingQueue ℕ) ℕ 1 Unit,
    s.worker 0 = .running ⟨7, 8, 0⟩ ∧ s.hist.pushed = [(7, 8), (9, 10)] ∧
      ∃ t : JobServer (ℕ × ℕ) (Fin 1), (jobSystem (ℕ × ℕ) (Fin 1)).Reachable t ∧ s.Serves t := by
  let post (job args : ℕ) : List (PoolAct ℕ 1 Unit) :=
    [.callPost (.client ()) job args, .post (.client ()), .post (.client ()), .post (.client ()),
      .post (.client ()), .postSignal (.client ()) none]
  let acts : List (PoolAct ℕ 1 Unit) := post 7 8 ++ post 9 10 ++
    [.work 0, .work 0, .work 0, .work 0, .work 0, .work 0, .work 0, .workSignal 0 none, .work 0]
  have hrun : ((poolSystem (RingQueue ℕ) ℕ 1 Unit).exec Pool.initial acts).any
      (fun s => s.worker 0 = .running ⟨7, 8, 0⟩ ∧ s.hist.pushed = [(7, 8), (9, 10)]) = true := by
    decide +kernel
  obtain ⟨s, hs, hval⟩ := (Option.any_eq_true ..).mp hrun
  obtain ⟨hworker, hpushed⟩ := of_decide_eq_true hval
  exact ⟨s, hworker, hpushed, (pool_serves_in_order ⟨_, acts, rfl, LTS.run_of_exec hs⟩).1⟩

end C10K
