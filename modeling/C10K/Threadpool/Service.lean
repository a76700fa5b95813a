import C10K.Lib.JobServer
import C10K.Threadpool.Invariants

/-!
# The thread pool serves first come, first served

A function counts as submitted when `post` pushed it, as taken when a thread popped it, and as
finished when it returned. Every other step of the pool is invisible.
-/

namespace C10K

variable {F : Type} {n : ℕ}

namespace ProcessPlace

variable {s : Threadpool F n} {x y : ProcessPlace F}

/-- The function that the thread took and that did not return yet. -/
def inHand : ProcessPlace F → Option (Posted F)
  | .notify p | .call p | .running p => some p
  | .testJobs | .testStop | .lock | .wait | .blocked | .woken | .leave | .exited => none

lemma Moves.inHand_eq (h : x.Moves s y) : x.inHand = none ∧ y.inHand = none := by
  cases h with
  | _ => exact ⟨rfl, rfl⟩

lemma Enters.inHand_eq (h : x.Enters) : x.inHand = none := by
  cases h with
  | _ => rfl

lemma Notifies.inHand_eq (h : x.Notifies y) : y.inHand = x.inHand := by
  cases h with
  | _ => rfl

end ProcessPlace

namespace Threadpool

variable {s s' : Threadpool F n} {t t' : JobServer F (Fin n)} {i : Fin n} {x : ProcessPlace F}
variable {p : Posted F}

/-- The pool stands where the job server stands: the functions that were not taken are queued under
their numbers, and each thread has the function of its number. -/
structure Serves (s : Threadpool F n) (t : JobServer F (Fin n)) : Prop where
  submitted : t.submitted = s.posted
  queued : s.jobs.map Posted.ticket = List.range' t.taken s.jobs.length
  taken : t.taken + s.jobs.length = s.posted.length
  inHand : ∀ i, t.inHand i = (s.thread i).inHand.map Posted.ticket
  function : ∀ p, p ∈ s.jobs ∨ (∃ i, (s.thread i).inHand = some p) →
    s.posted[p.ticket]? = some p.functionP

/-! ### Steps that the job server does not see -/

/-- Nobody posts, takes or finishes a function. -/
lemma Serves.stay (h : s.Serves t) (hposted : s'.posted = s.posted) (hjobs : s'.jobs = s.jobs)
    (hthread : ∀ i, (s'.thread i).inHand = (s.thread i).inHand) : s'.Serves t := by
  constructor
  · rw [hposted]
    exact h.submitted
  · rw [hjobs]
    exact h.queued
  · rw [hjobs, hposted]
    exact h.taken
  · intro i
    rw [hthread]
    exact h.inHand i
  · intro p hp
    rw [hposted]
    refine h.function p (hp.imp (hjobs ▸ ·) ?_)
    rintro ⟨i, hi⟩
    exact ⟨i, (hthread i).symm.trans hi⟩

lemma inHand_setThread (hx : x.inHand = (s.thread i).inHand) (j : Fin n) :
    ((s.setThread i x).thread j).inHand = (s.thread j).inHand := by
  by_cases hj : j = i
  · rw [thread_setThread, if_pos hj, hx, hj]
  · rw [thread_setThread, if_neg hj]

/-- A thread moves with what it has in hand. -/
lemma Serves.setThread (h : s.Serves t) (hx : x.inHand = (s.thread i).inHand) :
    (s.setThread i x).Serves t := h.stay rfl rfl (inHand_setThread hx)

lemma Serves.wakes (h : s.Serves t) (hwake : s.Wakes s') : s'.Serves t := by
  cases hwake with
  | nobody => exact h
  | one k hk => exact h.setThread (by rw [hk]; rfl)

/-! ### Steps that it sees -/

/-- What the job server has in hand, when one thread takes or finishes a function. -/
lemma inHand_update (h : s.Serves t) (hhand : t'.inHand = Function.update t.inHand i
    (x.inHand.map Posted.ticket)) (j : Fin n) :
    t'.inHand j = ((s.setThread i x).thread j).inHand.map Posted.ticket := by
  rw [hhand, thread_setThread]
  by_cases hj : j = i
  · rw [hj, Function.update_self, if_pos rfl]
  · rw [Function.update_of_ne hj, if_neg hj, h.inHand]

/-- A thread takes the oldest function. -/
lemma Serves.take (h : s.Serves t) {jobs : List (Posted F)} (hhand : (s.thread i).inHand = none)
    (hjobs : s.jobs = p :: jobs) :
    ∃ t', t.take i = some t' ∧ Serves { s.setThread i (.notify p) with jobs } t' := by
  have hnone : t.inHand i = none := by
    rw [h.inHand, hhand]
    rfl
  have hlen : s.jobs.length = jobs.length + 1 := congrArg List.length hjobs
  have hqueued := h.queued
  rw [hlen, hjobs, List.map_cons, List.range'_succ, List.cons.injEq] at hqueued
  obtain ⟨hticket, hrest⟩ := hqueued
  have htotal := h.taken
  have hlt : t.taken < t.submitted.length := by
    rw [h.submitted]
    omega
  obtain ⟨t', ht', hsubmitted, htaken, hhand', -⟩ := JobServer.take_spec hnone hlt
  refine ⟨t', ht', hsubmitted.trans h.submitted, ?_, ?_, ?_, ?_⟩
  · rw [htaken]
    exact hrest
  · rw [htaken]
    simp only [posted_setThread]
    omega
  · apply inHand_update h
    rw [hhand', ← hticket]
    rfl
  · intro q hq
    apply h.function
    rcases hq with hq | ⟨j, hj⟩
    · exact .inl (hjobs ▸ List.mem_cons_of_mem p hq)
    · have hj : ((s.setThread i (.notify p)).thread j).inHand = some q := hj
      rw [thread_setThread] at hj
      split_ifs at hj
      · cases hj
        exact .inl (hjobs ▸ List.mem_cons_self)
      · exact .inr ⟨j, hj⟩

/-- The function of a thread returns. -/
lemma Serves.functionReturn (h : s.Serves t) (hplace : s.thread i = .running p) :
    ∃ t', t.finish i = some t' ∧ (s.setThread i .testJobs).Serves t' := by
  have hhand : t.inHand i = some p.ticket := by
    rw [h.inHand, hplace]
    rfl
  obtain ⟨t', ht', hsubmitted, htaken, hhand', -⟩ := JobServer.finish_spec hhand
  refine ⟨t', ht', hsubmitted.trans h.submitted, ?_, ?_, inHand_update h hhand', ?_⟩
  · rw [htaken]
    exact h.queued
  · rw [htaken]
    exact h.taken
  · intro q hq
    apply h.function
    refine hq.imp id ?_
    rintro ⟨j, hj⟩
    rw [thread_setThread] at hj
    split_ifs at hj
    · cases hj
    · exact ⟨j, hj⟩

/-- A function is posted. -/
lemma Serves.push (h : s.Serves t) (functionP : F) :
    (s.push functionP).Serves (t.submit functionP) := by
  have hlen : (s.jobs ++ [(⟨functionP, s.posted.length⟩ : Posted F)]).length =
      s.jobs.length + 1 := List.length_append
  have htotal := h.taken
  constructor
  · exact congrArg (· ++ [functionP]) h.submitted
  · have hlast : s.posted.length = t.taken + 1 * s.jobs.length := by omega
    simp only [Threadpool.push, JobServer.submit]
    rw [hlen, List.range'_concat, List.map_append, h.queued, ← hlast]
    rfl
  · have hposted : (s.posted ++ [functionP]).length = s.posted.length + 1 := List.length_append
    simp only [Threadpool.push, JobServer.submit, hlen, hposted]
    omega
  · exact h.inHand
  · have hold : ∀ {k : ℕ} {f : F}, s.posted[k]? = some f →
        (s.posted ++ [functionP])[k]? = some f := by
      intro k f hk
      rw [List.getElem?_append_left (List.getElem?_eq_some_iff.mp hk).1, hk]
    rintro q (hq | hq)
    · rcases List.mem_append.mp hq with hq | hq
      · exact hold (h.function q (.inl hq))
      · rw [List.mem_singleton.mp hq]
        exact List.getElem?_concat_length
    · exact hold (h.function q (.inr hq))

/-- What is queued are the functions that were posted last, in the order in which they came. -/
lemma Serves.jobs_eq (h : s.Serves t) :
    s.jobs.map Posted.functionP = s.posted.drop (s.posted.length - s.jobs.length) := by
  have htotal := h.taken
  have hdrop : s.posted.length - s.jobs.length = t.taken := by omega
  rw [hdrop]
  apply List.ext_getElem
  · rw [List.length_map, List.length_drop]
    omega
  · intro k hk hk'
    rw [List.length_map] at hk
    have hticket : s.jobs[k].ticket = t.taken + k := by
      have hget := congrArg (fun l => l[k]?) h.queued
      rw [List.getElem?_map, List.getElem?_eq_getElem hk, List.getElem?_range' hk,
        Nat.one_mul] at hget
      exact Option.some_inj.mp hget
    have hfunction := h.function s.jobs[k] (.inl (List.getElem_mem hk))
    rw [hticket] at hfunction
    rw [List.getElem_map, List.getElem_drop]
    exact ((List.getElem?_eq_some_iff.mp hfunction).2).symm

section Step

variable [DecidableEq F] {a : ThreadpoolAct F n}

/-- The job server follows every step of the pool. -/
theorem Serves.step (h : s.Serves t) (hstep : s.step a = some s') :
    s'.Serves t ∨ ∃ b t', t.step b = some t' ∧ s'.Serves t' := by
  cases ThreadpoolRule.of_step hstep with
  | @move i x y hplace hm =>
    exact .inl (h.setThread (by rw [hplace, hm.inHand_eq.1, hm.inHand_eq.2]))
  | @sleep i x hplace hx =>
    have hmid := h.setThread (i := i) (x := .wait) (by rw [hplace, hx.inHand_eq]; rfl)
    exact .inl (hmid.stay rfl rfl fun _ => rfl)
  | @leave i x hplace hx =>
    exact .inl (h.setThread (by rw [hplace, hx.inHand_eq]; rfl))
  | @take i x p jobs hplace hx _ hjobs =>
    obtain ⟨t', ht', hserves⟩ := h.take (by rw [hplace, hx.inHand_eq]) hjobs
    exact .inr ⟨.take i, t', ht', hserves⟩
  | @wait i hplace =>
    have hmid := h.setThread (i := i) (x := .blocked) (by rw [hplace]; rfl)
    exact .inl (hmid.stay rfl rfl fun _ => rfl)
  | @call i p hplace =>
    have hmid := h.setThread (i := i) (x := .running p) (by rw [hplace]; rfl)
    exact .inl (hmid.stay rfl rfl fun _ => rfl)
  | @functionReturn i p hplace =>
    obtain ⟨t', ht', hserves⟩ := h.functionReturn hplace
    exact .inr ⟨.finish i, t', ht', hserves⟩
  | @notify i x y _ _ hplace hx hwake =>
    exact .inl ((h.setThread (by rw [hx.inHand_eq, hplace])).wakes hwake)
  | @post functionP _ _ _ hwake =>
    exact .inr ⟨.submit functionP, _, rfl, (h.push functionP).wakes hwake⟩
  | joinNotify _ hwake =>
    refine .inl (Serves.wakes ?_ hwake)
    exact h.stay rfl rfl fun _ => rfl
  | spurious hplace => exact .inl (h.wakes (.one _ hplace))
  | _ => exact .inl (h.stay rfl rfl fun _ => rfl)

end Step

end Threadpool

/-- Under every schedule the thread pool is the same server of first come, first served as the pool
of `workers.c`: every run of it is one of the job server. So the functions leave the queue in the
order in which they were posted, and no two threads have the same one in hand. -/
theorem threadpool_serves_in_order [DecidableEq F] {s : Threadpool F n}
    (h : (threadpoolSystem F n).Reachable s) :
    (∃ t : JobServer F (Fin n), (jobSystem F (Fin n)).Reachable t ∧ s.Serves t) ∧
      s.jobs.map Posted.functionP = s.posted.drop (s.posted.length - s.jobs.length) ∧
      ∀ i j p q, (s.thread i).inHand = some p → (s.thread j).inHand = some q →
        p.ticket = q.ticket → i = j := by
  have hserved : ∃ t, (jobSystem F (Fin n)).Reachable t ∧ s.Serves t := by
    apply h.simulated
    · rintro s rfl
      exact ⟨.initial, rfl, rfl, rfl, rfl, fun _ => rfl, by rintro p (hp | ⟨i, hi⟩) <;> cases ‹_›⟩
    · intro s a s' t hserves hstep
      exact hserves.step hstep
  obtain ⟨t, ht, hserves⟩ := hserved
  refine ⟨⟨t, ht, hserves⟩, hserves.jobs_eq, ?_⟩
  intro i j p q hp hq heq
  apply t.inHand_unique
  · rw [hserves.inHand, hp]
    rfl
  · rw [hserves.inHand, hq, heq]
    rfl

/-- The thread runs the first of two functions. -/
theorem threadpool_serves_in_order_two : ∃ s : Threadpool ℕ 1,
    s.thread 0 = .running ⟨7, 0⟩ ∧ s.posted = [7, 8] ∧
      ∃ t : JobServer ℕ (Fin 1), (jobSystem ℕ (Fin 1)).Reachable t ∧ s.Serves t := by
  let acts : List (ThreadpoolAct ℕ 1) := [.process 0, .process 0, .process 0, .process 0,
    .post 7 (some 0), .post 8 none, .process 0, .notify 0 none, .process 0]
  have hrun : ((threadpoolSystem ℕ 1).exec .initial acts).any
      (fun s => s.thread 0 = .running ⟨7, 0⟩ ∧ s.posted = [7, 8]) = true := by
    decide
  obtain ⟨s, hs, hval⟩ := (Option.any_eq_true ..).mp hrun
  obtain ⟨hthread, hposted⟩ := of_decide_eq_true hval
  exact ⟨s, hthread, hposted, (threadpool_serves_in_order ⟨_, acts, rfl, LTS.run_of_exec hs⟩).1⟩

end C10K
