import C10K.Workers.Safety

/-!
# A pool with one posting thread

Where a single thread calls `w_post` and no job does, the pairs that it posted are, in order, the
pairs that were pushed and the one that its call is about to push. A worker runs the pair that was
posted under its number, and no pair that has returned is run.
-/

namespace C10K

namespace Pool

variable {Q W : Type} {n : ℕ} {s s' : Pool Q W n Unit} {pairs : List (W × W)}

/-- The pair that the call of the client has not pushed yet. -/
def pending (s : Pool Q W n Unit) : List (W × W) :=
  match s.post (.client ()) with
  | some (.lock job args) | some (.pushJob job args) | some (.pushArgs job args) => [(job, args)]
  | some (.unlock _) | some (.signal _) | none => []

/-- The client posted these pairs, and nobody else posts. -/
structure SinglePoster (s : Pool Q W n Unit) (pairs : List (W × W)) : Prop where
  quiet : ∀ i, s.post (.worker i) = none
  pairs_eq : s.hist.pushed ++ s.pending = pairs

lemma SinglePoster.frame (hP : s.SinglePoster pairs) (hpost : s'.post = s.post)
    (hpushed : s'.hist.pushed = s.hist.pushed) : s'.SinglePoster pairs := by
  refine ⟨fun i => hpost ▸ hP.quiet i, ?_⟩
  rw [hpushed, pending, hpost]
  exact hP.pairs_eq

lemma SinglePoster.wakes (hP : s.SinglePoster pairs) (h : s.Wakes s') : s'.SinglePoster pairs := by
  cases h <;> exact hP.frame rfl rfl

/-- Only the client is in a call of `w_post`. -/
lemma SinglePoster.poster_eq (hP : s.SinglePoster pairs) {t : Tid n Unit} {y : PostPc W}
    (h : s.post t = some y) : t = .client () := by
  cases t with
  | worker i => cases h.symm.trans (hP.quiet i)
  | client p => rfl

/-- The client moves on with its call, and posts the pairs of `l` on the way. -/
lemma SinglePoster.move {z : Option (PostPc W)} {l : List (W × W)} (hP : s.SinglePoster pairs)
    (hpost : s'.post = Function.update s.post (.client ()) z)
    (hpairs : s'.hist.pushed ++ s'.pending = s.hist.pushed ++ s.pending ++ l) :
    s'.SinglePoster (pairs ++ l) := by
  refine ⟨fun i => ?_, hpairs.trans (congrArg (· ++ l) hP.pairs_eq)⟩
  rw [hpost, Function.update_of_ne (by simp)]
  exact hP.quiet i

section Step

variable [FifoQueue Q W] [LawfulFifoQueue Q W] {a : PoolAct W n Unit} {i : Fin n} {p : Plucked W}

/-- A step that starts no call of `w_post` posts nothing. -/
theorem SinglePoster.step (hP : s.SinglePoster pairs) (hstep : s.step a = some s')
    (ha : ∀ t job args, a ≠ .callPost t job args) : s'.SinglePoster pairs := by
  have hmove : ∀ {u : Pool Q W n Unit} {t : Tid n Unit} {y : PostPc W} {z : Option (PostPc W)},
      s.post t = some y → u.post = Function.update s.post t z →
      (t = .client () → u.hist.pushed ++ u.pending = s.hist.pushed ++ s.pending) →
      u.SinglePoster pairs := by
    intro u t y z h hpost hpairs
    obtain rfl := hP.poster_eq h
    simpa using hP.move (l := []) hpost (by simpa using hpairs rfl)
  cases PoolRule.of_step hstep with
  | callPost => exact absurd rfl (ha _ _ _)
  | postAcquire h =>
    refine hmove h rfl fun ht => ?_
    subst ht
    simp [pending, h]
  | pushJob h =>
    refine hmove h rfl fun ht => ?_
    subst ht
    simp [pending, h]
  | pushArgs h =>
    refine hmove h rfl fun ht => ?_
    subst ht
    simp [pending, h]
  | postRelease h =>
    refine hmove h rfl fun ht => ?_
    subst ht
    simp [pending, h]
  | postSignal h hwake =>
    refine SinglePoster.wakes (hmove h rfl fun ht => ?_) hwake
    subst ht
    simp [pending, h]
  | signal _ _ hwake | joinSignal _ hwake =>
    refine SinglePoster.wakes ?_ hwake
    exact hP.frame rfl rfl
  | _ => exact hP.frame rfl rfl

/-- The client calls `w_post`. -/
lemma SinglePoster.callPost (hP : s.SinglePoster pairs) {job args : W}
    (hstep : s.step (.callPost (.client ()) job args) = some s') :
    s'.SinglePoster (pairs ++ [(job, args)]) := by
  cases PoolRule.of_step hstep with
  | callPost hcan h => exact hP.move rfl (by simp [pending, h])

/-- What has returned stays so. -/
lemma finished_subset (hstep : s.step a = some s') : s.hist.finished ⊆ s'.hist.finished := by
  have hwake : ∀ {u u' : Pool Q W n Unit}, u.Wakes u' → u'.hist = u.hist := by
    rintro u u' (_ | _) <;> rfl
  cases PoolRule.of_step hstep with
  | jobReturn => exact List.subset_append_left _ _
  | signal _ _ h | postSignal _ h | joinSignal _ h => exact (hwake h) ▸ List.Subset.refl _
  | _ => exact List.Subset.refl _

end Step

section Running

variable [FifoQueue Q W] [LawfulFifoQueue Q W] {i : Fin n} {p : Plucked W}

/-- A pair that is run has not returned. -/
lemma Inv.running_not_finished (hI : s.Inv) (h : s.worker i = .running p) :
    p.ticket ∉ s.hist.finished := by
  have hnodup := Multiset.coe_nodup.mpr hI.called_nodup
  rw [hI.tickets.called_eq, Multiset.nodup_add] at hnodup
  have hmem : p.ticket ∈ Hands.held s.jobTicket := by
    refine Hands.mem_held.mpr ⟨i, ?_⟩
    rw [jobTicket, h]
    rfl
  exact fun hfin => Multiset.disjoint_left.mp hnodup.2.2 hmem hfin

/-- A worker was called with the pair that was posted under its number. -/
lemma Inv.called_posted (hI : s.Inv) (hP : s.SinglePoster pairs) (h : p ∈ s.hist.called) :
    pairs[p.ticket]? = some (p.functionP, p.args) := by
  have hpushed := hI.pushed_of_plucked (hI.tickets.called_pair p h)
  rw [← hP.pairs_eq, List.getElem?_append_left (List.getElem?_eq_some_iff.mp hpushed).1, hpushed]

lemma Inv.running_posted (hI : s.Inv) (hP : s.SinglePoster pairs) (h : s.worker i = .running p) :
    pairs[p.ticket]? = some (p.functionP, p.args) := by
  apply hI.called_posted hP
  apply hI.tickets.job_called i p
  rw [h]
  rfl

end Running

end Pool

end C10K
