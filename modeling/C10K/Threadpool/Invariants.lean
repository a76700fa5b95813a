import C10K.Threadpool.Basic

/-!
# What holds of the thread pool in every schedule

No posted function is lost or handed out twice, the thread between its test and `cv.wait` holds
`jobs_lock`, and `stop` tells how far `join` is.
-/

namespace C10K

variable {F : Type} {n : ℕ}

/-! ### Where the functions are -/

/-- The function that a thread took and did not call yet. -/
def ProcessPlace.held : ProcessPlace F → Option (Posted F)
  | .notify p | .call p => some p
  | _                   => none

namespace Threadpool

variable {s s' : Threadpool F n} {i j : Fin n} {x : ProcessPlace F}

def heldTicket (s : Threadpool F n) : Fin n → Option ℕ :=
  fun i => (s.thread i).held.map Posted.ticket

/-- The function with this number was called once. -/
def CalledOnce (s : Threadpool F n) (k : ℕ) : Prop :=
  ∃ p, s.called.filter (fun p => p.ticket = k) = [p] ∧ s.posted[k]? = some p.functionP

/-- Every posted function is queued, in the hands of one thread, or was called once, and it is the
function of its number. -/
structure TicketInv (s : Threadpool F n) : Prop where
  posted_eq : (s.called.map Posted.ticket : Multiset ℕ) + Hands.held s.heldTicket +
    (s.jobs.map Posted.ticket : Multiset ℕ) = Multiset.range s.posted.length
  function : ∀ p, p ∈ s.jobs ∨ p ∈ s.called ∨ (∃ i, (s.thread i).held = some p) →
    s.posted[p.ticket]? = some p.functionP
  due_le : s.due ≤ s.posted.length

lemma heldTicket_setThread : (s.setThread i x).heldTicket =
    Function.update s.heldTicket i (x.held.map Posted.ticket) := by
  funext j
  by_cases hj : j = i <;> simp [heldTicket, hj]

/-- A thread moves with what it has in hand. -/
lemma TicketInv.setThread (hI : TicketInv s) (hx : x.held = (s.thread i).held) :
    TicketInv (s.setThread i x) := by
  have hsame : (s.setThread i x).heldTicket = s.heldTicket := by
    rw [heldTicket_setThread, hx]
    exact Function.update_eq_self i s.heldTicket
  refine ⟨by rw [hsame]; exact hI.posted_eq, fun p hp => hI.function p ?_, hI.due_le⟩
  refine hp.imp_right (Or.imp_right ?_)
  rintro ⟨j, hj⟩
  by_cases hji : j = i
  · refine ⟨i, ?_⟩
    simpa [hji, hx] using hj
  · exact ⟨j, by simpa [hji] using hj⟩

lemma TicketInv.wakes (hI : TicketInv s) (h : s.Wakes s') : TicketInv s' := by
  cases h with
  | nobody => exact hI
  | one k hk => exact hI.setThread (by rw [hk]; rfl)

/-- Nothing but the functions and the places of the threads counts. -/
lemma TicketInv.congr (hI : TicketInv s) (hjobs : s'.jobs = s.jobs)
    (hthread : s'.thread = s.thread) (hposted : s'.posted = s.posted)
    (hcalled : s'.called = s.called) (hdue : s'.due ≤ s.posted.length) : TicketInv s' := by
  obtain ⟨_, _, _, _, _, _, _, _⟩ := s'
  subst hjobs hthread hposted hcalled
  exact ⟨hI.posted_eq, hI.function, hdue⟩

/-- A thread takes the oldest function. -/
lemma TicketInv.take (hI : TicketInv s) {p : Posted F} {jobs : List (Posted F)}
    (hheld : (s.thread i).held = none) (hjobs : s.jobs = p :: jobs) :
    TicketInv { s.setThread i (.notify p) with jobs } := by
  have hnone : s.heldTicket i = none := by rw [heldTicket, hheld, Option.map_none]
  refine ⟨?_, fun q hq => hI.function q ?_, hI.due_le⟩
  · have hhands : Hands.held (s.setThread i (.notify p)).heldTicket =
        p.ticket ::ₘ Hands.held s.heldTicket := by
      rw [heldTicket_setThread]
      exact Hands.held_take hnone
    have hall := hI.posted_eq
    rw [hjobs, List.map_cons, ← Multiset.cons_coe, Multiset.add_cons] at hall
    calc _ = (s.called.map Posted.ticket : Multiset ℕ) +
          Hands.held (s.setThread i (.notify p)).heldTicket +
            (jobs.map Posted.ticket : Multiset ℕ) := rfl
      _ = p.ticket ::ₘ ((s.called.map Posted.ticket : Multiset ℕ) + Hands.held s.heldTicket +
          (jobs.map Posted.ticket : Multiset ℕ)) := by
        rw [hhands, Multiset.add_cons, Multiset.cons_add]
      _ = _ := hall
  · rcases hq with hq | hq | ⟨j, hj⟩
    · exact .inl (hjobs ▸ List.mem_cons_of_mem p hq)
    · exact .inr (.inl hq)
    · by_cases hji : j = i
      · have hqp : p = q := by simpa [hji, ProcessPlace.held] using hj
        exact .inl (by simp [hjobs, hqp])
      · exact .inr (.inr ⟨j, by simpa [hji] using hj⟩)

/-- A thread calls the function that it has in hand. -/
lemma TicketInv.call (hI : TicketInv s) {p : Posted F} (h : s.thread i = .call p) :
    TicketInv { s.setThread i (.running p) with called := s.called ++ [p] } := by
  have hhand : s.heldTicket i = some p.ticket := by rw [heldTicket, h]; rfl
  refine ⟨?_, fun q hq => hI.function q ?_, hI.due_le⟩
  · have hhands : p.ticket ::ₘ Hands.held (s.setThread i (.running p)).heldTicket =
        Hands.held s.heldTicket := by
      rw [heldTicket_setThread]
      exact Hands.held_drop hhand
    calc _ = ((s.called ++ [p]).map Posted.ticket : Multiset ℕ) +
          Hands.held (s.setThread i (.running p)).heldTicket +
            (s.jobs.map Posted.ticket : Multiset ℕ) := rfl
      _ = (s.called.map Posted.ticket : Multiset ℕ) + (p.ticket ::ₘ
          Hands.held (s.setThread i (.running p)).heldTicket) +
            (s.jobs.map Posted.ticket : Multiset ℕ) := by
        rw [List.map_append, List.map_singleton, Hands.coe_concat, Multiset.cons_add,
          Multiset.add_cons]
      _ = _ := by rw [hhands]; exact hI.posted_eq
  · rcases hq with hq | hq | ⟨j, hj⟩
    · exact .inl hq
    · rcases List.mem_append.mp hq with hq | hq
      · exact .inr (.inl hq)
      · exact .inr (.inr ⟨i, by rw [h, List.mem_singleton.mp hq]; rfl⟩)
    · have hji : j ≠ i := by
        rintro rfl
        simp [ProcessPlace.held] at hj
      exact .inr (.inr ⟨j, by simpa [hji] using hj⟩)

lemma TicketInv.push (hI : TicketInv s) (functionP : F) : TicketInv (s.push functionP) := by
  refine ⟨?_, fun p hp => ?_, ?_⟩
  · calc _ = (s.called.map Posted.ticket : Multiset ℕ) + Hands.held s.heldTicket +
          ((s.jobs ++ [(⟨functionP, s.posted.length⟩ : Posted F)]).map Posted.ticket :
            Multiset ℕ) := rfl
      _ = s.posted.length ::ₘ Multiset.range s.posted.length := by
        rw [List.map_append, List.map_singleton, Hands.coe_concat, Multiset.add_cons, hI.posted_eq]
      _ = Multiset.range (s.push functionP).posted.length := by
        simp [Threadpool.push]
  · have hold : ∀ {k : ℕ} {f : F}, s.posted[k]? = some f →
        (s.posted ++ [functionP])[k]? = some f := fun hk => by
      rw [List.getElem?_append_left (List.getElem?_eq_some_iff.mp hk).1, hk]
    rcases hp with hp | hp
    · rcases List.mem_append.mp hp with hp | hp
      · exact hold (hI.function p (.inl hp))
      · rw [List.mem_singleton.mp hp]
        exact List.getElem?_concat_length
    · exact hold (hI.function p (.inr hp))
  · have hlen : (s.push functionP).posted.length = s.posted.length + 1 := by simp [Threadpool.push]
    rw [hlen]
    exact Nat.le_succ_of_le hI.due_le

/-! ### The lock and the flag -/

/-- A notification leaves everything alone but the place of a blocked thread. -/
lemma Wakes.frame (h : s.Wakes s') : s'.jobs = s.jobs ∧ s'.stop = s.stop ∧
    s'.holder = s.holder ∧ s'.join = s.join := by
  cases h <;> exact ⟨rfl, rfl, rfl, rfl⟩

lemma Wakes.thread (h : s.Wakes s') (j : Fin n) :
    s'.thread j = s.thread j ∨ s.thread j = .blocked ∧ s'.thread j = .woken := by
  cases h with
  | nobody => exact .inl rfl
  | one k hk =>
    by_cases hj : j = k
    · exact .inr ⟨hj ▸ hk, by simp [hj]⟩
    · exact .inl (by simp [hj])

/-- The thread between its test and `cv.wait` holds the lock. -/
def HolderInv (s : Threadpool F n) : Prop :=
  Mutex.Guards s.holder fun i => s.thread i = .wait

lemma HolderInv.setThread (hH : HolderInv s) (hi : s.thread i ≠ .wait) (hx : x ≠ .wait) :
    HolderInv (s.setThread i x) := by
  refine Mutex.Guards.frame hH fun j => ?_
  by_cases hj : j = i
  · simp [hj, hi, hx]
  · simp [hj]

lemma HolderInv.wakes (hH : HolderInv s) (h : s.Wakes s') : HolderInv s' := by
  cases h with
  | nobody => exact hH
  | one k hk => exact hH.setThread (by simp [hk]) (by simp)

end Threadpool

/-- `join` has set the flag. -/
def JoinPlace.stopped : JoinPlace → Bool
  | .notify | .joining _ | .returned => true
  | _                                => false

namespace Threadpool

variable {s s' : Threadpool F n} {i : Fin n} [DecidableEq F] {a : ThreadpoolAct F n}

/-- What holds in every reachable state. -/
structure Inv (s : Threadpool F n) : Prop where
  tickets : TicketInv s
  holder : HolderInv s
  stop : s.stop = s.join.stopped

omit [DecidableEq F] in
lemma Inv.initial : Inv (.initial : Threadpool F n) where
  tickets :=
    { posted_eq := by
        have hheld : Hands.held (heldTicket (.initial : Threadpool F n)) = 0 :=
          Hands.held_eq_zero fun i => rfl
        rw [hheld]
        rfl
      function := by
        rintro p (hp | hp | ⟨i, hp⟩) <;> cases hp
      due_le := le_rfl }
  holder i := by simp [Threadpool.initial]
  stop := rfl

lemma TicketInv.step (hI : TicketInv s) (hstep : s.step a = some s') : TicketInv s' := by
  cases ThreadpoolRule.of_step hstep with
  | move h hm =>
    refine hI.setThread ?_
    rw [h]
    cases hm <;> rfl
  | @sleep i x h hx =>
    have hmid : TicketInv (s.setThread i .wait) := hI.setThread (by rw [h]; cases hx <;> rfl)
    exact hmid.congr rfl rfl rfl rfl hI.due_le
  | leave h hx => exact hI.setThread (by rw [h]; cases hx <;> rfl)
  | take h hx _ hjobs => exact hI.take (by rw [h]; cases hx <;> rfl) hjobs
  | @wait i h =>
    have hmid : TicketInv (s.setThread i .blocked) := hI.setThread (by rw [h]; rfl)
    exact hmid.congr rfl rfl rfl rfl hI.due_le
  | call h => exact hI.call h
  | @notify i x y _ _ h hx hwake =>
    have hmid : TicketInv (s.setThread i y) := hI.setThread (by rw [h]; cases hx <;> rfl)
    exact hmid.wakes hwake
  | post _ hwake => exact (hI.push _).wakes hwake
  | joinNotify _ hwake =>
    have hmid : TicketInv { s with join := .joining 0 } := hI.congr rfl rfl rfl rfl hI.due_le
    exact hmid.wakes hwake
  | functionReturn h | spurious h => exact hI.setThread (by rw [h]; rfl)
  | callJoin => exact hI.congr rfl rfl rfl rfl le_rfl
  | _ => exact hI.congr rfl rfl rfl rfl hI.due_le

lemma HolderInv.step (hH : HolderInv s) (hstep : s.step a = some s') : HolderInv s' := by
  cases ThreadpoolRule.of_step hstep with
  | move h hm => exact hH.setThread (by rw [h]; cases hm <;> simp) (by cases hm <;> simp)
  | @sleep i x h hx hfree =>
    have hH : Mutex.Guards none fun j => s.thread j = .wait := hfree ▸ hH
    refine hH.acquire fun j => ?_
    by_cases hj : j = i <;> simp [hj]
  | leave h hx => exact hH.setThread (by rw [h]; cases hx <;> simp) (by simp)
  | @take i x p _ h hx =>
    have hmid : HolderInv (s.setThread i (.notify p)) :=
      hH.setThread (by rw [h]; cases hx <;> simp) (by simp)
    exact hmid
  | @wait i h =>
    refine Mutex.Guards.release hH h fun j => ?_
    by_cases hj : j = i <;> simp [hj]
  | @call i p h =>
    have hmid : HolderInv (s.setThread i (.running p)) := hH.setThread (by simp [h]) (by simp)
    exact hmid
  | notify h hx hwake =>
    exact (hH.setThread (by rw [h]; cases hx <;> simp) (by cases hx <;> simp)).wakes hwake
  | @post functionP _ _ _ hwake =>
    have hmid : HolderInv (s.push functionP) := hH
    exact hmid.wakes hwake
  | joinNotify _ hwake =>
    have hmid : HolderInv { s with join := .joining 0 } := hH
    exact hmid.wakes hwake
  | functionReturn h | spurious h => exact hH.setThread (by simp [h]) (by simp)
  | _ => exact hH

lemma stop_step (hstop : s.stop = s.join.stopped) (hstep : s.step a = some s') :
    s'.stop = s'.join.stopped := by
  cases ThreadpoolRule.of_step hstep with
  | notify _ _ hwake | post _ hwake =>
    obtain ⟨-, hs, -, hj⟩ := hwake.frame
    rw [hs, hj]
    exact hstop
  | joinNotify h hwake =>
    obtain ⟨-, hs, -, hj⟩ := hwake.frame
    rw [hs, hj]
    exact hstop.trans (by rw [h]; rfl)
  | joinTestSet h hset => exact hset
  | setStop => rfl
  | callJoin h | joinTestUnset h | joinOne h | joinAll h => exact hstop.trans (by rw [h]; rfl)
  | _ => exact hstop

lemma Inv.step (hI : Inv s) (hstep : s.step a = some s') : Inv s' where
  tickets := hI.tickets.step hstep
  holder := hI.holder.step hstep
  stop := stop_step hI.stop hstep

theorem Inv.of_reachable (h : (threadpoolSystem F n).Reachable s) : Inv s := by
  refine h.invariant (fun s h₀ => ?_) fun _ _ _ hI hstep => hI.step hstep
  rw [show s = .initial from h₀]
  exact .initial

omit [DecidableEq F] in
/-- When every thread has left and the queue is empty, every function was called once. -/
lemma Inv.calledOnce (hI : Inv s) (hexit : ∀ i, s.thread i = .exited) (hjobs : s.jobs = []) {k : ℕ}
    (hk : k < s.posted.length) : s.CalledOnce k := by
  have hheld : Hands.held s.heldTicket = 0 :=
    Hands.held_eq_zero fun i => by simp [heldTicket, hexit, ProcessPlace.held]
  have hcalled : (s.called.map Posted.ticket : Multiset ℕ) = Multiset.range s.posted.length := by
    simpa [hheld, hjobs] using hI.tickets.posted_eq
  obtain ⟨p, hmem, hticket, hone⟩ := Hands.filter_eq_singleton hcalled hk
  exact ⟨p, hone, hticket ▸ hI.tickets.function p (.inr (.inl hmem))⟩

end Threadpool

end C10K
