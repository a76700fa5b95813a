import C10K.Lib.Sharing
import C10K.Lib.TransitionSystem

/-!
# First come, first served

Jobs are submitted and numbered in the order in which they come. Servers take them in that order,
each one at a time, and finish them in any order. A `JobServer` cannot lose a job or give it to two
servers: its fields say where each one is.
-/

/-- What was submitted, how many jobs were taken, which one each server has in its hand, and the
numbers of those that are finished. -/
structure JobServer (J E : Type*) [Fintype E] where
  submitted : List J
  taken : ℕ
  inHand : E → Option ℕ
  finished : List ℕ
  taken_le : taken ≤ submitted.length
  accounted : Multiset.range taken = Hands.held inHand + (finished : Multiset ℕ)

inductive JobAct (J E : Type*) where
  | submit (j : J)
  | take (e : E)
  | finish (e : E)

namespace JobServer

variable {J E : Type*} [Fintype E]

def initial : JobServer J E where
  submitted := []
  taken := 0
  inHand _ := none
  finished := []
  taken_le := le_rfl
  accounted := by
    rw [Hands.held_eq_zero fun _ => rfl]
    rfl

def submit (s : JobServer J E) (j : J) : JobServer J E :=
  { s with
    submitted := s.submitted ++ [j]
    taken_le := by
      rw [List.length_append]
      exact Nat.le_add_right_of_le s.taken_le }

variable [DecidableEq E]

/-- A server with an empty hand takes the job that came first. -/
def take (s : JobServer J E) (e : E) : Option (JobServer J E) :=
  if h : s.inHand e = none ∧ s.taken < s.submitted.length then
    some { s with
      taken := s.taken + 1
      inHand := Function.update s.inHand e (some s.taken)
      taken_le := h.2
      accounted := by
        rw [Multiset.range_succ, s.accounted, Hands.held_take h.1, Multiset.cons_add] }
  else none

/-- A server is done with the job in its hand. -/
def finish (s : JobServer J E) (e : E) : Option (JobServer J E) :=
  match h : s.inHand e with
  | none   => none
  | some k =>
    some { s with
      inHand := Function.update s.inHand e none
      finished := s.finished ++ [k]
      accounted := by
        rw [Hands.coe_concat, Multiset.add_cons, ← Multiset.cons_add, Hands.held_drop h,
          s.accounted] }

def step (s : JobServer J E) : JobAct J E → Option (JobServer J E)
  | .submit j => some (s.submit j)
  | .take e   => s.take e
  | .finish e => s.finish e

end JobServer

/-- The servers under every schedule. -/
def jobSystem (J E : Type*) [Fintype E] [DecidableEq E] : LTS (JobServer J E) (JobAct J E) where
  init s := s = .initial
  step := JobServer.step

namespace JobServer

variable {J E : Type*} [Fintype E] {s s' : JobServer J E} {e e' : E} {k : ℕ}

/-! ### Where a job is -/

lemma nodup (s : JobServer J E) : (Hands.held s.inHand + (s.finished : Multiset ℕ)).Nodup := by
  rw [← s.accounted]
  exact Multiset.nodup_range _

/-- No job is finished twice. -/
lemma finished_nodup (s : JobServer J E) : s.finished.Nodup :=
  Multiset.coe_nodup.mp (Multiset.nodup_add.mp s.nodup).2.1

/-- A job in somebody's hand is not finished. -/
lemma not_finished_of_inHand (h : s.inHand e = some k) : k ∉ s.finished := by
  intro hk
  have hdisjoint := (Multiset.nodup_add.mp s.nodup).2.2
  exact Multiset.disjoint_left.mp hdisjoint (Hands.mem_held.mpr ⟨e, h⟩) (Multiset.mem_coe.mpr hk)

/-- No job is in two hands. -/
lemma inHand_unique [DecidableEq E] (h : s.inHand e = some k) (h' : s.inHand e' = some k) :
    e = e' := by
  by_contra hne
  have hheld : (k ::ₘ Hands.held (Function.update s.inHand e none)).Nodup := by
    rw [Hands.held_drop h]
    exact (Multiset.nodup_add.mp s.nodup).1
  apply (Multiset.nodup_cons.mp hheld).1
  rw [Hands.mem_held]
  exact ⟨e', (Function.update_of_ne (Ne.symm hne) ..).trans h'⟩

/-! ### Steps -/

variable [DecidableEq E]

lemma take_spec (hhand : s.inHand e = none) (hlt : s.taken < s.submitted.length) :
    ∃ s', s.take e = some s' ∧ s'.submitted = s.submitted ∧ s'.taken = s.taken + 1 ∧
      s'.inHand = Function.update s.inHand e (some s.taken) ∧ s'.finished = s.finished := by
  unfold take
  rw [dif_pos ⟨hhand, hlt⟩]
  exact ⟨_, rfl, rfl, rfl, rfl, rfl⟩

lemma finish_spec (hhand : s.inHand e = some k) :
    ∃ s', s.finish e = some s' ∧ s'.submitted = s.submitted ∧ s'.taken = s.taken ∧
      s'.inHand = Function.update s.inHand e none ∧ s'.finished = s.finished ++ [k] := by
  unfold finish
  split
  · rename_i hnone
    cases hnone.symm.trans hhand
  · rename_i k' hk'
    cases hk'.symm.trans hhand
    exact ⟨_, rfl, rfl, rfl, rfl, rfl⟩

end JobServer
