import Mathlib

/-!
# Labelled transition systems

A system is given by its initial states and by a partial function `step`, which says where a
label leads. Whatever a scheduler, a kernel or a client may choose is part of the label, so a
run is a list of labels and can be evaluated.

`Run.invariant` and `RunMeeting.invariant` are the two induction rules of the development: an
invariant of every step holds at the end of every run, and an invariant of every step that meets
a guard holds at the end of every run whose steps all meet it. `runMeeting_iff` says when a run has
a property in every state, `Run.sum_add_le` bounds the labels of a run by a measure, and
`Reachable.simulated` lifts a simulation of steps to the reachable states.
-/

/-- A transition system: `step s a` is the state that label `a` leads to from `s`, or `none`
where `a` cannot be taken. -/
structure LTS (σ α : Type*) where
  init : σ → Prop
  step : σ → α → Option σ

namespace LTS

variable {σ α : Type*} {M : LTS σ α} {G : σ → α → Prop} {I : σ → Prop}
variable {s t u : σ} {a : α} {as bs : List α}

/-! ### Runs -/

/-- The labels `as`, taken in order, lead from the first state to the last. -/
inductive Run (M : LTS σ α) (s : σ) : List α → σ → Prop where
  | nil : Run M s [] s
  | snoc {t u : σ} {as : List α} {a : α} (h : Run M s as t) (hstep : M.step t a = some u) :
      Run M s (as ++ [a]) u

/-- A run in which each label meets the guard `G` in the state where it is taken. -/
inductive RunMeeting (M : LTS σ α) (G : σ → α → Prop) (s : σ) : List α → σ → Prop where
  | nil : RunMeeting M G s [] s
  | snoc {t u : σ} {as : List α} {a : α} (h : RunMeeting M G s as t) (hG : G t a)
      (hstep : M.step t a = some u) : RunMeeting M G s (as ++ [a]) u

/-- Some run from an initial state ends in `s`. -/
def Reachable (M : LTS σ α) (s : σ) : Prop := ∃ s₀ as, M.init s₀ ∧ M.Run s₀ as s

/-- Some run from an initial state whose steps all meet `G` ends in `s`. -/
def ReachableMeeting (M : LTS σ α) (G : σ → α → Prop) (s : σ) : Prop :=
  ∃ s₀ as, M.init s₀ ∧ M.RunMeeting G s₀ as s

lemma RunMeeting.run (h : M.RunMeeting G s as t) : M.Run s as t := by
  induction h with
  | nil => exact .nil
  | snoc _ _ hstep ih => exact .snoc ih hstep

lemma ReachableMeeting.reachable (h : M.ReachableMeeting G s) : M.Reachable s :=
  let ⟨s₀, as, h₀, hrun⟩ := h
  ⟨s₀, as, h₀, hrun.run⟩

lemma Run.append (h : M.Run s as t) (h' : M.Run t bs u) : M.Run s (as ++ bs) u := by
  induction h' with
  | nil => simpa using h
  | snoc _ hstep ih => simpa using ih.snoc hstep

lemma Run.cons (hstep : M.step s a = some t) (h : M.Run t as u) : M.Run s (a :: as) u :=
  (Run.snoc .nil hstep).append h

/-! ### Invariants -/

/-- What every step preserves is preserved by every run. -/
theorem Run.invariant (h : M.Run s as t) (hs : I s)
    (hI : ∀ s a t, I s → M.step s a = some t → I t) : I t := by
  induction h with
  | nil => exact hs
  | snoc _ hstep ih => exact hI _ _ _ ih hstep

/-- What every step that meets `G` preserves is preserved by every run whose steps meet `G`. -/
theorem RunMeeting.invariant (h : M.RunMeeting G s as t) (hs : I s)
    (hI : ∀ s a t, I s → G s a → M.step s a = some t → I t) : I t := by
  induction h with
  | nil => exact hs
  | snoc _ hG hstep ih => exact hI _ _ _ ih hG hstep

/-- An inductive invariant holds in every reachable state. -/
theorem Reachable.invariant (h : M.Reachable s) (h₀ : ∀ s, M.init s → I s)
    (hI : ∀ s a t, I s → M.step s a = some t → I t) : I s :=
  let ⟨_, _, hinit, hrun⟩ := h
  hrun.invariant (h₀ _ hinit) hI

/-- A guarded inductive invariant holds at the end of every run that meets the guard. The step
case may use that the state before the step is reachable. -/
theorem ReachableMeeting.invariant (h : M.ReachableMeeting G s) (h₀ : ∀ s, M.init s → I s)
    (hI : ∀ s a t, M.Reachable s → I s → G s a → M.step s a = some t → I t) : I s := by
  obtain ⟨s₀, as, hinit, hrun⟩ := h
  induction hrun with
  | nil => exact h₀ _ hinit
  | snoc hpre hG hstep ih =>
    exact hI _ _ _ ⟨_, _, hinit, hpre.run⟩ ih hG hstep

/-- Where a state is worth what a step costs and leaves, less what its label brings, a run costs no
more than the state at the start and the labels bring. -/
theorem Run.sum_add_le {f g : α → ℕ} {m : σ → ℕ} (h : M.Run s as t) (hs : I s)
    (hI : ∀ s a t, I s → M.step s a = some t → I t)
    (hm : ∀ s a t, I s → M.step s a = some t → f a + m t ≤ m s + g a) :
    (as.map f).sum + m t ≤ m s + (as.map g).sum := by
  induction h with
  | nil => exact (Nat.zero_add _).le
  | @snoc t u as a h hstep ih =>
    have hpay := hm t a u (h.invariant hs hI) hstep
    simp only [List.map_append, List.map_singleton, List.sum_append, List.sum_singleton]
    calc (as.map f).sum + f a + m u = (as.map f).sum + (f a + m u) := Nat.add_assoc ..
      _ ≤ (as.map f).sum + (m t + g a) := Nat.add_le_add_left hpay _
      _ = (as.map f).sum + m t + g a := (Nat.add_assoc ..).symm
      _ ≤ m s + (as.map g).sum + g a := Nat.add_le_add_right ih _
      _ = m s + ((as.map g).sum + g a) := Nat.add_assoc ..

/-- Where each label of a kind uses something up, a run has no more of them than there is at the
start. -/
theorem Run.countP_add_le {p : α → Bool} {m : σ → ℕ} (h : M.Run s as t) (hs : I s)
    (hI : ∀ s a t, I s → M.step s a = some t → I t)
    (hm : ∀ s a t, I s → M.step s a = some t → (if p a then 1 else 0) + m t ≤ m s) :
    as.countP p + m t ≤ m s := by
  have hcount : ∀ l : List α, (l.map fun a => if p a then 1 else 0).sum = l.countP p := by
    intro l
    induction l with
    | nil => rfl
    | cons a l ih => rw [List.map_cons, List.sum_cons, ih, List.countP_cons, Nat.add_comm]
  have hsum := h.sum_add_le (g := fun _ => 0) hs hI hm
  rwa [List.map_const', List.sum_replicate, smul_zero, Nat.add_zero, hcount] at hsum

/-! ### Simulation -/

lemma Reachable.snoc (h : M.Reachable s) (hstep : M.step s a = some t) : M.Reachable t :=
  let ⟨s₀, as, hinit, hrun⟩ := h
  ⟨s₀, as ++ [a], hinit, hrun.snoc hstep⟩

lemma Reachable.append (h : M.Reachable s) (hrun : M.Run s as t) : M.Reachable t :=
  let ⟨s₀, bs, hinit, hrun₀⟩ := h
  ⟨s₀, bs ++ as, hinit, hrun₀.append hrun⟩

/-- Where a second system follows every step from related states, by a step of its own or by none,
it reaches a state that is related. -/
theorem Reachable.simulated {τ β : Type*} {N : LTS τ β} {R : σ → τ → Prop} (h : M.Reachable s)
    (h₀ : ∀ s, M.init s → ∃ t, N.init t ∧ R s t)
    (hR : ∀ s a s' t, R s t → M.step s a = some s' →
      R s' t ∨ ∃ b t', N.step t b = some t' ∧ R s' t') : ∃ t, N.Reachable t ∧ R s t := by
  apply h.invariant (I := fun s => ∃ t, N.Reachable t ∧ R s t)
  · intro s hs
    obtain ⟨t, ht, hst⟩ := h₀ s hs
    exact ⟨t, ⟨t, [], ht, .nil⟩, hst⟩
  · rintro s a s' ⟨t, hreach, hst⟩ hstep
    rcases hR s a s' t hst hstep with hst' | ⟨b, t', hstep', hst'⟩
    · exact ⟨t, hreach, hst'⟩
    · exact ⟨t', hreach.snoc hstep', hst'⟩

/-- The rule for runs that meet a guard. -/
theorem ReachableMeeting.simulated {τ β : Type*} {N : LTS τ β} {R : σ → τ → Prop}
    (h : M.ReachableMeeting G s) (h₀ : ∀ s, M.init s → ∃ t, N.init t ∧ R s t)
    (hR : ∀ s a s' t, M.Reachable s → R s t → G s a → M.step s a = some s' →
      R s' t ∨ ∃ b t', N.step t b = some t' ∧ R s' t') : ∃ t, N.Reachable t ∧ R s t := by
  apply h.invariant (I := fun s => ∃ t, N.Reachable t ∧ R s t)
  · intro s hs
    obtain ⟨t, ht, hst⟩ := h₀ s hs
    exact ⟨t, ⟨t, [], ht, .nil⟩, hst⟩
  · rintro s a s' hs ⟨t, hreach, hst⟩ hG hstep
    rcases hR s a s' t hs hst hG hstep with hst' | ⟨b, t', hstep', hst'⟩
    · exact ⟨t, hreach, hst'⟩
    · exact ⟨t', hreach.snoc hstep', hst'⟩

/-! ### Guards -/

/-- A run meets a guard at every step, or it passes a step that does not. -/
theorem Run.meeting_or_passes (h : M.Run s as t) :
    M.RunMeeting G s as t ∨
      ∃ pre u a v post, M.Run s pre u ∧ ¬ G u a ∧ M.step u a = some v ∧ M.Run v post t := by
  induction h with
  | nil => exact .inl .nil
  | @snoc t u as a h hstep ih =>
    rcases ih with hmeet | ⟨pre, u', a', v, post, hpre, hG, hstep', hpost⟩
    · by_cases hG : G t a
      · exact .inl (hmeet.snoc hG hstep)
      · exact .inr ⟨as, t, a, u, [], h, hG, hstep, .nil⟩
    · exact .inr ⟨pre, u', a', v, post ++ [a], hpre, hG, hstep', hpost.snoc hstep⟩

/-- A run whose labels meet the guard in every state meets it. -/
theorem Run.meeting (h : M.Run s as t) (hG : ∀ a ∈ as, ∀ u, G u a) : M.RunMeeting G s as t := by
  induction h with
  | nil => exact .nil
  | snoc _ hstep ih =>
    refine (ih fun a ha => hG a ?_).snoc (hG _ ?_ _) hstep
    · exact List.mem_append_left _ ha
    · exact List.mem_append_right _ (List.mem_singleton_self _)

lemma RunMeeting.append (h : M.RunMeeting G s as t) (h' : M.RunMeeting G t bs u) :
    M.RunMeeting G s (as ++ bs) u := by
  induction h' with
  | nil => simpa using h
  | snoc _ hG hstep ih => simpa using ih.snoc hG hstep

/-- Where a step keeps a property exactly when it meets the guard, a run has the property in every
state exactly when each of its steps meets the guard. -/
theorem runMeeting_iff {P : σ → Prop} (hs : I s) (hP : P s)
    (hI : ∀ s a t, I s → M.step s a = some t → I t)
    (hiff : ∀ s a t, I s → P s → M.step s a = some t → (P t ↔ G s a)) :
    (M.RunMeeting (fun s _ => P s) s as t ∧ P t) ↔ M.RunMeeting G s as t := by
  constructor
  · rintro ⟨hmeets, hlast⟩
    induction hmeets with
    | nil => exact .nil
    | snoc hpre hbefore hstep ih =>
      have hinv := hpre.run.invariant hs hI
      exact (ih hbefore).snoc ((hiff _ _ _ hinv hbefore hstep).mp hlast) hstep
  · intro hmeets
    induction hmeets with
    | nil => exact ⟨.nil, hP⟩
    | snoc hpre hG hstep ih =>
      have hinv := hpre.run.invariant hs hI
      exact ⟨ih.1.snoc ih.2 hstep, (hiff _ _ _ hinv ih.2 hstep).mpr hG⟩

/-! ### Evaluating a run -/

/-- The state that the labels lead to from `s`, if each can be taken. -/
def exec (M : LTS σ α) (s : σ) : List α → Option σ
  | []      => some s
  | a :: as => (M.step s a).bind fun t => M.exec t as

/-- An evaluated list of labels is a run. -/
theorem run_of_exec (h : M.exec s as = some t) : M.Run s as t := by
  induction as generalizing s with
  | nil =>
    simp only [exec, Option.some.injEq] at h
    exact h ▸ .nil
  | cons a as ih =>
    simp only [exec, Option.bind_eq_some_iff] at h
    obtain ⟨u, hstep, hrest⟩ := h
    exact .cons hstep (ih hrest)

/-- The state that the labels lead to from `s`, if each can be taken and passes the test. -/
def execMeeting (M : LTS σ α) (test : σ → α → Bool) (s : σ) : List α → Option σ
  | []      => some s
  | a :: as =>
    if test s a then (M.step s a).bind fun t => M.execMeeting test t as else none

/-- An evaluated list of labels that pass a test for the guard is a run that meets it. -/
theorem runMeeting_of_exec {test : σ → α → Bool} (h : M.execMeeting test s as = some t)
    (hG : ∀ s a, test s a = true → G s a) : M.RunMeeting G s as t := by
  induction as generalizing s with
  | nil =>
    simp only [execMeeting, Option.some.injEq] at h
    exact h ▸ .nil
  | cons a as ih =>
    simp only [execMeeting, Option.ite_none_right_eq_some, Option.bind_eq_some_iff] at h
    obtain ⟨htest, u, hstep, hrest⟩ := h
    exact (RunMeeting.nil.snoc (hG s a htest) hstep).append (ih hrest)

end LTS
