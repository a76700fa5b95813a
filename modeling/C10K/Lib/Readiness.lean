import C10K.Lib.TransitionSystem

/-!
# Edge-triggered readiness

Jobs come in and wait, and each one raises a flag. A server sleeps until the flag is raised, lowers
it, and then takes jobs until none waits. A job that comes in while the server takes jobs may or may
not be taken before it sleeps again, so the flag has to outlive the last job that was found.

An `EdgeServer` cannot lose a wake-up: the fields say that nothing waits while it sleeps and the
flag is down.
-/

/-- The jobs that came in, those that were taken, and those that wait. -/
structure EdgeServer (J : Type*) where
  arrived : List J
  taken : List J
  waiting : List J
  raised : Bool
  awake : Bool
  accounted : taken ++ waiting = arrived
  noticed : waiting ≠ [] → raised = true ∨ awake = true

inductive EdgeAct (J : Type*) where
  | arrive (j : J)
  | wake
  | take
  | sleep

namespace EdgeServer

variable {J : Type*} {s : EdgeServer J} {j : J} {rest : List J}

def initial : EdgeServer J where
  arrived := []
  taken := []
  waiting := []
  raised := false
  awake := false
  accounted := rfl
  noticed h := absurd rfl h

/-- A job comes in. -/
def arrive (s : EdgeServer J) (j : J) : EdgeServer J :=
  { s with
    arrived := s.arrived ++ [j]
    waiting := s.waiting ++ [j]
    raised := true
    accounted := by rw [← List.append_assoc, s.accounted]
    noticed := fun _ => .inl rfl }

/-- The server sees the flag and lowers it. -/
def wake (s : EdgeServer J) : Option (EdgeServer J) :=
  if s.raised = true then
    some { s with
      raised := false
      awake := true
      noticed := fun _ => .inr rfl }
  else none

/-- The server takes the job that came first. -/
def take (s : EdgeServer J) : Option (EdgeServer J) :=
  match hw : s.waiting with
  | []           => none
  | j :: waiting =>
    if s.awake = true then
      some { s with
        taken := s.taken ++ [j]
        waiting
        accounted := by rw [List.append_assoc, List.singleton_append, ← hw, s.accounted]
        noticed := fun _ => s.noticed (hw ▸ List.cons_ne_nil j waiting) }
    else none

/-- The server finds no job. -/
def sleep (s : EdgeServer J) : Option (EdgeServer J) :=
  if h : s.waiting = [] then
    some { s with
      awake := false
      noticed := fun hne => absurd h hne }
  else none

def step (s : EdgeServer J) : EdgeAct J → Option (EdgeServer J)
  | .arrive j => some (s.arrive j)
  | .wake     => s.wake
  | .take     => s.take
  | .sleep    => s.sleep

/-! ### What the steps do -/

lemma wake_spec (h : s.raised = true) : ∃ s', s.wake = some s' ∧ s'.arrived = s.arrived ∧
    s'.taken = s.taken ∧ s'.waiting = s.waiting ∧ s'.raised = false ∧ s'.awake = true := by
  unfold wake
  rw [if_pos h]
  exact ⟨_, rfl, rfl, rfl, rfl, rfl, rfl⟩

lemma take_spec (h : s.waiting = j :: rest) (hawake : s.awake = true) :
    ∃ s', s.take = some s' ∧ s'.arrived = s.arrived ∧ s'.taken = s.taken ++ [j] ∧
      s'.waiting = rest ∧ s'.raised = s.raised ∧ s'.awake = true := by
  unfold take
  split
  · rename_i hnil
    cases hnil.symm.trans h
  · rename_i j' rest' hcons
    cases hcons.symm.trans h
    rw [if_pos hawake]
    exact ⟨_, rfl, rfl, rfl, rfl, rfl, hawake⟩

lemma sleep_spec (h : s.waiting = []) : ∃ s', s.sleep = some s' ∧ s'.arrived = s.arrived ∧
    s'.taken = s.taken ∧ s'.waiting = s.waiting ∧ s'.raised = s.raised ∧ s'.awake = false := by
  unfold sleep
  rw [dif_pos h]
  exact ⟨_, rfl, rfl, rfl, rfl, rfl, rfl⟩

/-- A server that sleeps while the flag is down took every job, in the order in which they came. -/
lemma taken_eq (s : EdgeServer J) (hraised : s.raised = false) (hawake : s.awake = false) :
    s.taken = s.arrived := by
  have hnil : s.waiting = [] := by
    by_contra hne
    rcases s.noticed hne with h | h
    · cases h.symm.trans hraised
    · cases h.symm.trans hawake
  rw [← s.accounted, hnil, List.append_nil]

end EdgeServer

/-- The server under every schedule. -/
def edgeSystem (J : Type*) : LTS (EdgeServer J) (EdgeAct J) where
  init s := s = .initial
  step := EdgeServer.step
