import Mathlib

/-!
# Blocks of memory, circular windows and FIFO queues

The general part of a ring buffer: a block of memory that knows which of its slots were written,
the window of slots that a buffer of some capacity uses from some start, and the interface of a
queue that behaves first in, first out.
-/

/-! ### Blocks of memory -/

/-- An allocated array; a slot is `none` until it is first written. -/
abbrev Block (α : Type*) := Array (Option α)

namespace Block

variable {α : Type*} {b b' : Block α} {i j : ℕ} {v : α}

/-- Fresh memory: `n` slots of indeterminate content. -/
def malloc (n : ℕ) : Block α := Array.replicate n none

/-- Read a slot; `none` outside the block and where nothing was written. -/
def load (b : Block α) (i : ℕ) : Option α := b[i]?.join

/-- Write a slot; `none` outside the block. -/
def store (b : Block α) (i : ℕ) (v : α) : Option (Block α) :=
  if i < b.size then some (b.set! i (some v)) else none

@[simp] lemma size_malloc (n : ℕ) : (malloc n : Block α).size = n := by simp [malloc]

lemma store_of_lt (h : i < b.size) : b.store i v = some (b.set! i (some v)) := if_pos h

lemma lt_of_store (h : b.store i v = some b') : i < b.size := by
  by_contra hlt
  simp [store, hlt] at h

lemma size_store (h : b.store i v = some b') : b'.size = b.size := by
  have hlt := lt_of_store h
  simp only [store_of_lt hlt, Option.some.injEq] at h
  simp [← h]

/-- A stored value is read back, and every other slot is as before. -/
lemma load_store (h : b.store i v = some b') (j : ℕ) :
    b'.load j = if j = i then some v else b.load j := by
  have hlt := lt_of_store h
  simp only [store_of_lt hlt, Option.some.injEq] at h
  subst h
  simp only [load, Array.set!_eq_setIfInBounds, Array.getElem?_setIfInBounds]
  by_cases hij : i = j
  · subst hij
    simp [hlt]
  · simp [hij, Ne.symm hij]

end Block

/-! ### Circular windows -/

section Window

variable {α : Type*} {f g : ℕ → α} {cap start len : ℕ}

/-- The `len` entries of `f` from slot `start` on, wrapping around after slot `cap - 1`. -/
def window (f : ℕ → α) (cap start len : ℕ) : List α :=
  (List.range len).map fun i => f ((start + i) % cap)

@[simp] lemma window_zero : window f cap start 0 = [] := rfl

@[simp] lemma length_window : (window f cap start len).length = len := by simp [window]

lemma window_congr (h : ∀ i < len, f ((start + i) % cap) = g ((start + i) % cap)) :
    window f cap start len = window g cap start len := by
  simp only [window]
  exact List.map_congr_left fun i hi => h i (List.mem_range.mp hi)

/-- A window only depends on its start modulo the capacity. -/
lemma window_mod_start : window f cap (start % cap) len = window f cap start len := by
  simp [window]

/-- The oldest entry of a window is the one in its first slot. -/
lemma window_succ_front :
    window f cap start (len + 1) = f (start % cap) :: window f cap (start + 1) len := by
  simp only [window, List.range_succ_eq_map, List.map_cons, List.map_map, Nat.add_zero,
    List.cons.injEq, true_and]
  refine List.map_congr_left fun i _ => ?_
  simp only [Function.comp_apply, Nat.succ_eq_add_one]
  congr 2
  omega

/-- The newest entry of a window is the one in its last slot. -/
lemma window_succ_back :
    window f cap start (len + 1) = window f cap start len ++ [f ((start + len) % cap)] := by
  simp [window, List.range_succ]

/-- The slot behind a window that does not fill the capacity is none of its slots. -/
lemma window_slot_ne {i : ℕ} (hlen : len < cap) (hi : i < len) :
    (start + i) % cap ≠ (start + len) % cap := by
  intro h
  have hdvd : cap ∣ (start + len) - (start + i) := (Nat.modEq_iff_dvd' (by omega)).mp h
  have := Nat.le_of_dvd (by omega) hdvd
  omega

/-- Writing the slot behind a window that does not fill the capacity appends to it. -/
lemma window_write_back {v : α} (hlen : len < cap)
    (hg : ∀ j, g j = if j = (start + len) % cap then v else f j) :
    window g cap start (len + 1) = window f cap start len ++ [v] := by
  rw [window_succ_back, hg, if_pos rfl]
  congr 1
  exact window_congr fun i hi => by rw [hg, if_neg (window_slot_ne hlen hi)]

/-- The window of all entries written so far to a fresh array. -/
lemma window_linear (hlen : len ≤ cap) : window f cap 0 len = (List.range len).map f := by
  simp only [window, Nat.zero_add]
  refine List.map_congr_left fun i hi => ?_
  rw [Nat.mod_eq_of_lt (lt_of_lt_of_le (List.mem_range.mp hi) hlen)]

end Window

/-! ### FIFO queues -/

/-- The operations of a queue of words. Both updates are `none` where the program's behaviour is
undefined. -/
class FifoQueue (Q : Type*) (W : outParam (Type*)) where
  create : Q
  isEmpty : Q → Bool
  push : Q → W → Option Q
  next : Q → Option (W × Q)

/-- A queue that behaves first in, first out, as long as its behaviour is defined. -/
class LawfulFifoQueue (Q : Type*) (W : outParam (Type*)) [FifoQueue Q W] where
  contents : Q → List W
  contents_create : contents FifoQueue.create = []
  isEmpty_iff : ∀ q, FifoQueue.isEmpty q = true ↔ contents q = []
  contents_push : ∀ {q w q'}, FifoQueue.push q w = some q' → contents q' = contents q ++ [w]
  next_cons : ∀ {q w l}, contents q = w :: l →
    ∃ q', FifoQueue.next q = some (w, q') ∧ contents q' = l

/-- Taking from a nonempty queue gives its oldest word. -/
lemma LawfulFifoQueue.contents_next {Q W : Type*} [FifoQueue Q W] [LawfulFifoQueue Q W] {q q' : Q}
    {w : W} (hq : contents q ≠ []) (h : FifoQueue.next q = some (w, q')) :
    contents q = w :: contents q' := by
  obtain ⟨v, l, hl⟩ := List.exists_cons_of_ne_nil hq
  obtain ⟨r, hr, rfl⟩ := next_cons hl
  rw [h] at hr
  cases hr
  exact hl

section ListQueue

variable {W : Type*} [Zero W]

/-- The unbounded FIFO list, on which everything is defined. Taking from the empty list gives
the null word and changes nothing. -/
instance : FifoQueue (List W) W where
  create := []
  isEmpty := List.isEmpty
  push l w := some (l ++ [w])
  next
    | []     => some (0, [])
    | w :: l => some (w, l)

instance : LawfulFifoQueue (List W) W where
  contents := id
  contents_create := rfl
  isEmpty_iff l := List.isEmpty_iff
  contents_push h := (Option.some.inj h).symm
  next_cons := fun {q w l} h => ⟨l, by cases h; rfl, rfl⟩

end ListQueue
