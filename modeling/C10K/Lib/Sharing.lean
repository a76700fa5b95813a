import Mathlib

/-!
# What threads share

The places where threads stand, a lock with its holder, and items that are handed to one thread
each. All are stated for arbitrary threads: a program says who stands where, who is inside and who
holds what.
-/

/-! ### Threads at places -/

namespace Places

open Function

variable {T P : Type*} [DecidableEq T] {place : T → P} {Q : P → Prop} {t : T} {p q : P}

/-- A thread that stands at a place of a kind still does when a thread at no such place moves. -/
lemma exists_update (h : ∃ u, Q (place u)) (ht : ¬ Q (place t)) : ∃ u, Q (update place t p u) := by
  obtain ⟨u, hu⟩ := h
  have hut : u ≠ t := by
    rintro rfl
    exact ht hu
  exact ⟨u, by rwa [update_of_ne hut]⟩

/-- Before a thread moved to no place of a kind, the thread at such a place stood there too. -/
lemma exists_of_update (h : ∃ u, Q (update place t p u)) (hp : ¬ Q p) : ∃ u, Q (place u) := by
  obtain ⟨u, hu⟩ := h
  have hut : u ≠ t := by
    rintro rfl
    exact hp (by rwa [update_self] at hu)
  exact ⟨u, by rwa [update_of_ne hut] at hu⟩

lemma exists_eq_update (h : ∃ u, place u = q) (ht : place t ≠ q) : ∃ u, update place t p u = q :=
  exists_update (Q := (· = q)) h ht

lemma exists_eq_of_update (h : ∃ u, update place t p u = q) (hp : p ≠ q) : ∃ u, place u = q :=
  exists_of_update (Q := (· = q)) h hp

/-- What the places are worth together, when one thread moves. -/
lemma sum_update [Fintype T] (w : P → ℕ) :
    ∑ u, w (update place t p u) + w (place t) = ∑ u, w (place u) + w p := by
  have hsplit : ∀ f : T → P, ∑ u, w (f u) = w (f t) + ∑ u ∈ Finset.univ.erase t, w (f u) :=
    fun f => (Finset.add_sum_erase _ _ (Finset.mem_univ t)).symm
  have hothers : ∑ u ∈ Finset.univ.erase t, w (update place t p u) =
      ∑ u ∈ Finset.univ.erase t, w (place u) := by
    apply Finset.sum_congr rfl
    intro u hu
    rw [update_of_ne (Finset.ne_of_mem_erase hu)]
  rw [hsplit, hothers, update_self, hsplit place]
  ring

end Places

/-! ### A lock -/

namespace Mutex

variable {T : Type*} {lock : Option T} {inside inside' : T → Prop} {t u : T}

/-- The thread inside the region of the lock is the one that the lock names. -/
def Guards (lock : Option T) (inside : T → Prop) : Prop :=
  ∀ t, inside t ↔ lock = some t

/-- Two threads are never inside together. -/
lemma Guards.unique (h : Guards lock inside) (ht : inside t) (hu : inside u) : u = t :=
  Option.some.inj (((h u).mp hu).symm.trans ((h t).mp ht))

lemma Guards.frame (h : Guards lock inside) (hin : ∀ t, inside' t ↔ inside t) :
    Guards lock inside' :=
  fun t => (hin t).trans (h t)

/-- A thread that takes the free lock goes inside. -/
lemma Guards.acquire (h : Guards none inside) (hin : ∀ u, inside' u ↔ u = t ∨ inside u) :
    Guards (some t) inside' := by
  intro u
  rw [hin u, h u]
  simp [eq_comm]

/-- The thread inside leaves when it frees the lock. -/
lemma Guards.release (h : Guards lock inside) (ht : inside t)
    (hin : ∀ u, inside' u ↔ u ≠ t ∧ inside u) : Guards none inside' := by
  intro u
  rw [hin u]
  simp only [reduceCtorEq, iff_false, not_and]
  exact fun hne hu => hne (h.unique ht hu)

end Mutex

/-! ### Items in the hands of threads -/

namespace Hands

open Function

variable {T κ : Type*} [Fintype T] {hand : T → Option κ} {t : T} {k : κ}

/-- The items that the threads hold, one each at most. -/
def held (hand : T → Option κ) : Multiset κ := ∑ t, (hand t).elim 0 ({·})

lemma mem_held : k ∈ held hand ↔ ∃ t, hand t = some k := by
  simp only [held, Multiset.mem_sum, Finset.mem_univ, true_and]
  refine exists_congr fun t => ?_
  cases hand t <;> simp [eq_comm]

lemma held_eq_zero (h : ∀ t, hand t = none) : held hand = 0 := by
  simp [held, h]

/-- A list that grows at its end, as a bag. -/
lemma coe_concat (l : List κ) (k : κ) :
    ((l ++ [k] : List κ) : Multiset κ) = k ::ₘ (l : Multiset κ) := by
  rw [← Multiset.coe_add, Multiset.coe_singleton, add_comm, Multiset.singleton_add]

/-- When the numbers of the items are the first `m` ones, each belongs to one item. -/
lemma filter_eq_singleton {l : List κ} {number : κ → ℕ} {m k : ℕ}
    (h : (l.map number : Multiset ℕ) = Multiset.range m) (hk : k < m) :
    ∃ x ∈ l, number x = k ∧ l.filter (fun x => number x = k) = [x] := by
  have hone : (Multiset.range m).count k = 1 :=
    Multiset.count_eq_one_of_mem (Multiset.nodup_range m) (Multiset.mem_range.mpr hk)
  have hlen : (l.filter fun x => number x = k).length = 1 := by
    rw [← hone, ← h, Multiset.coe_count, List.count_eq_countP, List.countP_map,
      List.countP_eq_length_filter]
    rfl
  obtain ⟨x, hx⟩ := List.length_eq_one_iff.mp hlen
  obtain ⟨hmem, hnumber⟩ := List.mem_filter.mp (hx ▸ List.mem_singleton_self x)
  exact ⟨x, hmem, of_decide_eq_true hnumber, hx⟩

variable [DecidableEq T]

/-- What the threads hold, with the thread `t` told apart. -/
lemma held_update (x : Option κ) :
    held (update hand t x) = x.elim 0 ({·}) + held (update hand t none) := by
  have hsum : ∀ y : Option κ, held (update hand t y) =
      y.elim 0 ({·}) + ∑ u ∈ Finset.univ \ {t}, (hand u).elim 0 ({·}) := by
    intro y
    rw [held, ← Finset.sum_update_of_mem (Finset.mem_univ t)]
    exact Finset.sum_congr rfl fun u _ => congrFun (comp_update (Option.elim · 0 ({·})) ..) u
  rw [hsum x, hsum none, Option.elim_none, zero_add]

/-- A thread with empty hands takes an item. -/
lemma held_take (h : hand t = none) : held (update hand t (some k)) = k ::ₘ held hand := by
  rw [held_update, ← h, update_eq_self, Option.elim_some, Multiset.singleton_add]

/-- A thread puts down the item that it holds. -/
lemma held_drop (h : hand t = some k) : k ::ₘ held (update hand t none) = held hand := by
  rw [← held_take (update_self t none hand), update_idem, ← h, update_eq_self]

end Hands
