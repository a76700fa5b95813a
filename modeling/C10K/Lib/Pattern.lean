import Mathlib

/-!
# Where a pattern stands in a list

The first place at which a pattern stands, and the number of elements at the end of a list that meet
a condition. A scan that passes two elements after each candidate finds the candidates of one
parity, so that the number of candidates directly before a place decides whether it is seen.
-/

namespace Scan

variable {α : Type*} {pat l r : List α} {a b : α} {i j : ℕ} {p : α → Bool}

/-! ### First places -/

/-- The pattern stands at the index, and at no smaller one. -/
def FirstAt (pat l : List α) (i : ℕ) : Prop := pat <+: l.drop i ∧ ∀ j < i, ¬ pat <+: l.drop j

lemma FirstAt.unique (hi : FirstAt pat l i) (hj : FirstAt pat l j) : i = j := by
  apply le_antisymm
  · by_contra hlt
    exact hi.2 j (Nat.lt_of_not_le hlt) hj.1
  · by_contra hlt
    exact hj.2 i (Nat.lt_of_not_le hlt) hi.1

lemma exists_firstAt (h : pat <+: l.drop i) : ∃ j, FirstAt pat l j := by
  classical
  have hex : ∃ i, pat <+: l.drop i := ⟨i, h⟩
  exact ⟨Nat.find hex, Nat.find_spec hex, fun j hj => Nat.find_min hex hj⟩

lemma firstAt_zero : FirstAt pat l 0 ↔ pat <+: l := by simp [FirstAt]

lemma firstAt_cons_succ : FirstAt pat (b :: l) (i + 1) ↔ ¬ pat <+: b :: l ∧ FirstAt pat l i := by
  simp only [FirstAt, List.drop_succ_cons]
  constructor
  · rintro ⟨hpat, hnot⟩
    exact ⟨hnot 0 (Nat.succ_pos i), hpat, fun j hj => hnot (j + 1) (Nat.succ_lt_succ hj)⟩
  · rintro ⟨hzero, hpat, hnot⟩
    refine ⟨hpat, ?_⟩
    rintro (_ | j) hj
    · exact hzero
    · exact hnot j (Nat.lt_of_succ_lt_succ hj)

lemma FirstAt.add_length_le (h : FirstAt pat l i) (hne : pat ≠ []) :
    i + pat.length ≤ l.length := by
  have hle := h.1.length_le
  have hpos := List.length_pos_of_ne_nil hne
  rw [List.length_drop] at hle
  omega

/-- A pattern does not stand where its first element does not. -/
lemma not_prefix_cons (h : b ≠ a) : ¬ a :: pat <+: b :: l := by
  rintro ⟨t, ht⟩
  exact h (List.cons.inj ht).1.symm

lemma firstAt_cons_of_ne (h : b ≠ a) :
    FirstAt (a :: pat) (b :: l) i ↔ ∃ j, i = j + 1 ∧ FirstAt (a :: pat) l j := by
  cases i with
  | zero =>
    rw [firstAt_zero]
    refine iff_of_false (not_prefix_cons h) ?_
    rintro ⟨j, hj, -⟩
    exact absurd hj (by omega)
  | succ i =>
    rw [firstAt_cons_succ]
    constructor
    · rintro ⟨-, hi⟩
      exact ⟨i, rfl, hi⟩
    · rintro ⟨j, hj, hfirst⟩
      obtain rfl : i = j := by omega
      exact ⟨not_prefix_cons h, hfirst⟩

/-- Elements before the first candidate are passed. -/
lemma firstAt_append (h : a ∉ l) :
    FirstAt (a :: pat) (l ++ r) i ↔ ∃ j, i = l.length + j ∧ FirstAt (a :: pat) r j := by
  induction l generalizing i with
  | nil => simp
  | cons b l ih =>
    rw [List.mem_cons, not_or] at h
    rw [List.cons_append, firstAt_cons_of_ne (Ne.symm h.1)]
    simp only [ih h.2, List.length_cons]
    constructor
    · rintro ⟨_, rfl, j, rfl, hj⟩
      exact ⟨j, by omega, hj⟩
    · rintro ⟨j, rfl, hj⟩
      exact ⟨l.length + j, by omega, j, rfl, hj⟩

lemma firstAt_singleton (h : a ∉ l) : FirstAt [a] (l ++ a :: r) i ↔ i = l.length := by
  rw [firstAt_append h]
  constructor
  · rintro ⟨j, rfl, hj⟩
    rw [hj.unique (firstAt_zero.mpr ⟨r, rfl⟩), Nat.add_zero]
  · rintro rfl
    exact ⟨0, rfl, firstAt_zero.mpr ⟨r, rfl⟩⟩

/-! ### The end of a list -/

/-- The number of elements at the end of the list that meet the condition. -/
def trailing (p : α → Bool) (l : List α) : ℕ := (l.rtakeWhile p).length

@[simp] lemma trailing_nil : trailing p [] = 0 := rfl

lemma trailing_concat : trailing p (l ++ [a]) = if p a then trailing p l + 1 else 0 := by
  rw [trailing, List.rtakeWhile_concat]
  split_ifs
  · rw [List.length_append]
    rfl
  · rfl

/-- An element in front counts if it and all behind it meet the condition. -/
lemma trailing_cons : trailing p (b :: l) =
    trailing p l + if p b ∧ ∀ x ∈ l, p x then 1 else 0 := by
  induction l using List.reverseRecOn with
  | nil =>
    have hsingle : trailing p ([] ++ [b]) = _ := trailing_concat
    simpa using hsingle
  | append_singleton l a ih =>
    rw [← List.cons_append, trailing_concat, trailing_concat, ih]
    by_cases ha : p a = true
    · simp only [ha, if_true, List.forall_mem_append, List.forall_mem_singleton, and_true]
      omega
    · simp [ha]

lemma trailing_cons_of_neg (h : p b = false) : trailing p (b :: l) = trailing p l := by
  simp [trailing_cons, h]

lemma trailing_append_of_neg (h : p b = false) : trailing p (r ++ b :: l) = trailing p l := by
  induction r with
  | nil => exact trailing_cons_of_neg h
  | cons a r ih =>
    rw [List.cons_append, trailing_cons, ih, if_neg, Nat.add_zero]
    rintro ⟨-, hall⟩
    rw [hall b (by simp)] at h
    cases h

/-- Elements in front that do not meet the condition do not count. -/
lemma trailing_append_right (h : ∀ x ∈ r, p x = false) : trailing p (r ++ l) = trailing p l := by
  induction r with
  | nil => rfl
  | cons b r ih =>
    rw [List.forall_mem_cons] at h
    rw [List.cons_append, trailing_cons_of_neg h.1, ih h.2]

/-- Two elements in front, the first of which meets the condition, do not change the parity. -/
lemma even_trailing_cons_cons (h : p a = true) :
    Even (trailing p (a :: b :: l)) ↔ Even (trailing p l) := by
  simp only [trailing_cons, List.forall_mem_cons]
  by_cases hall : p b = true ∧ ∀ x ∈ l, p x = true
  · rw [if_pos hall, if_pos ⟨h, hall⟩, Nat.add_assoc, Nat.even_add]
    simp
  · rw [if_neg hall, if_neg fun hall' => hall hall'.2]
    simp

end Scan
