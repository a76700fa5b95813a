import C10K.Boolset.Basic

/-!
# A run of `boolset_set` is a function from indices to bits

The set that a sequence of calls leaves is compared with the list of the calls: the answer for an
index is the one its own last call asked for.
-/

namespace C10K

variable {set : Boolset} {i j : BoolsetType} {val : ℤ} {calls : List (BoolsetType × ℤ)}

/-- The set after the calls `boolset_set(index, val)`, in order, on a set. -/
def boolsetRun (set : Boolset) (calls : List (BoolsetType × ℤ)) : Boolset :=
  calls.foldl (fun set call => boolsetSet set call.1 call.2) set

/-- The value of the last call on exactly this index, if there was one. -/
def lastVal (calls : List (BoolsetType × ℤ)) (index : BoolsetType) : Option ℤ :=
  (calls.reverse.find? fun call => call.1 = index).map Prod.snd

lemma boolsetRun_snoc (set : Boolset) (calls : List (BoolsetType × ℤ)) (i : BoolsetType) (val : ℤ) :
    boolsetRun set (calls ++ [(i, val)]) = boolsetSet (boolsetRun set calls) i val := by
  simp [boolsetRun]

lemma lastVal_snoc (calls : List (BoolsetType × ℤ)) (i j : BoolsetType) (val : ℤ) :
    lastVal (calls ++ [(i, val)]) j = if j = i then some val else lastVal calls j := by
  by_cases hji : j = i
  · simp [lastVal, hji]
  · simp [lastVal, hji, Ne.symm hji]

/-- The size is the least that covers every word that was set, and at least 1. -/
lemma size_boolsetRun (calls : List (BoolsetType × ℤ)) :
    (boolsetRun boolsetCreate calls).size =
      (calls.map fun call => 1 + majorIndex call.1).foldr max 1 := by
  have hinit : ∀ (l : List ℕ) (n : ℕ), l.foldr max (max n 1) = max (l.foldr max 1) n := by
    intro l n
    induction l with
    | nil => exact max_comm n 1
    | cons m l ih => rw [List.foldr_cons, List.foldr_cons, ih, max_assoc]
  induction calls using List.reverseRecOn with
  | nil => rfl
  | append_singleton calls call ih =>
    obtain ⟨i, val⟩ := call
    rw [boolsetRun_snoc, size_boolsetSet, ih, List.map_append, List.foldr_append]
    simp only [List.map_cons, List.map_nil, List.foldr_cons, List.foldr_nil]
    rw [hinit, Nat.add_comm 1]

/-- The bit of an index is the one its last call asked for. -/
lemma bit_boolsetRun (calls : List (BoolsetType × ℤ)) (j : BoolsetType) :
    (boolsetRun boolsetCreate calls).bit j = (lastVal calls j).any (· ≠ 0) := by
  induction calls using List.reverseRecOn with
  | nil => exact bit_boolsetCreate j
  | append_singleton calls call ih =>
    obtain ⟨i, val⟩ := call
    rw [boolsetRun_snoc, bit_boolsetSet, lastVal_snoc, ih]
    split_ifs <;> rfl

lemma majorIndex_lt_iff {size : ℕ} : majorIndex j < size ↔ j.toNat < 64 * size := by
  rw [majorIndex, Nat.div_lt_iff_lt_mul (by omega), Nat.mul_comm]

/-- After any sequence of `boolset_set` calls, the size is 1 plus the largest word index ever set
(or 1); `boolset_get` answers each covered index by the last call on exactly that index; and one
more call changes the answer for no other index. -/
theorem boolset_holds_last_values (calls : List (BoolsetType × ℤ)) :
    let set := boolsetRun boolsetCreate calls
    set.size = (calls.map fun call => 1 + call.1.toNat / 64).foldr max 1 ∧
      (∀ j : BoolsetType, j.toNat < 64 * set.size →
        boolsetGet set j = some (if (lastVal calls j).any (· ≠ 0) then 1 else 0)) ∧
      ∀ (i : BoolsetType) (val : ℤ) (j : BoolsetType), j ≠ i → j.toNat < 64 * set.size →
        boolsetGet (boolsetSet set i val) j = boolsetGet set j := by
  refine ⟨size_boolsetRun calls, fun j hj => ?_, fun i val j hji hj => ?_⟩
  · rw [boolsetGet_eq, if_pos (majorIndex_lt_iff.mpr hj), bit_boolsetRun]
    cases (lastVal calls j).any (· ≠ 0) <;> rfl
  · have hcov := majorIndex_lt_iff.mpr hj
    have hcov' : majorIndex j < (boolsetSet (boolsetRun boolsetCreate calls) i val).size := by
      rw [size_boolsetSet]
      exact lt_max_of_lt_left hcov
    rw [boolsetGet_eq, boolsetGet_eq, if_pos hcov, if_pos hcov', bit_boolsetSet, if_neg hji]

end C10K
