import C10K.Boolset.Refinement

/-!
# The words that the functions touch

`boolset_set` expands the set before it touches a word, `boolset_get` does not. Whether a read stays
inside the array depends on the calls of `boolset_set` before it.
-/

namespace C10K

variable {set : Boolset} {index : BoolsetType} {calls : List (BoolsetType × ℤ)}

/-- `boolset_get` and `boolset_set` touch words of the array only: the read is defined, and gives 0
for an index that the set does not cover; the old words fit into the array that `boolset_set`
leaves, and so does the word that it changes. -/
structure Boolset.Accessible (set : Boolset) (index : BoolsetType) : Prop where
  get : ∃ val, boolsetGet set index = some val ∧ (set.size ≤ majorIndex index → val = 0)
  copy : set.size ≤ (boolsetCover set index).size
  set : majorIndex index < (boolsetCover set index).size

/-- Nothing but the read can leave the array. -/
lemma Boolset.accessible_iff : set.Accessible index ↔ majorIndex index < set.size := by
  constructor
  · rintro ⟨⟨val, hget, -⟩, -, -⟩
    by_contra hout
    rw [boolsetGet_eq, if_neg hout] at hget
    cases hget
  · intro hlt
    rw [← set.data_size] at hlt
    refine ⟨⟨_, (boolsetGet_eq set index).trans (if_pos (set.data_size ▸ hlt)), ?_⟩, ?_, ?_⟩
    · intro hout
      rw [← set.data_size] at hout
      exact absurd hlt (Nat.not_lt.mpr hout)
    · rw [size_boolsetCover]
      exact le_max_left _ _
    · rw [size_boolsetCover]
      exact lt_max_of_lt_right (Nat.lt_succ_self _)

/-- A set covers the first word, and every word up to one that was set. -/
lemma majorIndex_lt_size_boolsetRun (calls : List (BoolsetType × ℤ)) (index : BoolsetType) :
    majorIndex index < (boolsetRun boolsetCreate calls).size ↔
      majorIndex index = 0 ∨ ∃ call ∈ calls, majorIndex index ≤ majorIndex call.1 := by
  rw [size_boolsetRun]
  induction calls with
  | nil => simp
  | cons call calls ih =>
    rw [List.map_cons, List.foldr_cons, lt_max_iff, ih, List.exists_mem_cons_iff, Nat.add_comm 1,
      Nat.lt_succ_iff]
    exact or_left_comm

/-- After any calls of `boolset_set` on a new set, and for any index: `boolset_get` and
`boolset_set` stay inside the array, and an index that is not covered reads as 0, exactly when the
index is below 64 or some call set an index in its word or behind it. -/
theorem boolset_get_inside_iff (calls : List (BoolsetType × ℤ)) (index : BoolsetType) :
    (boolsetRun boolsetCreate calls).Accessible index ↔
      index.toNat / 64 = 0 ∨ ∃ call ∈ calls, index.toNat / 64 ≤ call.1.toNat / 64 :=
  Boolset.accessible_iff.trans (majorIndex_lt_size_boolsetRun calls index)

/-- On a new set, `boolset_get` reads the second word for the index 64. -/
theorem boolset_get_reads_outside : ¬ ∀ (calls : List (BoolsetType × ℤ)) (index : BoolsetType),
    (boolsetRun boolsetCreate calls).Accessible index := by
  intro hall
  obtain ⟨val, hget, -⟩ := (hall [] 64).get
  have houtside : boolsetGet boolsetCreate 64 = none := by decide
  rw [boolsetRun, List.foldl_nil, houtside] at hget
  cases hget

end C10K
