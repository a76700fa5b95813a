import C10K.Boolset.Foreach
import C10K.Boolset.Refinement

/-!
# What `boolset_foreach` visits

The members of a set come in increasing order, so a callback that keeps the set, or that clears the
bit of its index as `disconnect_all_foreach` does, is called once for each of them, from the least
on.
-/

namespace C10K

variable {σ : Type*} {getSet : σ → Boolset} {callback : σ → BoolsetType → σ} {s : σ}
variable {set : Boolset} {i j : BoolsetType} {major : ℕ}

/-! ### The members come in order -/

lemma toNat_eq (index : BoolsetType) : index.toNat = majorIndex index * 64 + minorIndex index :=
  (Nat.div_add_mod' index.toNat 64).symm

lemma toNat_ofNat_index {minor : ℕ} (hmajor : major < 2 ^ 58) (hminor : minor < 64) :
    (BitVec.ofNat 64 (major * 64 + minor)).toNat = major * 64 + minor := by
  rw [toNat_eq, majorIndex_ofNat hmajor hminor, minorIndex_ofNat hmajor hminor]

/-- The members of one word come in increasing order. -/
lemma pairwise_wordMembers (set : Boolset) (hmajor : major < 2 ^ 58) :
    (set.wordMembers major).Pairwise fun i j => i.toNat < j.toNat := by
  rw [Boolset.wordMembers, List.pairwise_map]
  apply (List.pairwise_lt_range.filter _).imp_of_mem
  intro a b ha hb hlt
  have ha := List.mem_range.mp (List.mem_of_mem_filter ha)
  have hb := List.mem_range.mp (List.mem_of_mem_filter hb)
  rw [toNat_ofNat_index hmajor ha, toNat_ofNat_index hmajor hb]
  omega

/-- The members of a set come in increasing order. -/
lemma pairwise_members (hsize : set.size ≤ 2 ^ 58) :
    set.members.Pairwise fun i j => i.toNat < j.toNat := by
  rw [Boolset.members, List.pairwise_flatMap]
  constructor
  · intro major hmajor
    exact pairwise_wordMembers set ((List.mem_range.mp hmajor).trans_le hsize)
  · apply List.pairwise_lt_range.imp_of_mem
    intro a b ha hb hlt i hi j hj
    obtain ⟨rfl, -⟩ := (mem_wordMembers ((List.mem_range.mp ha).trans_le hsize)).mp hi
    obtain ⟨rfl, -⟩ := (mem_wordMembers ((List.mem_range.mp hb).trans_le hsize)).mp hj
    have := minorIndex_lt i
    rw [toNat_eq i, toNat_eq j]
    omega

/-! ### Callbacks -/

/-- The callback leaves the set alone. -/
def LeavesSet (getSet : σ → Boolset) (callback : σ → BoolsetType → σ) : Prop :=
  ∀ s i, getSet (callback s i) = getSet s

/-- The callback clears the bit of its index in the set. -/
def ClearsIndex (getSet : σ → Boolset) (callback : σ → BoolsetType → σ) : Prop :=
  ∀ s i, getSet (callback s i) = boolsetSet (getSet s) i 0

lemma LeavesSet.keepsOthers (h : LeavesSet getSet callback) : KeepsOthers getSet callback where
  size s i _ := by rw [h s i]
  word s i _ _ := by rw [h s i]

lemma ClearsIndex.keepsOthers (h : ClearsIndex getSet callback) : KeepsOthers getSet callback where
  size s i hi := by
    rw [h s i, size_boolsetSet]
    exact max_eq_left hi
  word s i _ hmajor := by
    rw [h s i]
    exact word_boolsetSet _ _ _ hmajor

/-- Calls for covered indices clear their bits and keep the size and every other bit. -/
lemma ClearsIndex.foldl (h : ClearsIndex getSet callback) (l : List BoolsetType)
    (hl : ∀ i ∈ l, majorIndex i < (getSet s).size) :
    (getSet (l.foldl callback s)).size = (getSet s).size ∧
      ∀ j, (getSet (l.foldl callback s)).bit j = if j ∈ l then false else (getSet s).bit j := by
  induction l generalizing s with
  | nil => exact ⟨rfl, fun j => (if_neg List.not_mem_nil).symm⟩
  | cons i l ih =>
    have hsize : (getSet (callback s i)).size = (getSet s).size :=
      h.keepsOthers.size s i (hl i List.mem_cons_self)
    obtain ⟨hsize', hbit⟩ := ih (s := callback s i) fun j hj =>
      hsize ▸ hl j (List.mem_cons_of_mem _ hj)
    refine ⟨hsize'.trans hsize, fun j => ?_⟩
    rw [List.foldl_cons, hbit, h s i, bit_boolsetSet]
    by_cases hj : j ∈ l
    · rw [if_pos hj, if_pos (List.mem_cons_of_mem _ hj)]
    · by_cases hji : j = i
      · simp [hji]
      · simp [hj, hji]

lemma size_boolsetRun_le (calls : List (BoolsetType × ℤ)) :
    (boolsetRun boolsetCreate calls).size ≤ 2 ^ 58 := by
  induction calls using List.reverseRecOn with
  | nil => exact Nat.one_le_two_pow
  | append_singleton calls call ih =>
    rw [boolsetRun_snoc]
    exact size_boolsetSet_le ih _ _

/-- On a set that `boolset_set` calls built, `boolset_foreach` with a callback that leaves the set
alone, or that clears the bit of its index, calls it once for each index whose bit is set at the
start, in increasing order, and for no other. In the second case it leaves every bit clear and the
size as it was. -/
theorem boolset_foreach_visits (calls : List (BoolsetType × ℤ))
    (hset : getSet s = boolsetRun boolsetCreate calls)
    (hcallback : LeavesSet getSet callback ∨ ClearsIndex getSet callback) :
    ∃ visited : List BoolsetType,
      visited.Pairwise (fun i j => i.toNat < j.toNat) ∧
      (∀ i, i ∈ visited ↔ (getSet s).bit i = true) ∧
      boolsetForeach getSet callback s = some (visited.foldl callback s) ∧
      (ClearsIndex getSet callback →
        (getSet (visited.foldl callback s)).size = (getSet s).size ∧
          ∀ i, (getSet (visited.foldl callback s)).bit i = false) := by
  have hsize : (getSet s).size ≤ 2 ^ 58 := by
    rw [hset]
    exact size_boolsetRun_le calls
  have hkeeps : KeepsOthers getSet callback := by
    rcases hcallback with hleaves | hclears
    · exact hleaves.keepsOthers
    · exact hclears.keepsOthers
  have hmem : ∀ i, i ∈ (getSet s).members ↔ (getSet s).bit i = true := fun i => mem_members hsize
  refine ⟨(getSet s).members, pairwise_members hsize, hmem, boolsetForeach_eq hkeeps hsize, ?_⟩
  intro hclears
  obtain ⟨hsize', hbit⟩ := hclears.foldl (getSet s).members fun i hi =>
    majorIndex_lt_of_bit ((hmem i).mp hi)
  refine ⟨hsize', fun i => ?_⟩
  rw [hbit]
  split_ifs with hi
  · rfl
  · exact Bool.eq_false_iff.mpr fun hset => hi ((hmem i).mpr hset)

/-- A callback that clears the bits of a set with the members 3 and 70, and notes the indices. -/
theorem boolset_foreach_visits_two :
    let set := boolsetRun boolsetCreate [(70, 1), (3, 1), (5, 1), (5, 0)]
    ∃ visited : List BoolsetType,
      visited.Pairwise (fun i j => i.toNat < j.toNat) ∧
      (∀ i, i ∈ visited ↔ set.bit i = true) ∧
      ∃ s, boolsetForeach Prod.fst (fun s i => (boolsetSet s.1 i 0, s.2 ++ [i])) (set, []) =
        some s ∧ s.1.size = 2 ∧ ∀ i, s.1.bit i = false := by
  intro set
  have hclears : ClearsIndex (σ := Boolset × List BoolsetType) Prod.fst
      (fun s i => (boolsetSet s.1 i 0, s.2 ++ [i])) := fun _ _ => rfl
  obtain ⟨visited, hincreasing, hmem, hrun, hclear⟩ :=
    boolset_foreach_visits (s := (set, [])) _ rfl (.inr hclears)
  obtain ⟨hsize, hbit⟩ := hclear hclears
  have hset : set.size = 2 := by decide
  exact ⟨visited, hincreasing, hmem, _, hrun, hsize.trans hset, hbit⟩

end C10K
