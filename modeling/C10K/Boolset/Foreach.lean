import C10K.Boolset.Basic

/-!
# `boolset_foreach`

The callback may change the set under iteration, as `disconnect_all_foreach` does. The size is read
before every word, and each word is read once, before its bits are tested. A callback that keeps the
size and all words but the one of its index is called for the members that the set has at the start.
-/

namespace C10K

variable {σ : Type*} {getSet : σ → Boolset} {callback : σ → BoolsetType → σ}
variable {set : Boolset} {i j : BoolsetType} {major minor n : ℕ} {s : σ} {l : List BoolsetType}

/-- `set->data[major_index]`, for a word of the array. -/
def Boolset.word (set : Boolset) (major : ℕ) : BoolsetType := set.data.getD major 0

/-- The inner loop of `boolset_foreach` over the bits of a word that was read as `value`. -/
def foreachMinor (callback : σ → BoolsetType → σ) (major : ℕ) (value : BoolsetType) (s : σ) : σ :=
  (List.range 64).foldl (fun s minor =>
    if value &&& ((1 : BoolsetType) <<< minor) = 0 then s
    else callback s (BitVec.ofNat 64 (major * 8 * 8 + minor))) s

/-- The outer loop of `boolset_foreach` from a word on, where `getSet` finds the set in the state of
the callback; `none` where the loop is not done after `fuel` words. -/
def foreachMajor (getSet : σ → Boolset) (callback : σ → BoolsetType → σ) : ℕ → ℕ → σ → Option σ
  | 0, major, s => if major < (getSet s).size then none else some s
  | fuel + 1, major, s =>
    if major < (getSet s).size then
      let value := (getSet s).word major
      foreachMajor getSet callback fuel (major + 1)
        (if value = 0 then s else foreachMinor callback major value s)
    else some s

def boolsetForeach (getSet : σ → Boolset) (callback : σ → BoolsetType → σ) (s : σ) : Option σ :=
  foreachMajor getSet callback (getSet s).size 0 s

lemma word_boolsetCover (set : Boolset) (index : BoolsetType) (major : ℕ) :
    (boolsetCover set index).word major = set.word major := by
  simp only [boolsetCover]
  split_ifs with hexpand
  · simp only [Boolset.word, boolsetExpand, Array.getD_eq_getD_getElem?, Array.getElem?_ofFn]
    split_ifs with hmajor
    · simp
    · have hout : set.data.size ≤ major := by
        rw [set.data_size]
        omega
      rw [Array.getElem?_eq_none hout]
  · rfl

/-- `boolset_set` changes the word of its own index and no other. -/
lemma word_boolsetSet (set : Boolset) (index : BoolsetType) (val : ℤ)
    (hmajor : major ≠ majorIndex index) :
    (boolsetSet set index val).word major = set.word major := by
  rw [← word_boolsetCover set index major]
  simp only [Boolset.word, boolsetSet, Array.getD_eq_getD_getElem?,
    Array.getElem?_set_ne (majorIndex_lt_boolsetCover set index) (Ne.symm hmajor)]

/-! ### The members of a set -/

/-- The indices of one word whose bit is set, in order. -/
def Boolset.wordMembers (set : Boolset) (major : ℕ) : List BoolsetType :=
  ((List.range 64).filter fun minor => (set.word major).getLsbD minor).map fun minor =>
    BitVec.ofNat 64 (major * 64 + minor)

/-- The indices whose bit is set, in order. -/
def Boolset.members (set : Boolset) : List BoolsetType :=
  (List.range set.size).flatMap set.wordMembers

lemma majorIndex_ofNat (hmajor : major < 2 ^ 58) (hminor : minor < 64) :
    majorIndex (BitVec.ofNat 64 (major * 64 + minor)) = major := by
  have hlt : major * 64 + minor < 2 ^ 64 := by omega
  rw [majorIndex, BitVec.toNat_ofNat, Nat.mod_eq_of_lt hlt]
  omega

lemma minorIndex_ofNat (hmajor : major < 2 ^ 58) (hminor : minor < 64) :
    minorIndex (BitVec.ofNat 64 (major * 64 + minor)) = minor := by
  have hlt : major * 64 + minor < 2 ^ 64 := by omega
  rw [minorIndex, BitVec.toNat_ofNat, Nat.mod_eq_of_lt hlt]
  omega

lemma majorIndex_lt (index : BoolsetType) : majorIndex index < 2 ^ 58 := by
  have := index.isLt
  rw [majorIndex]
  omega

lemma mem_wordMembers (hmajor : major < 2 ^ 58) :
    i ∈ set.wordMembers major ↔ majorIndex i = major ∧ set.bit i = true := by
  simp only [Boolset.wordMembers, List.mem_map, List.mem_filter, List.mem_range]
  constructor
  · rintro ⟨minor, ⟨hminor, hbit⟩, rfl⟩
    rw [Boolset.bit, majorIndex_ofNat hmajor hminor, minorIndex_ofNat hmajor hminor]
    exact ⟨rfl, hbit⟩
  · rintro ⟨rfl, hbit⟩
    refine ⟨minorIndex i, ⟨minorIndex_lt i, hbit⟩, ?_⟩
    rw [index_eq_iff, majorIndex_ofNat hmajor (minorIndex_lt i),
      minorIndex_ofNat hmajor (minorIndex_lt i)]
    exact ⟨rfl, rfl⟩

lemma majorIndex_lt_of_bit (h : set.bit i = true) : majorIndex i < set.size := by
  by_contra hout
  have hnone : set.data[majorIndex i]? = none := by
    rw [Array.getElem?_eq_none_iff, set.data_size]
    exact not_lt.mp hout
  simp [Boolset.bit, Array.getD_eq_getD_getElem?, hnone] at h

/-- The members are the indices whose bit is set. -/
theorem mem_members (hsize : set.size ≤ 2 ^ 58) : i ∈ set.members ↔ set.bit i = true := by
  simp only [Boolset.members, List.mem_flatMap, List.mem_range]
  constructor
  · rintro ⟨major, hmajor, hi⟩
    exact ((mem_wordMembers (hmajor.trans_le hsize)).mp hi).2
  · intro hbit
    refine ⟨majorIndex i, majorIndex_lt_of_bit hbit, ?_⟩
    exact (mem_wordMembers (majorIndex_lt i)).mpr ⟨rfl, hbit⟩

lemma size_boolsetSet_le (hsize : set.size ≤ 2 ^ 58) (index : BoolsetType) (val : ℤ) :
    (boolsetSet set index val).size ≤ 2 ^ 58 := by
  rw [size_boolsetSet]
  exact max_le hsize (majorIndex_lt index)

/-! ### The loop -/

/-- A callback that keeps the size of the set when it covers the index, and every word other than
that of the index. -/
structure KeepsOthers (getSet : σ → Boolset) (callback : σ → BoolsetType → σ) : Prop where
  size : ∀ s i, majorIndex i < (getSet s).size → (getSet (callback s i)).size = (getSet s).size
  word : ∀ s i major, major ≠ majorIndex i →
    (getSet (callback s i)).word major = (getSet s).word major

lemma word_and_shift_eq_zero (value : BoolsetType) (minor : ℕ) :
    value &&& ((1 : BoolsetType) <<< minor) = 0 ↔ value.getLsbD minor = false := by
  by_cases hminor : minor < 64
  · have hindex : minorIndex (BitVec.ofNat 64 minor) = minor := by
      simpa using minorIndex_ofNat (Nat.two_pow_pos 58) hminor
    have hmask := word_and_bitMask_ne_zero value (BitVec.ofNat 64 minor)
    rw [bitMask, hindex] at hmask
    rw [← not_iff_not, Bool.not_eq_false]
    exact hmask
  · have hmask : (1 : BoolsetType) <<< minor = 0#64 := BitVec.shiftLeft_eq_zero (by omega)
    rw [hmask, BitVec.and_zero, BitVec.getLsbD_of_ge value minor (by omega)]
    exact iff_of_true rfl rfl

/-- The inner loop calls back for the members of the word. -/
lemma foreachMinor_eq (callback : σ → BoolsetType → σ) (set : Boolset) (major : ℕ) (s : σ) :
    foreachMinor callback major (set.word major) s = (set.wordMembers major).foldl callback s := by
  rw [foreachMinor, Boolset.wordMembers, List.foldl_map, List.foldl_filter]
  congr 1
  funext s minor
  rw [Nat.mul_assoc]
  split_ifs with hzero hset hset
  · rw [(word_and_shift_eq_zero _ _).mp hzero] at hset
    cases hset
  · rfl
  · rfl
  · exact absurd ((word_and_shift_eq_zero _ _).mpr (Bool.not_eq_true _ ▸ hset)) hzero

/-- Calls for indices of one word keep the size and the other words. -/
lemma KeepsOthers.foldl (h : KeepsOthers getSet callback) (hl : ∀ i ∈ l, majorIndex i = major)
    (hmajor : major < (getSet s).size) :
    (getSet (l.foldl callback s)).size = (getSet s).size ∧
      ∀ w ≠ major, (getSet (l.foldl callback s)).word w = (getSet s).word w := by
  induction l generalizing s with
  | nil => exact ⟨rfl, fun _ _ => rfl⟩
  | cons i l ih =>
    have hi : majorIndex i = major := hl i List.mem_cons_self
    have hsize := h.size s i (hi ▸ hmajor)
    obtain ⟨hsize', hword'⟩ := ih (s := callback s i)
      (fun j hj => hl j (List.mem_cons_of_mem _ hj)) (hsize ▸ hmajor)
    refine ⟨hsize'.trans hsize, fun w hw => ?_⟩
    exact (hword' w hw).trans (h.word s i w (hi ▸ hw))

/-- The loop from a word on, as long as no call changed a later word. -/
lemma foreachMajor_eq (h : KeepsOthers getSet callback) (hsize : (getSet s).size = major + n)
    (hle : major + n ≤ 2 ^ 58) (hword : ∀ w, major ≤ w → (getSet s).word w = set.word w) :
    foreachMajor getSet callback n major s =
      some (((List.range' major n).flatMap set.wordMembers).foldl callback s) := by
  induction n generalizing major s with
  | zero => simp [foreachMajor, hsize]
  | succ n ih =>
    have hmajor : major < (getSet s).size := by omega
    have hmember : ∀ i ∈ set.wordMembers major, majorIndex i = major := fun i hi =>
      ((mem_wordMembers (by omega)).mp hi).1
    obtain ⟨hsize', hword'⟩ := h.foldl hmember hmajor
    have hskip : (if (getSet s).word major = 0 then s
        else foreachMinor callback major ((getSet s).word major) s) =
        (set.wordMembers major).foldl callback s := by
      rw [hword major le_rfl, foreachMinor_eq]
      split_ifs with hzero
      · simp [Boolset.wordMembers, hzero]
      · rfl
    rw [foreachMajor, if_pos hmajor]
    simp only [hskip]
    rw [ih (by omega) (by omega), List.range'_succ, List.flatMap_cons, List.foldl_append]
    intro w hw
    rw [hword' w (by omega), hword w (by omega)]

/-- `boolset_foreach` calls back for the members of the set at the start, in order. -/
theorem boolsetForeach_eq (h : KeepsOthers getSet callback) (hsize : (getSet s).size ≤ 2 ^ 58) :
    boolsetForeach getSet callback s = some ((getSet s).members.foldl callback s) := by
  rw [boolsetForeach, foreachMajor_eq h (by omega) (by omega) fun _ _ => rfl, Boolset.members,
    List.range_eq_range']

end C10K
