import Mathlib

/-!
# The growing bit set of `boolset.c`

`BOOLSET_TYPE` is a 64-bit `unsigned long`; `data` is the array of `size` words. The size is part
of the type of a set, so a write of `boolset_set` carries the proof that it lies inside the array.
Allocation succeeds.
-/

namespace C10K

/-- `BOOLSET_TYPE`. -/
abbrev BoolsetType := BitVec 64

/-- `boolset_t`. -/
structure Boolset where
  size : ℕ
  data : Array BoolsetType
  data_size : data.size = size

variable {set : Boolset} {index i j : BoolsetType} {val : ℤ}

/-- The word that holds the bit of an index. -/
def majorIndex (index : BoolsetType) : ℕ := index.toNat / 64

/-- The place of the bit of an index in its word. -/
def minorIndex (index : BoolsetType) : ℕ := index.toNat % 64

def bitMask (index : BoolsetType) : BoolsetType := 1 <<< minorIndex index

def boolsetCreate : Boolset := ⟨1, #[0], rfl⟩

/-- A zeroed array of `newSize` words with the old words copied to its start. -/
def boolsetExpand (set : Boolset) (newSize : ℕ) : Boolset where
  size := newSize
  data := Array.ofFn fun word : Fin newSize => set.data.getD word 0
  data_size := Array.size_ofFn

/-- The first two lines of `boolset_set`: expand a set that does not cover the index. -/
def boolsetCover (set : Boolset) (index : BoolsetType) : Boolset :=
  let requiredSize := majorIndex index + 1
  if requiredSize > set.size then boolsetExpand set requiredSize else set

@[simp] lemma size_boolsetExpand (set : Boolset) (newSize : ℕ) :
    (boolsetExpand set newSize).size = newSize := rfl

lemma size_boolsetCover (set : Boolset) (index : BoolsetType) :
    (boolsetCover set index).size = max set.size (majorIndex index + 1) := by
  simp only [boolsetCover]
  split_ifs
  · rw [size_boolsetExpand]
    omega
  · omega

lemma majorIndex_lt_boolsetCover (set : Boolset) (index : BoolsetType) :
    majorIndex index < (boolsetCover set index).data.size := by
  rw [(boolsetCover set index).data_size, size_boolsetCover]
  omega

/-- Clear the bit of `index` in its word, then OR in the normalised value. -/
def boolsetSet (set : Boolset) (index : BoolsetType) (val : ℤ) : Boolset :=
  let set' := boolsetCover set index
  have hlt : majorIndex index < set'.data.size := majorIndex_lt_boolsetCover set index
  let val : BoolsetType := if val ≠ 0 then 1 else 0
  let word := set'.data[majorIndex index]
  { size := set'.size
    data := set'.data.set (majorIndex index) (word &&& ~~~bitMask index ||| bitMask index * val)
    data_size := by rw [Array.size_set]; exact set'.data_size }

/-- `none` where `data[major_index]` lies outside the array: nothing in the source guards it. -/
def boolsetGet (set : Boolset) (index : BoolsetType) : Option ℕ :=
  set.data[majorIndex index]?.map fun word => if word &&& bitMask index ≠ 0 then 1 else 0

/-! ### The bits of a set -/

/-- The bit of an index; every bit that the array does not cover is clear. -/
def Boolset.bit (set : Boolset) (index : BoolsetType) : Bool :=
  (set.data.getD (majorIndex index) 0).getLsbD (minorIndex index)

lemma minorIndex_lt (index : BoolsetType) : minorIndex index < 64 := Nat.mod_lt _ (by omega)

lemma index_eq_iff : i = j ↔ majorIndex i = majorIndex j ∧ minorIndex i = minorIndex j := by
  rw [BitVec.toNat_eq, majorIndex, majorIndex, minorIndex, minorIndex]
  omega

lemma bitMask_eq_twoPow (index : BoolsetType) :
    bitMask index = BitVec.twoPow 64 (minorIndex index) := (BitVec.twoPow_eq _ _).symm

lemma getLsbD_bitMask (index : BoolsetType) (k : ℕ) :
    (bitMask index).getLsbD k = decide (k = minorIndex index) := by
  rw [bitMask_eq_twoPow, BitVec.getLsbD_twoPow]
  simp [minorIndex_lt, eq_comm]

/-- A word after the clearing and the setting of one bit. -/
lemma getLsbD_setBit (word index : BoolsetType) (b : Prop) [Decidable b] {k : ℕ} (hk : k < 64) :
    (word &&& ~~~bitMask index ||| bitMask index * (if b then 1 else 0)).getLsbD k =
      if k = minorIndex index then decide b else word.getLsbD k := by
  have hmul : (bitMask index * (if b then 1 else 0)).getLsbD k =
      (decide (k = minorIndex index) && decide b) := by
    split_ifs with hb
    · rw [mul_one, getLsbD_bitMask, decide_eq_true hb, Bool.and_true]
    · rw [mul_zero, decide_eq_false hb, Bool.and_false]
      exact BitVec.getLsbD_zero
  rw [BitVec.getLsbD_or, BitVec.getLsbD_and, BitVec.getLsbD_not, hmul, getLsbD_bitMask]
  by_cases hki : k = minorIndex index
  · simp [hki]
  · simp [hki, hk]

lemma word_and_bitMask_ne_zero (word index : BoolsetType) :
    word &&& bitMask index ≠ 0 ↔ word.getLsbD (minorIndex index) = true := by
  have hne : BitVec.twoPow 64 (minorIndex index) ≠ 0 := by
    intro hzero
    have := congrArg BitVec.toNat hzero
    rw [BitVec.toNat_twoPow_of_lt (minorIndex_lt index)] at this
    exact (Nat.two_pow_pos _).ne' this
  rw [bitMask_eq_twoPow, BitVec.and_twoPow]
  split_ifs with hb
  · exact iff_of_true hne hb
  · exact iff_of_false (fun h => h rfl) hb

lemma boolsetGet_eq (set : Boolset) (index : BoolsetType) :
    boolsetGet set index =
      if majorIndex index < set.size then some (set.bit index).toNat else none := by
  by_cases hlt : majorIndex index < set.data.size
  · rw [if_pos (set.data_size ▸ hlt)]
    simp only [boolsetGet, Array.getElem?_eq_getElem hlt, Option.map_some,
      word_and_bitMask_ne_zero, Boolset.bit, Array.getD, hlt, ↓reduceDIte]
    cases (set.data[majorIndex index]).getLsbD (minorIndex index) <;> simp
  · rw [if_neg (set.data_size ▸ hlt), boolsetGet, Array.getElem?_eq_none (Nat.le_of_not_lt hlt),
      Option.map_none]

/-! ### What the operations do to the bits -/

lemma size_boolsetSet (set : Boolset) (index : BoolsetType) (val : ℤ) :
    (boolsetSet set index val).size = max set.size (majorIndex index + 1) :=
  size_boolsetCover set index

lemma bit_boolsetExpand {newSize : ℕ} (h : set.size ≤ newSize) (j : BoolsetType) :
    (boolsetExpand set newSize).bit j = set.bit j := by
  simp only [Boolset.bit, boolsetExpand, Array.getD_eq_getD_getElem?, Array.getElem?_ofFn]
  split_ifs with hj
  · simp
  · have hout : set.data.size ≤ majorIndex j := by
      rw [set.data_size]
      omega
    rw [Array.getElem?_eq_none hout]

/-- Expanding the set changes no bit. -/
lemma bit_boolsetCover (set : Boolset) (index j : BoolsetType) :
    (boolsetCover set index).bit j = set.bit j := by
  simp only [boolsetCover]
  split_ifs with h
  · exact bit_boolsetExpand h.le j
  · rfl

/-- `boolset_set` changes the bit of its own index and no other. -/
lemma bit_boolsetSet (set : Boolset) (index : BoolsetType) (val : ℤ) (j : BoolsetType) :
    (boolsetSet set index val).bit j = if j = index then decide (val ≠ 0) else set.bit j := by
  rw [← bit_boolsetCover set index j]
  have hlt := majorIndex_lt_boolsetCover set index
  by_cases hword : majorIndex j = majorIndex index
  · simp only [Boolset.bit, boolsetSet, hword, Array.getD_eq_getD_getElem?, Array.getElem?_set_self,
      Option.getD_some, Array.getElem?_eq_getElem hlt, index_eq_iff (i := j), true_and,
      getLsbD_setBit _ _ _ (minorIndex_lt j)]
  · have hne : j ≠ index := fun h => hword (h ▸ rfl)
    simp only [Boolset.bit, boolsetSet, hne, Array.getD_eq_getD_getElem?, ↓reduceIte,
      Array.getElem?_set_ne hlt (Ne.symm hword)]

@[simp] lemma bit_boolsetCreate (j : BoolsetType) : boolsetCreate.bit j = false := by
  simp only [Boolset.bit, boolsetCreate, Array.getD_eq_getD_getElem?]
  cases majorIndex j <;> simp

end C10K
