import C10K.Boolset.Foreach
import C10K.Lib.SharedHeap

/-!
# The array of `boolset.c`

The functions of `boolset.c` over a heap in which the array that `data` points to is a block of
64-bit words. They do what the functions of `Boolset.Basic` do, which have the array itself in the
place of the pointer. The callback of `boolset_foreach` only notes its index here.
-/

namespace C10K.Memory

/-- `boolset_t`, with the address of the array. -/
structure Boolset where
  size : ℕ
  data : BoolsetType
deriving DecidableEq

/-! ### The functions -/

def boolsetCreate (data : BoolsetType) (h : Heap BoolsetType) :
    Option (Boolset × Heap BoolsetType) := do
  let h ← h.malloc data 1
  let h ← h.memset data 0 1
  return ({ size := 1, data }, h)

def boolsetExpand (set : Boolset) (newSize : ℕ) (newData : BoolsetType) (h : Heap BoolsetType) :
    Option (Boolset × Heap BoolsetType) := do
  let h ← h.malloc newData newSize
  let h ← h.memset newData 0 newSize
  let h ← h.memcpy newData set.data set.size
  let h ← h.free set.data
  return ({ size := newSize, data := newData }, h)

/-- The first two lines of `boolset_set`: expand a set that does not cover the index. -/
def boolsetCover (set : Boolset) (index newData : BoolsetType) (h : Heap BoolsetType) :
    Option (Boolset × Heap BoolsetType) :=
  let requiredSize := majorIndex index + 1
  if requiredSize > set.size then boolsetExpand set requiredSize newData h else some (set, h)

/-- Clear the bit of `index` in its word, then OR in the normalised value. -/
def boolsetSet (set : Boolset) (index : BoolsetType) (val : ℤ) (newData : BoolsetType)
    (h : Heap BoolsetType) : Option (Boolset × Heap BoolsetType) := do
  let (set, h) ← boolsetCover set index newData h
  let val : BoolsetType := if val ≠ 0 then 1 else 0
  -- read for `temp`, which is not used
  let _ ← h.load set.data (majorIndex index)
  let word ← h.load set.data (majorIndex index)
  let h ← h.store set.data (majorIndex index) (word &&& ~~~bitMask index)
  let word ← h.load set.data (majorIndex index)
  let h ← h.store set.data (majorIndex index) (word ||| bitMask index * val)
  return (set, h)

def boolsetGet (set : Boolset) (index : BoolsetType) (h : Heap BoolsetType) : Option ℕ := do
  let word ← h.load set.data (majorIndex index)
  return if word &&& bitMask index ≠ 0 then 1 else 0

/-- The outer loop of `boolset_foreach` from a word on; `none` where it is not done after `fuel`
words. -/
def foreachMajor (set : Boolset) (h : Heap BoolsetType) :
    ℕ → ℕ → List BoolsetType → Option (List BoolsetType)
  | 0, major, s => if major < set.size then none else some s
  | fuel + 1, major, s =>
    if major < set.size then do
      let value ← h.load set.data major
      foreachMajor set h fuel (major + 1)
        (if value = 0 then s else foreachMinor (fun s i => s ++ [i]) major value s)
    else some s

def boolsetForeach (set : Boolset) (h : Heap BoolsetType) : Option (List BoolsetType) :=
  foreachMajor set h set.size 0 []

def boolsetDestroy (set : Boolset) (h : Heap BoolsetType) : Option (Heap BoolsetType) :=
  h.free set.data

/-! ### What they do to the array -/

/-- The array is the block that the handle points to. -/
structure Boolset.Holds (h : Heap BoolsetType) (c : Boolset) (data : Array BoolsetType) : Prop where
  size : c.size = data.size
  block : h.block c.data = some (data.map some)

section Array

variable {h : Heap BoolsetType} {c : Boolset} {data : Array BoolsetType} {set : C10K.Boolset}
variable {a index : BoolsetType} {major : ℕ}

/-- A word of the array can be read, and nothing else. -/
lemma Boolset.Holds.load (hc : c.Holds h data) (major : ℕ) :
    h.load c.data major = data[major]? := by
  rw [Heap.load_eq hc.block, Block.load, Array.getElem?_map]
  cases data[major]? <;> rfl

lemma Boolset.Holds.store (hc : c.Holds h data) (hlt : major < data.size) (word : BoolsetType) :
    ∃ h', h.store c.data major word = some h' ∧ c.Holds h' (data.set major word) ∧
      h.Turns {c.data} {c.data} h' := by
  have hstore := Block.store_of_lt (b := data.map some) (v := word) (i := major)
    (by rwa [Array.size_map])
  obtain ⟨h', hstore, hblock⟩ := Heap.store_eq hc.block hstore
  refine ⟨h', hstore, ⟨?_, ?_⟩, .of_update (Finset.mem_singleton_self _) hblock⟩
  · rw [Array.size_set, hc.size]
  · rw [hblock, Function.update_self, Array.map_set, Array.set!_eq_setIfInBounds,
      Array.setIfInBounds, dif_pos (by rwa [Array.size_map])]

/-- A new array of zeros. -/
lemma exists_zeros (ha : h.Free a) (n : ℕ) : ∃ h₁ h₂, h.malloc a n = some h₁ ∧
    h₁.memset a 0 n = some h₂ ∧
      h₂.block = Function.update h.block a (some (Array.replicate n (some 0))) := by
  obtain ⟨h₁, hmalloc, hblock₁⟩ := Heap.malloc_eq ha n
  have ha₁ : h₁.block a = some (Block.malloc n) := by rw [hblock₁, Function.update_self]
  obtain ⟨h₂, hmemset, hblock₂⟩ := Heap.memset_eq ha₁ (Block.fill_malloc 0 n)
  refine ⟨h₁, h₂, hmalloc, hmemset, ?_⟩
  rw [hblock₂, hblock₁, Function.update_idem]

lemma boolsetCreate_spec (ha : h.Free a) :
    ∃ h', boolsetCreate a h = some (⟨1, a⟩, h') ∧
      Boolset.Holds h' ⟨1, a⟩ C10K.boolsetCreate.data ∧ h.Turns ∅ {a} h' := by
  obtain ⟨h₁, h₂, hmalloc, hmemset, hblock⟩ := exists_zeros ha 1
  refine ⟨h₂, ?_, ⟨rfl, ?_⟩, .of_malloc ha hblock⟩
  · simp only [boolsetCreate, hmalloc, hmemset, bind, Option.bind_some, pure]
  · rw [hblock, Function.update_self, C10K.boolsetCreate, List.map_toArray]
    rfl

/-- The words are copied to a larger array, and the old one is freed. -/
lemma boolsetExpand_spec (hc : c.Holds h set.data) (ha : h.Free a) {newSize : ℕ}
    (hle : set.size ≤ newSize) :
    ∃ h', boolsetExpand c newSize a h = some (⟨newSize, a⟩, h') ∧
      Boolset.Holds h' ⟨newSize, a⟩ (C10K.boolsetExpand set newSize).data ∧
      h.Turns {c.data} {a} h' := by
  have hne : c.data ≠ a := by
    intro heq
    cases (heq ▸ hc.block).symm.trans ha.2
  obtain ⟨h₁, h₂, hmalloc, hmemset, hblock₂⟩ := exists_zeros ha newSize
  have hnew : h₂.block a = some (Array.replicate newSize (some 0)) := by
    rw [hblock₂, Function.update_self]
  have hold : h₂.block c.data = some (set.data.map some) := by
    rw [hblock₂, Function.update_of_ne hne, hc.block]
  have hcopy := Block.copy_replicate 0 set.data (set.data_size.trans_le hle)
  rw [← hc.size] at hcopy
  obtain ⟨h₃, hmemcpy, hblock₃⟩ := Heap.memcpy_eq hnew hold hcopy
  have hold₃ : h₃.block c.data = some (set.data.map some) := by
    rw [hblock₃, Function.update_of_ne hne, hold]
  obtain ⟨h₄, hfree, hblock₄⟩ := Heap.free_eq hold₃
  have hblock : h₃.block =
      Function.update h.block a (some ((C10K.boolsetExpand set newSize).data.map some)) := by
    rw [hblock₃, hblock₂, Function.update_idem]
    rfl
  refine ⟨h₄, ?_, ⟨(C10K.boolsetExpand set newSize).data_size.symm, ?_⟩, ?_⟩
  · simp only [boolsetExpand, hmalloc, hmemset, hmemcpy, hfree, bind, Option.bind_some, pure]
  · rw [hblock₄, Function.update_of_ne hne.symm, hblock, Function.update_self]
  · have hgrow : h.Turns {c.data} {c.data, a} h₃ := by
      rw [Finset.pair_comm]
      exact .of_malloc ha hblock
    exact hgrow.trans (.of_free (fun h => hne (Finset.mem_singleton.mp h)) hblock₄)

lemma boolsetCover_spec (hc : c.Holds h set.data) (ha : h.Free a) (index : BoolsetType) :
    ∃ c' h', boolsetCover c index a h = some (c', h') ∧
      c'.Holds h' (C10K.boolsetCover set index).data ∧ h.Turns {c.data} {c'.data} h' := by
  simp only [boolsetCover, C10K.boolsetCover, hc.size, set.data_size]
  split_ifs with hlt
  · obtain ⟨h', hexpand, hc', hturns⟩ := boolsetExpand_spec hc ha (Nat.le_of_lt hlt)
    exact ⟨_, h', hexpand, hc', hturns⟩
  · exact ⟨c, h, rfl, hc, .refl _ h⟩

/-- The two writes of `boolset_set` leave the word that `C10K.boolsetSet` writes. -/
lemma boolsetSet_spec (hc : c.Holds h set.data) (ha : h.Free a) (index : BoolsetType) (val : ℤ) :
    ∃ c' h', boolsetSet c index val a h = some (c', h') ∧
      c'.Holds h' (C10K.boolsetSet set index val).data ∧ h.Turns {c.data} {c'.data} h' := by
  obtain ⟨c₁, h₁, hcover, hc₁, hturns⟩ := boolsetCover_spec hc ha index
  have hlt := majorIndex_lt_boolsetCover set index
  have hload := hc₁.load (majorIndex index)
  rw [Array.getElem?_eq_getElem hlt] at hload
  obtain ⟨h₂, hstore₁, hc₂, hturns₁⟩ := hc₁.store hlt
    ((C10K.boolsetCover set index).data[majorIndex index] &&& ~~~bitMask index)
  have hload₂ := hc₂.load (majorIndex index)
  rw [Array.getElem?_set_self hlt] at hload₂
  obtain ⟨h₃, hstore₂, hc₃, hturns₂⟩ := hc₂.store (by rwa [Array.size_set])
    ((C10K.boolsetCover set index).data[majorIndex index] &&& ~~~bitMask index |||
      bitMask index * (if val ≠ 0 then 1 else 0))
  rw [Array.set_set] at hc₃
  refine ⟨c₁, h₃, ?_, hc₃, (hturns.trans hturns₁).trans hturns₂⟩
  simp only [boolsetSet, hcover, hload, hstore₁, hload₂, hstore₂, bind, Option.bind_some, pure]

/-- `boolset_get` reads outside the array for the same indices. -/
lemma boolsetGet_eq (hc : c.Holds h set.data) (index : BoolsetType) :
    boolsetGet c index h = C10K.boolsetGet set index := by
  simp only [boolsetGet, C10K.boolsetGet, hc.load, bind, pure]
  cases set.data[majorIndex index]? <;> rfl

lemma foreachMajor_eq (hc : c.Holds h set.data) (n major : ℕ) (s : List BoolsetType) :
    foreachMajor c h n major s =
      C10K.foreachMajor (fun _ => set) (fun s i => s ++ [i]) n major s := by
  have hsize : c.size = set.size := hc.size.trans set.data_size
  induction n generalizing major s with
  | zero => simp only [foreachMajor, C10K.foreachMajor, hsize]
  | succ n ih =>
    rw [foreachMajor, C10K.foreachMajor, hsize]
    by_cases hmajor : major < set.size
    · have hword : set.data[major]? = some (set.word major) := by
        rw [Array.getElem?_eq_getElem (set.data_size ▸ hmajor), C10K.Boolset.word,
          Array.getElem_eq_getD 0]
      rw [if_pos hmajor, if_pos hmajor, hc.load, hword]
      exact ih (major + 1) _
    · rw [if_neg hmajor, if_neg hmajor]

/-- `boolset_foreach` calls back for the members of the set, in order. -/
lemma boolsetForeach_eq (hc : c.Holds h set.data) (hsize : set.size ≤ 2 ^ 58) :
    boolsetForeach c h = some set.members := by
  have hkeeps : KeepsOthers (fun _ : List BoolsetType => set) fun s i => s ++ [i] :=
    ⟨fun _ _ _ => rfl, fun _ _ _ _ => rfl⟩
  have hmembers : set.members.foldl (fun s i => s ++ [i]) [] = set.members := by
    rw [List.foldl_append_eq_append, List.nil_append, ← List.flatMap_def, List.flatMap_singleton']
  rw [boolsetForeach, foreachMajor_eq hc, hc.size, set.data_size]
  exact (C10K.boolsetForeach_eq hkeeps (s := []) hsize).trans (congrArg some hmembers)

end Array

/-! ### The bit set as an object -/

/-- A call of a function of `boolset.c` on an existing set. -/
inductive BoolsetCall where
  | set (index : BoolsetType) (val : ℤ)
  | get (index : BoolsetType)
  | foreach

def boolsetObject : HeapObject BoolsetType BoolsetCall (Output BoolsetType) where
  Handle := Boolset
  create := boolsetCreate
  call
    | .set index val, a, c, h => (boolsetSet c index val a h).map fun r => (.void, r)
    | .get index, _, c, h     => (boolsetGet c index h).map fun val => (.int val, c, h)
    | .foreach, _, c, h       => (boolsetForeach c h).map fun l => (.calls l, c, h)
  destroy := boolsetDestroy

/-- The array of words that a bit set is. -/
def boolsetValue : ValueObject BoolsetCall (Output BoolsetType) where
  Value := C10K.Boolset
  initial := C10K.boolsetCreate
  call
    | .set index val, set => some (.void, C10K.boolsetSet set index val)
    | .get index, set     => (C10K.boolsetGet set index).map fun val => (.int val, set)
    | .foreach, set       => some (.calls set.members, set)

/-- The block implements the array. -/
def boolsetImplements : boolsetObject.Implements boolsetValue where
  Rep h c set F := Boolset.Holds h c set.data ∧ set.size ≤ 2 ^ 58 ∧ F = {c.data}
  live := by
    rintro h c set F ⟨hc, -, rfl⟩ a ha
    rw [Finset.mem_singleton.mp ha, hc.block]
    exact Option.some_ne_none _
  congr := by
    rintro h h' c set F ⟨hc, hsize, rfl⟩ hF
    exact ⟨⟨hc.size, (hF _ (Finset.mem_singleton_self _)).trans hc.block⟩, hsize, rfl⟩
  create {h a} ha := by
    obtain ⟨h', hcreate, hc, hturns⟩ := boolsetCreate_spec ha
    exact ⟨_, h', _, hcreate, ⟨hc, Nat.one_le_two_pow, rfl⟩, hturns⟩
  call := by
    rintro h c set F a k ⟨hc, hsize, rfl⟩ ha
    cases k with
    | set index val =>
      obtain ⟨c', h', hset, hc', hturns⟩ := boolsetSet_spec hc ha index val
      simp only [boolsetObject, boolsetValue, hset, Option.map_some]
      exact .some ⟨rfl, _, ⟨hc', size_boolsetSet_le hsize index val, rfl⟩, hturns⟩
    | get index =>
      simp only [boolsetObject, boolsetValue, boolsetGet_eq hc]
      cases C10K.boolsetGet set index with
      | none => exact .none
      | some val => exact .some ⟨rfl, _, ⟨hc, hsize, rfl⟩, .refl _ h⟩
    | foreach =>
      simp only [boolsetObject, boolsetValue, boolsetForeach_eq hc hsize, Option.map_some]
      exact .some ⟨rfl, _, ⟨hc, hsize, rfl⟩, .refl _ h⟩
  destroy := by
    rintro h c set F ⟨hc, -, rfl⟩
    obtain ⟨h', hfree, hblock⟩ := Heap.free_eq hc.block
    exact ⟨h', hfree, .of_free (Finset.notMem_empty _) hblock⟩

end C10K.Memory
