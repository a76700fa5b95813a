import C10K.Lib.Ring

/-!
# A heap of blocks

Memory as `malloc` and `free` see it: which addresses are allocated, and the block at each. Where a
new block is put is up to the allocator, so `malloc` gets the address. Every operation is `none`
where a C program has undefined behaviour: an access outside a block, a read of a slot that was
never written, a use of a freed address or of the null pointer, a second `free`.

`Turns F F' h h'` says what may be assumed of the rest of the heap when a program turned the blocks
`F` into the blocks `F'`.
-/

/-- The allocated blocks by their addresses. The null pointer is the address of none. -/
structure Heap (W : Type*) [Zero W] where
  block : W → Option (Block W)
  live : Finset W
  mem_live : ∀ a, a ∈ live ↔ block a ≠ none
  block_zero : block 0 = none

namespace Block

variable {α : Type*}

/-- The first `n` slots get the value `v`. -/
def fill (d : Block α) (v : α) (n : ℕ) : Option (Block α) :=
  if n ≤ d.size then some (Array.ofFn fun i : Fin d.size => if i.1 < n then some v else d[i])
  else none

/-- The first `n` slots of `s` are copied. -/
def copy (d s : Block α) (n : ℕ) : Option (Block α) :=
  if n ≤ d.size ∧ n ≤ s.size then
    some (Array.ofFn fun i : Fin d.size => if i.1 < n then s[i.1]?.join else d[i]) else none

lemma fill_malloc (v : α) (n : ℕ) :
    (malloc n).fill v n = some (Array.replicate n (some v)) := by
  have hsize : n ≤ (malloc n : Block α).size := (size_malloc n).ge
  rw [fill, if_pos hsize]
  congr 1
  apply Array.ext
  · rw [Array.size_ofFn, Array.size_replicate, size_malloc]
  · intro i hi hi'
    rw [Array.getElem_ofFn, Array.getElem_replicate, if_pos (by rwa [Array.size_replicate] at hi')]

/-- An array is copied to the start of a block that holds one value. -/
lemma copy_replicate (v : α) (xs : Array α) {n : ℕ} (hn : xs.size ≤ n) :
    copy (Array.replicate n (some v)) (xs.map some) xs.size =
      some ((Array.ofFn fun i : Fin n => xs.getD i v).map some) := by
  have hsize : xs.size ≤ (Array.replicate n (some v)).size ∧ xs.size ≤ (xs.map some).size := by
    rw [Array.size_replicate, Array.size_map]
    exact ⟨hn, le_rfl⟩
  rw [copy, if_pos hsize]
  congr 1
  apply Array.ext
  · rw [Array.size_ofFn, Array.size_replicate, Array.size_map, Array.size_ofFn]
  · intro i hi hi'
    rw [Array.getElem_ofFn, Array.getElem_map, Array.getElem_ofFn, Array.getD_eq_getD_getElem?]
    split_ifs with hlt
    · rw [Array.getElem?_map, Array.getElem?_eq_getElem hlt]
      rfl
    · rw [Array.getElem?_eq_none (Nat.le_of_not_lt hlt)]
      exact Array.getElem_replicate _

end Block

/-- Two partial computations are defined for the same arguments, and their results are related. -/
lemma Option.Rel.bind {α β γ δ : Type*} {R : α → β → Prop} {S : γ → δ → Prop} {x : Option α}
    {y : Option β} {f : α → Option γ} {g : β → Option δ} (h : Option.Rel R x y)
    (hf : ∀ a b, R a b → Option.Rel S (f a) (g b)) : Option.Rel S (x.bind f) (y.bind g) := by
  cases h with
  | none => exact .none
  | some hR => exact hf _ _ hR

lemma Option.Rel.isSome_eq {α β : Type*} {R : α → β → Prop} {x : Option α} {y : Option β}
    (h : Option.Rel R x y) : x.isSome = y.isSome := by
  cases h with
  | none => rfl
  | some _ => rfl

lemma Option.Rel.imp {α β : Type*} {R S : α → β → Prop} {x : Option α} {y : Option β}
    (h : Option.Rel R x y) (himp : ∀ a b, R a b → S a b) : Option.Rel S x y := by
  cases h with
  | none => exact .none
  | some hR => exact .some (himp _ _ hR)

lemma Option.Rel.map {α β γ δ : Type*} {R : α → β → Prop} {S : γ → δ → Prop} {x : Option α}
    {y : Option β} {f : α → γ} {g : β → δ} (h : Option.Rel R x y)
    (hf : ∀ a b, R a b → S (f a) (g b)) : Option.Rel S (x.map f) (y.map g) := by
  cases h with
  | none => exact .none
  | some hR => exact .some (hf _ _ hR)

lemma Option.Rel.comp {α β γ : Type*} {R : α → β → Prop} {S : β → γ → Prop} {x : Option α}
    {y : Option β} {z : Option γ} (h : Option.Rel R x y) (h' : Option.Rel S y z) :
    Option.Rel (fun a c => ∃ b, R a b ∧ S b c) x z := by
  cases h with
  | none =>
    cases h'
    exact .none
  | some hR =>
    cases h' with
    | some hS => exact .some ⟨_, hR, hS⟩

namespace Heap

variable {W : Type*} [Zero W] {h h' h'' : Heap W} {a b : W} {i n : ℕ} {v : W} {d d' : Block W}

def empty : Heap W where
  block _ := none
  live := ∅
  mem_live a := by simp
  block_zero := rfl

/-- An address that `malloc` may give to a new block. -/
def Free (h : Heap W) (a : W) : Prop := a ≠ 0 ∧ h.block a = none

lemma ne_zero (h : Heap W) (ha : h.block a = some d) : a ≠ 0 := by
  rintro rfl
  rw [h.block_zero] at ha
  cases ha

/-! ### The operations -/

section Operations

variable [DecidableEq W]

instance : DecidablePred h.Free := fun a =>
  decidable_of_iff (a ≠ 0 ∧ (h.block a).isNone) (and_congr_right' Option.isNone_iff_eq_none)

/-- Put a block at an address, or take the one there away. -/
def put (h : Heap W) (a : W) (d : Option (Block W)) (ha : a ≠ 0) : Heap W where
  block := Function.update h.block a d
  live := if d.isSome then insert a h.live else h.live.erase a
  mem_live b := by
    by_cases hba : b = a
    · subst hba
      cases d <;> simp
    · cases d <;> simp [hba, h.mem_live]
  block_zero := by rw [Function.update_of_ne ha.symm, h.block_zero]

/-- A new block of `n` slots at the address that the allocator chose. -/
def malloc (h : Heap W) (a : W) (n : ℕ) : Option (Heap W) :=
  if ha : h.Free a then some (h.put a (some (Block.malloc n)) ha.1) else none

/-- Nothing happens to the null pointer. -/
def free (h : Heap W) (a : W) : Option (Heap W) :=
  if ha : a = 0 then some h else (h.block a).map fun _ => h.put a none ha

def load (h : Heap W) (a : W) (i : ℕ) : Option W := (h.block a).bind (·.load i)

/-- Change the block at an address. -/
def modify (h : Heap W) (a : W) (f : Block W → Option (Block W)) : Option (Heap W) :=
  if ha : a = 0 then none else (h.block a).bind fun d => (f d).map fun d' => h.put a (some d') ha

def store (h : Heap W) (a : W) (i : ℕ) (v : W) : Option (Heap W) := h.modify a (·.store i v)

def memset (h : Heap W) (a : W) (v : W) (n : ℕ) : Option (Heap W) := h.modify a (·.fill v n)

def memcpy (h : Heap W) (dst src : W) (n : ℕ) : Option (Heap W) :=
  (h.block src).bind fun s => h.modify dst (·.copy s n)

lemma block_put (ha : a ≠ 0) (o : Option (Block W)) :
    (h.put a o ha).block = Function.update h.block a o := rfl

lemma malloc_eq (ha : h.Free a) (n : ℕ) :
    ∃ h', h.malloc a n = some h' ∧ h'.block = Function.update h.block a (some (Block.malloc n)) :=
  ⟨_, dif_pos ha, rfl⟩

lemma free_eq (ha : h.block a = some d) :
    ∃ h', h.free a = some h' ∧ h'.block = Function.update h.block a none := by
  refine ⟨h.put a none (h.ne_zero ha), ?_, rfl⟩
  rw [free, dif_neg (h.ne_zero ha), ha, Option.map_some]

omit [DecidableEq W] in
lemma load_eq (ha : h.block a = some d) (i : ℕ) : h.load a i = d.load i := by
  rw [load, ha, Option.bind_some]

/-- A block is changed where the change is defined. -/
lemma rel_modify (ha : h.block a = some d) (f : Block W → Option (Block W)) :
    Option.Rel (fun h' d' => h'.block = Function.update h.block a (some d'))
      (h.modify a f) (f d) := by
  rw [modify, dif_neg (h.ne_zero ha), ha, Option.bind_some]
  cases f d with
  | none => exact .none
  | some d' => exact .some rfl

lemma modify_eq {f : Block W → Option (Block W)} (ha : h.block a = some d) (hf : f d = some d') :
    ∃ h', h.modify a f = some h' ∧ h'.block = Function.update h.block a (some d') := by
  refine ⟨h.put a (some d') (h.ne_zero ha), ?_, rfl⟩
  rw [modify, dif_neg (h.ne_zero ha), ha, Option.bind_some, hf, Option.map_some]

lemma store_eq (ha : h.block a = some d) (hd : d.store i v = some d') :
    ∃ h', h.store a i v = some h' ∧ h'.block = Function.update h.block a (some d') :=
  modify_eq (f := (·.store i v)) ha hd

lemma memset_eq (ha : h.block a = some d) (hd : d.fill v n = some d') :
    ∃ h', h.memset a v n = some h' ∧ h'.block = Function.update h.block a (some d') :=
  modify_eq (f := (·.fill v n)) ha hd

lemma memcpy_eq {s : Block W} (ha : h.block a = some d) (hb : h.block b = some s)
    (hd : d.copy s n = some d') :
    ∃ h', h.memcpy a b n = some h' ∧ h'.block = Function.update h.block a (some d') := by
  rw [memcpy, hb, Option.bind_some]
  exact modify_eq (f := (·.copy s n)) ha hd

end Operations

/-! ### What a program changes -/

/-- The blocks `F` were turned into the blocks `F'`: every other block is what it was, what is new
was free before, and what is not kept was freed. -/
structure Turns (F F' : Finset W) (h h' : Heap W) : Prop where
  frame : ∀ a, a ∉ F → a ∉ F' → h'.block a = h.block a
  fresh : ∀ a ∈ F', a ∉ F → h.block a = none
  freed : ∀ a ∈ F, a ∉ F' → h'.block a = none

namespace Turns

variable {F F' F'' : Finset W}

lemma refl (F : Finset W) (h : Heap W) : Turns F F h h where
  frame _ _ _ := rfl
  fresh _ ha hna := absurd ha hna
  freed _ ha hna := absurd ha hna

lemma trans (h₁ : Turns F F' h h') (h₂ : Turns F' F'' h' h'') : Turns F F'' h h'' := by
  constructor
  · intro a ha ha''
    by_cases ha' : a ∈ F'
    · rw [h₂.freed a ha' ha'', h₁.fresh a ha' ha]
    · rw [h₂.frame a ha' ha'', h₁.frame a ha ha']
  · intro a ha'' ha
    by_cases ha' : a ∈ F'
    · exact h₁.fresh a ha' ha
    · rw [← h₁.frame a ha ha', h₂.fresh a ha'' ha']
  · intro a ha ha''
    by_cases ha' : a ∈ F'
    · exact h₂.freed a ha' ha''
    · rw [h₂.frame a ha' ha'', h₁.freed a ha ha']

variable [DecidableEq W]

/-- A block of the program is changed. -/
lemma of_update (ha : a ∈ F) (hblock : h'.block = Function.update h.block a (some d)) :
    Turns F F h h' where
  frame b hb _ := by rw [hblock, Function.update_of_ne (ne_of_mem_of_not_mem ha hb).symm]
  fresh _ hb hnb := absurd hb hnb
  freed _ hb hnb := absurd hb hnb

/-- The program gets a new block. -/
lemma of_malloc (ha : h.Free a) (hblock : h'.block = Function.update h.block a (some d)) :
    Turns F (insert a F) h h' := by
  constructor
  · intro b _ hb
    rw [hblock, Function.update_of_ne (by rintro rfl; exact hb (Finset.mem_insert_self _ _))]
  · intro b hb hnb
    rw [(Finset.mem_insert.mp hb).resolve_right hnb]
    exact ha.2
  · intro b hb hnb
    exact absurd (Finset.mem_insert_of_mem hb) hnb

/-- The program frees one of its blocks. -/
lemma of_free (ha : a ∉ F) (hblock : h'.block = Function.update h.block a none) :
    Turns (insert a F) F h h' := by
  constructor
  · intro b hb _
    rw [hblock, Function.update_of_ne (by rintro rfl; exact hb (Finset.mem_insert_self _ _))]
  · intro b hb hnb
    exact absurd (Finset.mem_insert_of_mem hb) hnb
  · intro b hb hnb
    rw [(Finset.mem_insert.mp hb).resolve_right hnb, hblock, Function.update_self]

end Turns

end Heap
