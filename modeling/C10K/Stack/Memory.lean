import C10K.Lib.SharedHeap
import C10K.Stack.Basic

/-!
# The nodes of `stack.c`

The functions of `stack.c` over a heap in which every node is a block of its own. Each gets the
address that `malloc` returns to it. The list of `Stack.Basic` is what they implement: a chain of
nodes stands for the list of its `data`, and no node is used after it was freed, freed twice or
forgotten.
-/

namespace C10K.Memory

variable {W : Type} [Zero W] [DecidableEq W]

/-- `struct stack`. -/
structure Stack (W : Type) where
  top : W
deriving DecidableEq

/-- The field `prev` of a `stack_node`. -/
def prevSlot : ℕ := 0

/-- The field `data` of a `stack_node`. -/
def dataSlot : ℕ := 1

/-! ### The functions -/

def stackCreate : Stack W := ⟨0⟩

def stackPush (s : Stack W) (val newNode : W) (h : Heap W) : Option (Stack W × Heap W) := do
  let h ← h.malloc newNode 2
  let h ← h.store newNode dataSlot val
  let h ← h.store newNode prevSlot s.top
  return (⟨newNode⟩, h)

def stackPop (s : Stack W) (h : Heap W) : Option (W × Stack W × Heap W) := do
  let val ← h.load s.top dataSlot
  let newTop ← h.load s.top prevSlot
  let h ← h.free s.top
  return (val, ⟨newTop⟩, h)

def stackIsEmpty (s : Stack W) : Bool := s.top == 0

/-- The loop of `stack_empty`, for at most so many nodes. -/
def stackEmptyLoop (s : Stack W) (h : Heap W) : ℕ → Option (Stack W × Heap W)
  | 0     => if s.top ≠ 0 then none else some (s, h)
  | n + 1 =>
    if s.top ≠ 0 then do
      let newTop ← h.load s.top prevSlot
      let h ← h.free s.top
      stackEmptyLoop ⟨newTop⟩ h n
    else some (s, h)

/-- Each turn of the loop frees a block, so that there are no more turns than blocks. -/
def stackEmpty (s : Stack W) (h : Heap W) : Option (Stack W × Heap W) :=
  stackEmptyLoop s h h.live.card

def stackDestroy (s : Stack W) (h : Heap W) : Option (Stack W × Heap W) := stackEmpty s h

/-! ### Chains of nodes -/

/-- A node with these fields. -/
def node (prev data : W) : Block W := #[some prev, some data]

/-- The nodes from `top` down hold the values `l`, and are the blocks `F`. -/
def Chain (h : Heap W) : List W → W → Finset W → Prop
  | [], top, F => top = 0 ∧ F = ∅
  | val :: l, top, F => ∃ prev F', h.block top = some (node prev val) ∧ top ∉ F' ∧
      F = insert top F' ∧ Chain h l prev F'

section Chains

variable {h h' : Heap W} {l : List W} {top val a : W} {F : Finset W} {s : Stack W}

lemma Chain.live (hl : Chain h l top F) : ∀ a ∈ F, h.block a ≠ none := by
  induction l generalizing top F with
  | nil =>
    obtain ⟨-, rfl⟩ := hl
    intro a ha
    exact absurd ha (Finset.notMem_empty a)
  | cons val l ih =>
    obtain ⟨prev, F', hnode, -, rfl, hl⟩ := hl
    intro a ha
    rcases Finset.mem_insert.mp ha with rfl | ha
    · rw [hnode]
      exact Option.some_ne_none _
    · exact ih hl a ha

lemma Chain.congr (hl : Chain h l top F) (hF : ∀ a ∈ F, h'.block a = h.block a) :
    Chain h' l top F := by
  induction l generalizing top F with
  | nil => exact hl
  | cons val l ih =>
    obtain ⟨prev, F', hnode, htop, rfl, hl⟩ := hl
    refine ⟨prev, F', ?_, htop, rfl, ih hl fun a ha => hF a (Finset.mem_insert_of_mem ha)⟩
    rw [hF top (Finset.mem_insert_self _ _), hnode]

lemma Chain.card (hl : Chain h l top F) : F.card = l.length := by
  induction l generalizing top F with
  | nil =>
    obtain ⟨-, rfl⟩ := hl
    rfl
  | cons val l ih =>
    obtain ⟨prev, F', -, htop, rfl, hl⟩ := hl
    rw [Finset.card_insert_of_notMem htop, ih hl, List.length_cons]

/-- A heap has as many blocks as a chain in it has nodes. -/
lemma Chain.length_le (hl : Chain h l top F) : l.length ≤ h.live.card := by
  rw [← hl.card]
  exact Finset.card_le_card fun a ha => (h.mem_live a).mpr (hl.live a ha)

lemma Chain.top_eq_zero_iff (hl : Chain h l top F) : top = 0 ↔ l = [] := by
  cases l with
  | nil => exact iff_of_true hl.1 rfl
  | cons val l =>
    obtain ⟨prev, F', hnode, -⟩ := hl
    exact iff_of_false (h.ne_zero hnode) (List.cons_ne_nil _ _)

/-! ### What the functions do to a chain -/

lemma stackPush_spec (hl : Chain h l s.top F) (ha : h.Free a) (val : W) :
    ∃ s' h', stackPush s val a h = some (s', h') ∧
      Chain h' (C10K.stackPush l val) s'.top (insert a F) ∧ h.Turns F (insert a F) h' := by
  have hnew : a ∉ F := fun haF => hl.live a haF ha.2
  obtain ⟨h₁, hmalloc, hblock₁⟩ := Heap.malloc_eq ha 2
  have ha₁ : h₁.block a = some (Block.malloc 2) := by rw [hblock₁, Function.update_self]
  obtain ⟨h₂, hdata, hblock₂⟩ := Heap.store_eq (i := dataSlot) (v := val) ha₁ rfl
  have ha₂ : h₂.block a = some #[none, some val] := by rw [hblock₂, Function.update_self]; rfl
  obtain ⟨h₃, hprev, hblock₃⟩ := Heap.store_eq (i := prevSlot) (v := s.top) ha₂ rfl
  have hblock : h₃.block = Function.update h.block a (some (node s.top val)) := by
    rw [hblock₃, hblock₂, hblock₁, Function.update_idem, Function.update_idem]
    rfl
  refine ⟨⟨a⟩, h₃, ?_, ⟨s.top, F, ?_, hnew, rfl, ?_⟩, .of_malloc ha hblock⟩
  · simp only [stackPush, hmalloc, hdata, hprev, bind, Option.bind_some, pure]
  · rw [hblock, Function.update_self]
  · refine hl.congr fun b hb => ?_
    rw [hblock, Function.update_of_ne (ne_of_mem_of_not_mem hb hnew)]

/-- Taking the top node away. -/
lemma Chain.free (hl : Chain h (val :: l) top F) : ∃ prev F' h', h.load top dataSlot = some val ∧
    h.load top prevSlot = some prev ∧ h.free top = some h' ∧ Chain h' l prev F' ∧
    h.Turns F F' h' := by
  obtain ⟨prev, F', hnode, htop, rfl, hl⟩ := hl
  obtain ⟨h', hfree, hblock⟩ := Heap.free_eq hnode
  refine ⟨prev, F', h', ?_, ?_, hfree, ?_, .of_free htop hblock⟩
  · rw [Heap.load_eq hnode]
    rfl
  · rw [Heap.load_eq hnode]
    rfl
  · refine hl.congr fun b hb => ?_
    rw [hblock, Function.update_of_ne (ne_of_mem_of_not_mem hb htop)]

/-- `stack_pop` is defined where the list is not empty. -/
lemma stackPop_rel (hl : Chain h l s.top F) :
    Option.Rel (fun r p => r.1 = p.1 ∧ ∃ F', Chain r.2.2 p.2 r.2.1.top F' ∧ h.Turns F F' r.2.2)
      (stackPop s h) (C10K.stackPop l) := by
  cases l with
  | nil =>
    have hnull : h.load s.top dataSlot = none := by rw [hl.1, Heap.load, h.block_zero]; rfl
    simp only [stackPop, bind, hnull, Option.bind_none]
    exact .none
  | cons val l =>
    obtain ⟨prev, F', h', hdata, hprev, hfree, hl', hturns⟩ := hl.free
    simp only [stackPop, bind, hdata, hprev, hfree, Option.bind_some, pure]
    exact .some ⟨rfl, F', hl', hturns⟩

lemma stackIsEmpty_eq (hl : Chain h l s.top F) :
    stackIsEmpty s = C10K.stackIsEmpty l := by
  rw [stackIsEmpty, C10K.stackIsEmpty, Bool.eq_iff_iff, beq_iff_eq, List.isEmpty_iff]
  exact hl.top_eq_zero_iff

lemma stackEmptyLoop_spec (hl : Chain h l s.top F) {n : ℕ} (hn : l.length ≤ n) :
    ∃ h', stackEmptyLoop s h n = some (⟨0⟩, h') ∧ h.Turns F ∅ h' := by
  induction l generalizing s h F n with
  | nil =>
    obtain ⟨top⟩ := s
    obtain ⟨rfl, rfl⟩ : top = 0 ∧ F = ∅ := hl
    refine ⟨h, ?_, .refl _ h⟩
    cases n <;> exact if_neg (not_not.mpr rfl)
  | cons val l ih =>
    obtain ⟨n, rfl⟩ := Nat.exists_eq_add_of_le' (Nat.one_le_of_lt hn)
    have htop : s.top ≠ 0 := fun htop => List.cons_ne_nil _ _ (hl.top_eq_zero_iff.mp htop)
    obtain ⟨prev, F', h₁, -, hprev, hfree, hl₁, hturns⟩ := hl.free
    obtain ⟨h', hloop, hrest⟩ := ih (s := ⟨prev⟩) hl₁ (Nat.le_of_succ_le_succ hn)
    refine ⟨h', ?_, hturns.trans hrest⟩
    rw [stackEmptyLoop, if_pos htop]
    simp only [bind, hprev, hfree, Option.bind_some]
    exact hloop

lemma stackEmpty_spec (hl : Chain h l s.top F) :
    ∃ h', stackEmpty s h = some (⟨0⟩, h') ∧ h.Turns F ∅ h' :=
  stackEmptyLoop_spec hl hl.length_le

end Chains

/-! ### The stack as an object -/

/-- A call of a function of `stack.c` on an existing stack. -/
inductive StackCall (W : Type) where
  | push (val : W)
  | pop
  | isEmpty
  | empty

def stackObject (W : Type) [Zero W] [DecidableEq W] :
    HeapObject W (StackCall W) (Output W) where
  Handle := Stack W
  create _ h := some (stackCreate, h)
  call
    | .push val, a, s, h => (stackPush s val a h).map fun r => (.void, r)
    | .pop, _, s, h      => (stackPop s h).map fun r => (.word r.1, r.2)
    | .isEmpty, _, s, h  => some (.int (stackIsEmpty s).toNat, s, h)
    | .empty, _, s, h    => (stackEmpty s h).map fun r => (.void, r)
  destroy s h := (stackDestroy s h).map Prod.snd

/-- The list that a stack is. -/
def stackValue (W : Type) : ValueObject (StackCall W) (Output W) where
  Value := C10K.Stack W
  initial := C10K.stackCreate
  call
    | .push val, l => some (.void, C10K.stackPush l val)
    | .pop, l      => (C10K.stackPop l).map fun p => (.word p.1, p.2)
    | .isEmpty, l  => some (.int (C10K.stackIsEmpty l).toNat, l)
    | .empty, l    => some (.void, C10K.stackEmpty l)

/-- The nodes implement the list. -/
def stackImplements (W : Type) [Zero W] [DecidableEq W] :
    (stackObject W).Implements (stackValue W) where
  Rep h s l F := Chain h l (Stack.top s) F
  live hl := hl.live
  congr hl := hl.congr
  create {h _} _ := ⟨stackCreate, h, ∅, rfl, ⟨rfl, rfl⟩, .refl _ h⟩
  call {h s l F a} k hl ha := by
    cases k with
    | push val =>
      obtain ⟨s', h', hpush, hl', hturns⟩ := stackPush_spec hl ha val
      simp only [stackObject, stackValue, hpush, Option.map_some]
      exact .some ⟨rfl, _, hl', hturns⟩
    | pop =>
      refine (stackPop_rel hl).map fun r p => ?_
      rintro ⟨hval, F', hl', hturns⟩
      exact ⟨congrArg _ hval, F', hl', hturns⟩
    | isEmpty =>
      simp only [stackObject, stackValue, stackIsEmpty_eq hl]
      exact .some ⟨rfl, F, hl, .refl F h⟩
    | empty =>
      obtain ⟨h', hempty, hturns⟩ := stackEmpty_spec hl
      have hnil : C10K.stackEmpty l = [] := C10K.stackDestroy_eq l
      simp only [stackObject, stackValue, hempty, hnil, Option.map_some]
      exact .some ⟨rfl, ∅, ⟨rfl, rfl⟩, hturns⟩
  destroy {h s l F} hl := by
    obtain ⟨h', hempty, hturns⟩ := stackEmpty_spec hl
    refine ⟨h', ?_, hturns⟩
    simp only [stackObject, stackDestroy, hempty, Option.map_some]

end C10K.Memory
