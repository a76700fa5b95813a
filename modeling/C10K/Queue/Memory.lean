import C10K.Lib.SharedHeap
import C10K.Queue.Refinement

/-!
# The array of `queue.c`

The functions of `queue.c` over a heap in which the array that `_data` points to is a block. They do
in lockstep what the functions of `Queue.Basic` do, which have the array itself in the place of the
pointer; so a queue stands for the list of its values, `q_push` is undefined from `2 ^ 30` values on
and `q_resize` beyond `2 ^ 30`, and no array is used after it was freed, freed twice or forgotten.
-/

namespace C10K.Memory

variable {W : Type} [Zero W] [DecidableEq W]

/-- `struct queue`, with the address of the array. -/
structure Queue (W : Type) where
  front : ℕ
  back : ℕ
  size : ℕ
  rangeMask : ℕ
  data : W
deriving DecidableEq

/-! ### The functions -/

def qCreate (data : W) (h : Heap W) : Option (Queue W × Heap W) := do
  let h ← h.malloc data customQueueDefaultSize
  return ({ front := 0, back := 0, size := 0, data, rangeMask := customQueueDefaultSize - 1 }, h)

def qIsEmpty (q : Queue W) : Bool := q.size == 0

def qNext (q : Queue W) (h : Heap W) : Option (W × Queue W) :=
  if q.size ≤ 0 then some (0, q)
  else do
    let next ← h.load q.data q.front
    return (next, { q with front := (q.front + 1) &&& q.rangeMask, size := q.size - 1 })

/-- The copy loop of `q_resize`: `new_data[i] = q_next(q)` for the `n` indices from `i` on. -/
def qMove (newData : W) (q : Queue W) (h : Heap W) (i : ℕ) : ℕ → Option (Queue W × Heap W)
  | 0     => some (q, h)
  | n + 1 => do
    let (next, q) ← qNext q h
    let h ← h.store newData i next
    qMove newData q h (i + 1) n

def qResize (q : Queue W) (newSize : ℕ) (newData : W) (h : Heap W) : Option (Queue W × Heap W) := do
  let newSize ← roundUp newSize
  if newSize = q.rangeMask + 1 then return (q, h)
  let h ← h.malloc newData newSize
  let moveSize := if q.size < newSize then q.size else newSize
  let (q, h) ← qMove newData q h 0 moveSize
  let h ← h.free q.data
  return ({ q with
    data := newData
    size := moveSize
    rangeMask := newSize - 1
    front := 0
    back := moveSize &&& (newSize - 1) }, h)

def qPush (q : Queue W) (val newData : W) (h : Heap W) : Option (Queue W × Heap W) := do
  let (q, h) ←
    if q.size ≥ q.rangeMask + 1 then qResize q ((q.rangeMask + 1) * 2) newData h else some (q, h)
  let h ← h.store q.data q.back val
  return ({ q with size := q.size + 1, back := (q.back + 1) &&& q.rangeMask }, h)

def qDestroy (q : Queue W) (h : Heap W) : Option (Heap W) := h.free q.data

/-! ### The lockstep -/

/-- The queue with its array at the address `a`. -/
@[simps] def Queue.at (q : C10K.Queue W) (a : W) : Queue W where
  front := q.front
  back := q.back
  size := q.size
  rangeMask := q.rangeMask
  data := a

section Lockstep

variable {h : Heap W} {q : C10K.Queue W} {a b : W} {d : Block W}

omit [DecidableEq W] in
lemma qNext_eq (ha : h.block a = some q.data) :
    qNext (.at q a) h = (C10K.qNext q).map fun p => (p.1, .at p.2 a) := by
  simp only [qNext, C10K.qNext, Queue.at, Heap.load_eq ha]
  split_ifs
  · rfl
  · cases q.data.load q.front <;> rfl

omit [DecidableEq W] in
lemma data_of_qNext {v : W} {q' : C10K.Queue W} (hq : C10K.qNext q = some (v, q')) :
    q'.data = q.data := by
  simp only [C10K.qNext, bind, pure] at hq
  split_ifs at hq
  · cases hq
    rfl
  · obtain ⟨next, -, hq⟩ := Option.bind_eq_some_iff.mp hq
    cases hq
    rfl

/-- The copy loop writes the new array and nothing else. -/
lemma qMove_rel (hab : a ≠ b) (ha : h.block a = some q.data) (hb : h.block b = some d) (i n : ℕ) :
    Option.Rel (fun r p => r.1 = .at p.2 a ∧ r.2.block = Function.update h.block b (some p.1) ∧
      p.2.data = q.data) (qMove b (.at q a) h i n) (C10K.qMove d q i n) := by
  induction n generalizing q h d i with
  | zero => exact .some ⟨rfl, by rw [← hb, Function.update_eq_self], rfl⟩
  | succ n ih =>
    simp only [qMove, C10K.qMove, qNext_eq ha, bind, Option.bind_map]
    cases hnext : C10K.qNext q with
    | none => exact .none
    | some p =>
      obtain ⟨next, q'⟩ := p
      have hdata : q'.data = q.data := data_of_qNext hnext
      refine (Heap.rel_modify hb (·.store i next)).bind fun h' d' hblock => ?_
      have ha' : h'.block a = some q'.data := by
        rw [hblock, Function.update_of_ne hab, ha, hdata]
      have hb' : h'.block b = some d' := by rw [hblock, Function.update_self]
      refine (ih ha' hb' (i + 1)).imp fun r p => ?_
      rintro ⟨hq, hblock', hdata'⟩
      refine ⟨hq, ?_, hdata'.trans hdata⟩
      rw [hblock', hblock, Function.update_idem]

/-- The queue `q'` has its array where the handle says, in the place of the array at `a`. -/
def Follows (h : Heap W) (a : W) (r : Queue W × Heap W) (q' : C10K.Queue W) : Prop :=
  r.1 = .at q' r.1.data ∧ r.2.block r.1.data = some q'.data ∧ h.Turns {a} {r.1.data} r.2

omit [DecidableEq W] in
lemma Follows.refl (ha : h.block a = some q.data) : Follows h a (.at q a, h) q :=
  ⟨rfl, ha, .refl _ h⟩

/-- `q_resize` moves the values to a new array and frees the old one, or changes nothing. -/
lemma qResize_rel (ha : h.block a = some q.data) (hb : h.Free b) (n : ℕ) :
    Option.Rel (Follows h a) (qResize (.at q a) n b h) (C10K.qResize q n) := by
  simp only [qResize, C10K.qResize, bind, pure, Queue.at_rangeMask, Queue.at_size]
  cases roundUp n with
  | none => exact .none
  | some newSize =>
    simp only [Option.bind_some]
    by_cases hsame : newSize = q.rangeMask + 1
    · rw [if_pos hsame, if_pos hsame]
      exact .some (.refl ha)
    · have hab : a ≠ b := by
        rintro rfl
        cases ha.symm.trans hb.2
      obtain ⟨h₁, hmalloc, hblock₁⟩ := Heap.malloc_eq hb newSize
      have ha₁ : h₁.block a = some q.data := by rw [hblock₁, Function.update_of_ne hab, ha]
      have hb₁ : h₁.block b = some (Block.malloc newSize) := by rw [hblock₁, Function.update_self]
      rw [if_neg hsame, if_neg hsame, hmalloc, Option.bind_some]
      refine (qMove_rel hab ha₁ hb₁ 0 _).bind fun r p => ?_
      obtain ⟨q', h₂⟩ := r
      rintro ⟨rfl, hblock₂, -⟩
      have ha₂ : h₂.block a = some q.data := by rw [hblock₂, Function.update_of_ne hab, ha₁]
      obtain ⟨h₃, hfree, hblock₃⟩ := Heap.free_eq ha₂
      have hb₃ : h₃.block b = some p.1 := by
        rw [hblock₃, Function.update_of_ne hab.symm, hblock₂, Function.update_self]
      have hgrow : h.Turns {a} {a, b} h₂ := by
        rw [Finset.pair_comm]
        refine .of_malloc hb (d := p.1) ?_
        rw [hblock₂, hblock₁, Function.update_idem]
      have hshrink : h₂.Turns {a, b} {b} h₃ :=
        .of_free (fun h => hab (Finset.mem_singleton.mp h)) hblock₃
      simp only [Queue.at_data, hfree, Option.bind_some]
      exact .some ⟨rfl, hb₃, hgrow.trans hshrink⟩

/-- Storing behind the newest value. -/
lemma Follows.store {c : Queue W} {h₁ : Heap W} {q' : C10K.Queue W} (hr : Follows h a (c, h₁) q')
    (val : W) : Option.Rel (Follows h a)
      ((h₁.store c.data c.back val).bind fun h₂ =>
        some ({ c with size := c.size + 1, back := (c.back + 1) &&& c.rangeMask }, h₂))
      ((q'.data.store q'.back val).bind fun data =>
        some { q' with data, size := q'.size + 1, back := (q'.back + 1) &&& q'.rangeMask }) := by
  obtain ⟨hc, hblock₁, hturns⟩ := hr
  change c = .at q' c.data at hc
  generalize c.data = b' at hc hblock₁ hturns
  subst hc
  refine (Heap.rel_modify hblock₁ (·.store q'.back val)).bind fun h₂ d hblock₂ =>
    .some ⟨rfl, ?_, ?_⟩
  · exact (congrFun hblock₂ b').trans (Function.update_self ..)
  · exact hturns.trans (.of_update (Finset.mem_singleton_self b') hblock₂)

lemma qPush_rel (ha : h.block a = some q.data) (hb : h.Free b) (val : W) :
    Option.Rel (Follows h a) (qPush (.at q a) val b h) (C10K.qPush q val) := by
  simp only [qPush, C10K.qPush, bind, pure, Queue.at_rangeMask, Queue.at_size]
  split_ifs
  · exact (qResize_rel ha hb _).bind fun r q' hr => hr.store val
  · exact (Follows.refl ha).store val

end Lockstep

/-! ### Where the functions are defined -/

section Defined

omit [DecidableEq W]

variable {q q' : C10K.Queue W} {n m : ℕ} {val : W}

/-- `q_push` on the list of the values. -/
def listPush (l : List W) (val : W) : Option (List W) :=
  if l.length < 2 ^ 30 then some (l ++ [val]) else none

/-- `q_resize` on the list of the values. -/
def listResize (l : List W) (n : ℕ) : Option (List W) :=
  if n ≤ 2 ^ 30 then some (l.take (2 ^ Nat.clog 2 n)) else none

/-- A well-formed queue that stands for the list, of at most `2 ^ 30` slots. -/
structure StandsFor (q : C10K.Queue W) (l : List W) : Prop where
  wf : q.WF
  capacity_le : q.rangeMask + 1 ≤ 2 ^ 30
  contents : q.contents = l

/-- 0 is rounded up to 1. -/
lemma qResize_zero (q : C10K.Queue W) : C10K.qResize q 0 = C10K.qResize q 1 := by
  have hround : roundUp 0 = roundUp 1 := by decide +kernel
  rw [C10K.qResize, hround, C10K.qResize]

/-- A capacity is a positive `int`. -/
lemma roundUp_bounds (h : roundUp n = some m) : 1 ≤ m ∧ m ≤ 2 ^ 30 := by
  have hshl : ∀ {k m}, oneShl k = some m → 1 ≤ m ∧ m ≤ 2 ^ 30 := by
    intro k m hk
    rw [oneShl, Option.ite_none_right_eq_some, Option.some.injEq, Nat.one_shiftLeft] at hk
    obtain ⟨hle, rfl⟩ := hk
    exact ⟨Nat.one_le_two_pow, Nat.pow_le_pow_right two_pos hle⟩
  simp only [roundUp, bind] at h
  obtain ⟨bit, -, hbit⟩ := Option.bind_eq_some_iff.mp h
  exact hshl hbit

lemma capacity_of_qResize (hq : q.rangeMask + 1 ≤ 2 ^ 30) (h : C10K.qResize q n = some q') :
    q'.rangeMask + 1 ≤ 2 ^ 30 := by
  simp only [C10K.qResize, bind, pure] at h
  obtain ⟨newSize, hround, h⟩ := Option.bind_eq_some_iff.mp h
  obtain ⟨hpos, hle⟩ := roundUp_bounds hround
  split_ifs at h
  · cases h
    exact hq
  all_goals
    obtain ⟨p, -, h⟩ := Option.bind_eq_some_iff.mp h
    cases h
    exact (Nat.sub_add_cancel hpos).trans_le hle

lemma capacity_of_qPush (hq : q.rangeMask + 1 ≤ 2 ^ 30) (h : C10K.qPush q val = some q') :
    q'.rangeMask + 1 ≤ 2 ^ 30 := by
  simp only [C10K.qPush, bind, pure] at h
  split_ifs at h
  · obtain ⟨q₁, hresize, h⟩ := Option.bind_eq_some_iff.mp h
    have hcap : q₁.rangeMask + 1 ≤ 2 ^ 30 := capacity_of_qResize hq hresize
    obtain ⟨data, -, h⟩ := Option.bind_eq_some_iff.mp h
    cases h
    exact hcap
  · rw [Option.bind_some] at h
    obtain ⟨data, -, h⟩ := Option.bind_eq_some_iff.mp h
    cases h
    exact hq

/-- A queue of `2 ^ 30` values is full, and cannot grow. -/
lemma qPush_eq_none {l : List W} (h : StandsFor q l) (hlen : 2 ^ 30 ≤ l.length) :
    C10K.qPush q val = none := by
  have hsize : 2 ^ 30 ≤ q.size := by rw [← h.wf.length_contents, h.contents]; exact hlen
  have hcap : q.rangeMask + 1 = 2 ^ 30 := h.capacity_le.antisymm (hsize.trans h.wf.size_le)
  have hfull : q.size ≥ q.rangeMask + 1 := hcap.symm ▸ hsize
  have hround : roundUp ((q.rangeMask + 1) * 2) = none := by
    rw [hcap, roundUp_eq (by decide) (by decide), if_neg (by decide)]
  simp only [C10K.qPush, if_pos hfull, C10K.qResize, hround, bind, Option.bind_none]

lemma qPush_rel_list {l : List W} (h : StandsFor q l) (val : W) :
    Option.Rel StandsFor (C10K.qPush q val) (listPush l val) := by
  by_cases hlen : l.length < 2 ^ 30
  · obtain ⟨q', hpush, hwf, hcontents⟩ := qPush_spec (v := val) h.wf (h.contents ▸ hlen)
    rw [hpush, listPush, if_pos hlen, ← h.contents]
    exact .some ⟨hwf, capacity_of_qPush h.capacity_le hpush, hcontents⟩
  · rw [qPush_eq_none h (Nat.le_of_not_lt hlen), listPush, if_neg hlen]
    exact .none

lemma qResize_rel_list {l : List W} (h : StandsFor q l) (hlt : n < 2 ^ 64) :
    Option.Rel StandsFor (C10K.qResize q n) (listResize l n) := by
  rcases Nat.eq_zero_or_pos n with rfl | hpos
  · obtain ⟨q', hresize, hwf, -, hcontents⟩ := qResize_spec h.wf Nat.one_pos (by decide)
    rw [qResize_zero, hresize, listResize, if_pos (Nat.zero_le _), Nat.clog_zero_right,
      ← h.contents, ← Nat.clog_one_right 2]
    exact .some ⟨hwf, capacity_of_qResize h.capacity_le hresize, hcontents⟩
  · by_cases hle : n ≤ 2 ^ 30
    · obtain ⟨q', hresize, hwf, -, hcontents⟩ := qResize_spec h.wf hpos hle
      rw [hresize, listResize, if_pos hle, ← h.contents]
      exact .some ⟨hwf, capacity_of_qResize h.capacity_le hresize, hcontents⟩
    · have hround : roundUp n = none := by rw [roundUp_eq hpos hlt, if_neg hle]
      rw [listResize, if_neg hle, C10K.qResize, hround]
      exact .none

end Defined

/-! ### The queue as an object -/

/-- A call of a function of `queue.c` on an existing queue. -/
inductive QueueCall (W : Type) where
  | push (val : W)
  | next
  | isEmpty
  | resize (newSize : BitVec 64)

def queueObject (W : Type) [Zero W] [DecidableEq W] : HeapObject W (QueueCall W) (Output W) where
  Handle := Queue W
  create := qCreate
  call
    | .push val, a, q, h       => (qPush q val a h).map fun r => (.void, r)
    | .next, _, q, h           => (qNext q h).map fun r => (.word r.1, r.2, h)
    | .isEmpty, _, q, h        => some (.int (qIsEmpty q).toNat, q, h)
    | .resize newSize, a, q, h => (qResize q newSize.toNat a h).map fun r => (.void, r)
  destroy := qDestroy

/-- The list that a queue is, of at most `2 ^ 30` values. -/
def queueValue (W : Type) [Zero W] : ValueObject (QueueCall W) (Output W) where
  Value := List W
  initial := []
  call
    | .push val, l       => (listPush l val).map fun l => (.void, l)
    | .next, []          => some (.word 0, [])
    | .next, val :: l    => some (.word val, l)
    | .isEmpty, l        => some (.int l.isEmpty.toNat, l)
    | .resize newSize, l => (listResize l newSize.toNat).map fun l => (.void, l)

/-- The handle has its array in the heap, which is that of the queue `q`. -/
structure Queue.Holds (h : Heap W) (c : Queue W) (q : C10K.Queue W) : Prop where
  handle : c = .at q c.data
  block : h.block c.data = some q.data

/-- The handle stands for the list, and its array is its only block. -/
def Queue.Rep (h : Heap W) (c : Queue W) (l : List W) (F : Finset W) : Prop :=
  ∃ q, c.Holds h q ∧ StandsFor q l ∧ F = {c.data}

section Object

variable {h : Heap W} {c : Queue W} {l : List W} {q : C10K.Queue W} {a : W}

omit [DecidableEq W] in
/-- A function that follows its counterpart on the queue implements what that one does on the
list. -/
lemma Queue.rel_list {x : Option (Queue W × Heap W)} {y : Option (C10K.Queue W)}
    {z : Option (List W)} (hxy : Option.Rel (Follows h c.data) x y)
    (hyz : Option.Rel StandsFor y z) :
    Option.Rel (fun r p => r.1 = p.1 ∧ ∃ F', Queue.Rep r.2.2 r.2.1 p.2 F' ∧
        h.Turns {c.data} F' r.2.2)
      (x.map fun r => (Output.void (W := W), r)) (z.map fun l => (Output.void (W := W), l)) := by
  refine (hxy.comp hyz).map fun r l => ?_
  rintro ⟨q, ⟨hhandle, hblock, hturns⟩, hl⟩
  exact ⟨rfl, _, ⟨q, ⟨hhandle, hblock⟩, hl, rfl⟩, hturns⟩

omit [DecidableEq W] in
/-- `q_next` takes the oldest value, or gives 0. -/
lemma qNext_rel_list (hc : c.Holds h q) (hl : StandsFor q l) :
    Option.Rel (fun r p => r.1 = p.1 ∧ ∃ F', Queue.Rep r.2.2 r.2.1 p.2 F' ∧
        h.Turns {c.data} F' r.2.2)
      ((qNext c h).map fun r => (.word r.1, r.2, h)) ((queueValue W).call .next l) := by
  have hnext := qNext_eq hc.block
  rw [← hc.handle] at hnext
  rw [hnext]
  cases l with
  | nil =>
    rw [qNext_nil hl.wf hl.contents]
    exact .some ⟨rfl, _, ⟨q, ⟨rfl, hc.block⟩, hl, rfl⟩, .refl _ h⟩
  | cons val l =>
    obtain ⟨q', hq', hwf, hcontents, hcap⟩ := qNext_cons hl.wf hl.contents
    have hblock : h.block c.data = some q'.data := by rw [data_of_qNext hq', hc.block]
    rw [hq']
    exact .some ⟨rfl, _, ⟨q', ⟨rfl, hblock⟩, ⟨hwf, hcap ▸ hl.capacity_le, hcontents⟩, rfl⟩,
      .refl _ h⟩

omit [DecidableEq W] in
lemma qIsEmpty_eq (hc : c.Holds h q) (hl : StandsFor q l) : qIsEmpty c = l.isEmpty := by
  rw [hc.handle, Bool.eq_iff_iff, List.isEmpty_iff, ← hl.contents]
  exact qIsEmpty_iff hl.wf

end Object

/-- The array implements the list. -/
def queueImplements (W : Type) [Zero W] [DecidableEq W] :
    (queueObject W).Implements (queueValue W) where
  Rep := Queue.Rep
  live := by
    rintro h c l F ⟨q, hc, -, rfl⟩ a ha
    rw [Finset.mem_singleton.mp ha, hc.block]
    exact Option.some_ne_none _
  congr := by
    rintro h h' c l F ⟨q, hc, hl, rfl⟩ hF
    exact ⟨q, ⟨hc.handle, (hF _ (Finset.mem_singleton_self _)).trans hc.block⟩, hl, rfl⟩
  create {h a} ha := by
    obtain ⟨h', hmalloc, hblock⟩ := Heap.malloc_eq ha customQueueDefaultSize
    refine ⟨.at C10K.qCreate a, h', {a}, ?_, ⟨C10K.qCreate, ⟨rfl, ?_⟩, ?_, rfl⟩, ?_⟩
    · simp only [queueObject, qCreate, hmalloc, bind, Option.bind_some]
      rfl
    · exact (congrFun hblock a).trans (Function.update_self ..)
    · exact ⟨qCreate_wf, Nat.le_of_ble_eq_true rfl, qCreate_contents⟩
    · exact .of_malloc ha hblock
  call := by
    rintro h c l F a k ⟨q, hc, hl, rfl⟩ ha
    cases k with
    | push val =>
      have hpush := qPush_rel hc.block ha val
      rw [← hc.handle] at hpush
      exact Queue.rel_list hpush (qPush_rel_list hl val)
    | next => exact qNext_rel_list hc hl
    | isEmpty =>
      simp only [queueObject, queueValue, qIsEmpty_eq hc hl]
      exact .some ⟨rfl, _, ⟨q, hc, hl, rfl⟩, .refl _ h⟩
    | resize newSize =>
      have hresize := qResize_rel hc.block ha newSize.toNat
      rw [← hc.handle] at hresize
      exact Queue.rel_list hresize (qResize_rel_list hl newSize.isLt)
  destroy := by
    rintro h c l F ⟨q, hc, -, rfl⟩
    obtain ⟨h', hfree, hblock⟩ := Heap.free_eq hc.block
    exact ⟨h', hfree, .of_free (Finset.notMem_empty _) hblock⟩

end C10K.Memory
