import C10K.Lib.Heap
import C10K.Lib.TransitionSystem

/-!
# Objects that share a heap

A program keeps several objects in one heap, each reached through a handle. A `HeapObject` is the
code of such an object, a `ValueObject` says what it is for, without any memory, and `Implements` is
what has to be proved of the code on its own: that it stays inside its own blocks and is defined
exactly where the value is.

Then any number of objects, created, called and destroyed in any order, behave like their values
side by side (`Layout.rel_use`): the blocks of two objects never meet, and a block that no object
needs is free.
-/

variable {W : Type*} [Zero W] [DecidableEq W] {ι : Type*}

/-! ### One object -/

/-- The code of an object. A call gets the address that `malloc` would give to it next, and returns
a value, the new handle and the new heap. -/
structure HeapObject (W : Type*) [Zero W] (Call Out : Type*) where
  Handle : Type
  create : W → Heap W → Option (Handle × Heap W)
  call : Call → W → Handle → Heap W → Option (Out × Handle × Heap W)
  destroy : Handle → Heap W → Option (Heap W)

/-- What an object stands for; a call is `none` where it is not allowed. -/
structure ValueObject (Call Out : Type*) where
  Value : Type
  initial : Value
  call : Call → Value → Option (Out × Value)

/-- The code implements the value: `Rep h c v F` says that the handle `c` stands for `v` in the heap
`h` and needs the blocks `F`. -/
structure HeapObject.Implements {Call Out : Type*} (m : HeapObject W Call Out)
    (o : ValueObject Call Out) where
  Rep : Heap W → m.Handle → o.Value → Finset W → Prop
  live : ∀ {h c v F}, Rep h c v F → ∀ a ∈ F, h.block a ≠ none
  congr : ∀ {h h' c v F}, Rep h c v F → (∀ a ∈ F, h'.block a = h.block a) → Rep h' c v F
  create : ∀ {h a}, h.Free a → ∃ c h' F, m.create a h = some (c, h') ∧ Rep h' c o.initial F ∧
    h.Turns ∅ F h'
  call : ∀ {h c v F a} (k : Call), Rep h c v F → h.Free a →
    Option.Rel (fun r p => r.1 = p.1 ∧ ∃ F', Rep r.2.2 r.2.1 p.2 F' ∧ h.Turns F F' r.2.2)
      (m.call k a c h) (o.call k v)
  destroy : ∀ {h c v F}, Rep h c v F → ∃ h', m.destroy c h = some h' ∧ h.Turns F ∅ h'

/-- What the caller of a C function gets: nothing, a word, an `int`, or the calls of its
callback. -/
inductive Output (W : Type*) where
  | void
  | word (v : W)
  | int (i : ℕ)
  | calls (l : List W)
deriving DecidableEq

/-! ### Many objects -/

/-- The objects that exist, in one heap, and what their calls returned so far. -/
structure SharedHeap {Call Out : ι → Type*} (m : ∀ i, HeapObject W (Call i) (Out i)) where
  heap : Heap W
  handle : ∀ i, Option (m i).Handle
  log : List (Σ i, Out i)

/-- The values of the objects that exist, and what their calls returned so far. -/
structure SideBySide {Call Out : ι → Type*} (o : ∀ i, ValueObject (Call i) (Out i)) where
  value : ∀ i, Option (o i).Value
  log : List (Σ i, Out i)

/-- A use of one of the objects, with the address `a` that `malloc` would give to it next. -/
inductive ObjectUse (A : Type*) {ι : Type*} (Call : ι → Type*) where
  | create (i : ι) (a : A)
  | call (i : ι) (k : Call i) (a : A)
  | destroy (i : ι)

/-- The use without the address, which the values do not have. -/
def ObjectUse.abstract {A : Type*} {Call : ι → Type*} : ObjectUse A Call → ObjectUse Unit Call
  | .create i _ => .create i ()
  | .call i k _ => .call i k ()
  | .destroy i  => .destroy i

/-- The address is one that `malloc` may give. -/
def ObjectUse.Fits {Call : ι → Type*} (h : Heap W) : ObjectUse W Call → Prop
  | .create _ a | .call _ _ a => h.Free a
  | .destroy _ => True

instance {Call : ι → Type*} (h : Heap W) : DecidablePred fun u : ObjectUse W Call => u.Fits h
  | .create _ a | .call _ _ a => inferInstanceAs (Decidable (h.Free a))
  | .destroy _ => inferInstanceAs (Decidable True)

section Systems

variable [DecidableEq ι] {Call Out : ι → Type*} {m : ∀ i, HeapObject W (Call i) (Out i)}
variable {o : ∀ i, ValueObject (Call i) (Out i)}

/-- An object is created that does not exist, and called and destroyed while it does. -/
def SharedHeap.use (s : SharedHeap m) : ObjectUse W Call → Option (SharedHeap m)
  | .create i a =>
    if (s.handle i).isNone then ((m i).create a s.heap).map fun r =>
      { s with heap := r.2, handle := Function.update s.handle i (some r.1) } else none
  | .call i k a => (s.handle i).bind fun c => ((m i).call k a c s.heap).map fun r =>
      ⟨r.2.2, Function.update s.handle i (some r.2.1), s.log ++ [⟨i, r.1⟩]⟩
  | .destroy i => (s.handle i).bind fun c => ((m i).destroy c s.heap).map fun h =>
      { s with heap := h, handle := Function.update s.handle i none }

def SideBySide.use (t : SideBySide o) : ObjectUse Unit Call → Option (SideBySide o)
  | .create i _ =>
    if (t.value i).isNone then
      some { t with value := Function.update t.value i (some (o i).initial) } else none
  | .call i k _ => (t.value i).bind fun v => ((o i).call k v).map fun p =>
      ⟨Function.update t.value i (some p.2), t.log ++ [⟨i, p.1⟩]⟩
  | .destroy i => (t.value i).map fun _ => { t with value := Function.update t.value i none }

def SharedHeap.initial : SharedHeap m := ⟨.empty, fun _ => none, []⟩

def SideBySide.initial : SideBySide o := ⟨fun _ => none, []⟩

/-- Every order of uses, with every choice that `malloc` may make. -/
def sharedHeapSystem (m : ∀ i, HeapObject W (Call i) (Out i)) :
    LTS (SharedHeap m) (ObjectUse W Call) where
  init s := s = .initial
  step s u := if u.Fits s.heap then s.use u else none

/-- Every order of uses. -/
def sideBySideSystem (o : ∀ i, ValueObject (Call i) (Out i)) :
    LTS (SideBySide o) (ObjectUse Unit Call) where
  init t := t = .initial
  step := SideBySide.use

/-! ### The layout of the heap -/

/-- The object `i` has the blocks `F i`: it stands for its value, the blocks of two objects do not
meet, and there are no other blocks. -/
structure Layout (R : ∀ i, (m i).Implements (o i)) (s : SharedHeap m) (t : SideBySide o)
    (F : ι → Finset W) : Prop where
  log : s.log = t.log
  object : ∀ i, Option.Rel (fun c v => (R i).Rep s.heap c v (F i)) (s.handle i) (t.value i)
  unused : ∀ i, s.handle i = none → F i = ∅
  disjoint : ∀ i j, i ≠ j → Disjoint (F i) (F j)
  owned : ∀ a, s.heap.block a ≠ none → ∃ i, a ∈ F i

namespace Layout

variable {R : ∀ i, (m i).Implements (o i)} {s s' : SharedHeap m} {t t' : SideBySide o}
variable {F : ι → Finset W} {F' : Finset W} {i j : ι} {a : W}

omit [DecidableEq W] [DecidableEq ι] in
/-- An object needs allocated blocks only. -/
lemma live (h : Layout R s t F) (ha : a ∈ F i) : s.heap.block a ≠ none := by
  have hobject := h.object i
  cases hc : s.handle i with
  | none =>
    rw [h.unused i hc] at ha
    exact absurd ha (Finset.notMem_empty a)
  | some c =>
    rw [hc] at hobject
    generalize t.value i = v at hobject
    cases hobject with
    | some hrep => exact (R i).live hrep a ha

omit [DecidableEq W] [DecidableEq ι] in
/-- The blocks of the other objects are none of those that an object has or gets. -/
lemma notMem_of_turns (h : Layout R s t F) (hturns : s.heap.Turns (F i) F' s'.heap) (hj : j ≠ i)
    (ha : a ∈ F j) : a ∉ F i ∧ a ∉ F' := by
  have hi : a ∉ F i := fun hi => Finset.disjoint_left.mp (h.disjoint j i hj) ha hi
  exact ⟨hi, fun hF' => h.live ha (hturns.fresh a hF' hi)⟩

/-- One object turns its blocks into others; the layout of all objects follows. -/
lemma change (h : Layout R s t F) (hturns : s.heap.Turns (F i) F' s'.heap)
    {c : Option (m i).Handle} {v : Option (o i).Value}
    (hobject : Option.Rel (fun c v => (R i).Rep s'.heap c v F') c v) (hunused : c = none → F' = ∅)
    (hlog : s'.log = t'.log) (hs : s'.handle = Function.update s.handle i c)
    (ht : t'.value = Function.update t.value i v) : Layout R s' t' (Function.update F i F') := by
  constructor
  · exact hlog
  · intro j
    rw [hs, ht]
    by_cases hj : j = i
    · subst hj
      rw [Function.update_self, Function.update_self, Function.update_self]
      exact hobject
    · rw [Function.update_of_ne hj, Function.update_of_ne hj, Function.update_of_ne hj]
      have hkeeps : ∀ a ∈ F j, s'.heap.block a = s.heap.block a := fun a ha =>
        hturns.frame a (h.notMem_of_turns hturns hj ha).1 (h.notMem_of_turns hturns hj ha).2
      exact (h.object j).imp fun c v hrep => (R j).congr hrep hkeeps
  · intro j hnone
    rw [hs] at hnone
    by_cases hj : j = i
    · subst hj
      rw [Function.update_self] at hnone ⊢
      exact hunused hnone
    · rw [Function.update_of_ne hj] at hnone ⊢
      exact h.unused j hnone
  · have hnew : ∀ j ≠ i, Disjoint F' (F j) := fun j hj =>
      Finset.disjoint_right.mpr fun a ha => (h.notMem_of_turns hturns hj ha).2
    intro j k hjk
    by_cases hj : j = i
    · subst hj
      rw [Function.update_self, Function.update_of_ne hjk.symm]
      exact hnew k hjk.symm
    · rw [Function.update_of_ne hj]
      by_cases hk : k = i
      · subst hk
        rw [Function.update_self]
        exact (hnew j hj).symm
      · rw [Function.update_of_ne hk]
        exact h.disjoint j k hjk
  · intro a ha
    by_cases hF' : a ∈ F'
    · exact ⟨i, by rwa [Function.update_self]⟩
    · have hi : a ∉ F i := fun hi => ha (hturns.freed a hi hF')
      rw [hturns.frame a hi hF'] at ha
      obtain ⟨j, hj⟩ := h.owned a ha
      have hne : j ≠ i := by
        rintro rfl
        exact hi hj
      exact ⟨j, by rwa [Function.update_of_ne hne]⟩

omit [DecidableEq W] [DecidableEq ι] in
lemma initial (R : ∀ i, (m i).Implements (o i)) :
    Layout R .initial .initial fun _ => ∅ where
  log := rfl
  object _ := .none
  unused _ _ := rfl
  disjoint _ _ _ := Finset.disjoint_empty_left _
  owned _ ha := absurd rfl ha

/-- A use of an object is defined where the same use of its value is allowed, and then the two
return the same and the layout holds again. -/
theorem rel_use (h : Layout R s t F) (u : ObjectUse W Call) (hfits : u.Fits s.heap) :
    Option.Rel (fun s' t' => ∃ F, Layout R s' t' F) (s.use u) (t.use u.abstract) := by
  cases u with
  | create i a =>
    have hobject := h.object i
    have hunused := h.unused i
    simp only [SharedHeap.use, SideBySide.use, ObjectUse.abstract]
    generalize s.handle i = c at hobject hunused
    generalize t.value i = v at hobject
    cases hobject with
    | some _ => exact .none
    | none =>
      obtain ⟨c, heap, F', hcreate, hrep, hturns⟩ := (R i).create hfits
      rw [← hunused rfl] at hturns
      simp only [Option.isNone_none, ↓reduceIte, hcreate, Option.map_some]
      exact .some ⟨_, h.change hturns (.some hrep) nofun h.log rfl rfl⟩
  | call i k a =>
    have hobject := h.object i
    simp only [SharedHeap.use, SideBySide.use, ObjectUse.abstract]
    generalize s.handle i = c at hobject
    generalize t.value i = v at hobject
    cases hobject with
    | none => exact .none
    | some hrep =>
      simp only [Option.bind_some]
      refine ((R i).call k hrep hfits).map fun r p => ?_
      rintro ⟨hout, F', hrep', hturns⟩
      refine ⟨_, h.change hturns (.some hrep') nofun ?_ rfl rfl⟩
      rw [h.log, hout]
  | destroy i =>
    have hobject := h.object i
    simp only [SharedHeap.use, SideBySide.use, ObjectUse.abstract]
    generalize s.handle i = c at hobject
    generalize t.value i = v at hobject
    cases hobject with
    | none => exact .none
    | some hrep =>
      obtain ⟨heap, hdestroy, hturns⟩ := (R i).destroy hrep
      simp only [Option.bind_some, hdestroy, Option.map_some]
      exact .some ⟨_, h.change hturns .none (fun _ => rfl) h.log rfl rfl⟩

end Layout

/-- Every run of the objects in the heap is one of their values, with the same uses. -/
theorem SharedHeap.exists_layout (R : ∀ i, (m i).Implements (o i)) {s : SharedHeap m}
    {us : List (ObjectUse W Call)} (h : (sharedHeapSystem m).Run .initial us s) :
    ∃ t, (sideBySideSystem o).Run .initial (us.map ObjectUse.abstract) t ∧ ∃ F, Layout R s t F := by
  induction h with
  | nil => exact ⟨.initial, .nil, _, .initial R⟩
  | @snoc s s' us u _ hstep ih =>
    obtain ⟨t, hrun, F, hlayout⟩ := ih
    obtain ⟨hfits, huse⟩ := Option.ite_none_right_eq_some.mp hstep
    have hrel := hlayout.rel_use u hfits
    rw [huse] at hrel
    generalize ht : t.use u.abstract = t' at hrel
    cases hrel with
    | some hlayout' =>
      rw [List.map_append]
      exact ⟨_, hrun.snoc ht, hlayout'⟩

end Systems
