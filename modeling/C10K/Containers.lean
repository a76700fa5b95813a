import C10K.Boolset.Memory
import C10K.Queue.Memory
import C10K.Stack.Memory

/-!
# The containers in one heap

A program of this library has queues, stacks and bit sets, and keeps all of them in the heap of its
process: the jobs of the workers, the disconnection queue and the connected clients of the endpoint.
Each of the three implements its value on its own; so any number of them behave like their values
side by side, wherever `malloc` puts their blocks.
-/

namespace C10K

open Memory

/-- The containers of the library. -/
inductive Container where
  | queue
  | stack
  | boolset
deriving DecidableEq

namespace Container

/-- The calls of each container; the values and the addresses are 64-bit words. -/
abbrev Call : Container → Type
  | .queue   => Memory.QueueCall (BitVec 64)
  | .stack   => StackCall (BitVec 64)
  | .boolset => BoolsetCall

/-- The code of each container. -/
abbrev object : ∀ k : Container, HeapObject (BitVec 64) k.Call (Output (BitVec 64))
  | .queue   => queueObject _
  | .stack   => stackObject _
  | .boolset => boolsetObject

/-- What each container is for. -/
abbrev value : ∀ k : Container, ValueObject k.Call (Output (BitVec 64))
  | .queue   => queueValue _
  | .stack   => stackValue _
  | .boolset => boolsetValue

def implements : ∀ k : Container, k.object.Implements k.value
  | .queue   => queueImplements _
  | .stack   => stackImplements _
  | .boolset => boolsetImplements

end Container

/-- Any number of queues, stacks and bit sets in one heap, created, called and destroyed in any
order, wherever `malloc` puts the blocks: every call returns what it returns on the list, the stack
or the array alone, and a use is undefined exactly where it is not allowed there; the blocks of two
containers never meet, and every block of the heap belongs to a container that exists. -/
theorem containers_share_heap {ι : Type} [DecidableEq ι] (kind : ι → Container)
    {s : SharedHeap fun i => (kind i).object}
    {us : List (ObjectUse (BitVec 64) fun i => (kind i).Call)}
    (hrun : (sharedHeapSystem fun i => (kind i).object).Run .initial us s) :
    ∃ t, (sideBySideSystem fun i => (kind i).value).Run .initial (us.map ObjectUse.abstract) t ∧
      s.log = t.log ∧
      (∀ u, u.Fits s.heap → (s.use u).isSome = (t.use u.abstract).isSome) ∧
      ∃ F : ι → Finset (BitVec 64), (∀ i j, i ≠ j → Disjoint (F i) (F j)) ∧
        (∀ i, s.handle i = none → F i = ∅) ∧ ∀ a, s.heap.block a ≠ none ↔ ∃ i, a ∈ F i := by
  obtain ⟨t, ht, F, hlayout⟩ := SharedHeap.exists_layout (fun i => (kind i).implements) hrun
  refine ⟨t, ht, hlayout.log, fun u hfits => (hlayout.rel_use u hfits).isSome_eq, F,
    hlayout.disjoint, hlayout.unused, fun a => ⟨hlayout.owned a, ?_⟩⟩
  rintro ⟨i, ha⟩
  exact hlayout.live ha

/-- The bit set grows, the queue is put where its first array was, and a node of the stack where the
queue was before it was destroyed. When all three are destroyed, no block is left. -/
theorem containers_share_heap_reused :
    ∃ (s : SharedHeap Container.object) (t : SideBySide Container.value),
      s.log = t.log ∧ s.log.map Sigma.snd = [.void, .void, .word 7, .void, .int 1, .word 5] ∧
      ∀ a, s.heap.block a = none := by
  let system := sharedHeapSystem Container.object
  let uses : List (ObjectUse (BitVec 64) Container.Call) := [.create .boolset 8,
    .call .boolset (.set 64 1) 16, .create .queue 8, .call .queue (.push 7) 24, .create .stack 24,
    .call .queue .next 24, .destroy .queue, .call .stack (.push 5) 8, .call .boolset (.get 64) 24,
    .call .stack .pop 24, .destroy .boolset, .destroy .stack]
  have hrun : (system.exec .initial uses).any (fun s =>
      s.log.map Sigma.snd = [.void, .void, .word 7, .void, .int 1, .word 5] ∧
      (s.handle .queue).isNone ∧ (s.handle .stack).isNone ∧ (s.handle .boolset).isNone) = true := by
    decide +kernel
  obtain ⟨s, hs, hval⟩ := (Option.any_eq_true ..).mp hrun
  obtain ⟨hlog, hqueue, hstack, hboolset⟩ := of_decide_eq_true hval
  obtain ⟨t, -, heq, -, F, -, hunused, hlive⟩ := containers_share_heap id (LTS.run_of_exec hs)
  have hnone : ∀ i, F i = ∅ := by
    intro i
    apply hunused
    cases i with
    | queue => exact Option.isNone_iff_eq_none.mp hqueue
    | stack => exact Option.isNone_iff_eq_none.mp hstack
    | boolset => exact Option.isNone_iff_eq_none.mp hboolset
  refine ⟨s, t, heq, hlog, fun a => ?_⟩
  by_contra hblock
  obtain ⟨i, ha⟩ := (hlive a).mp hblock
  rw [hnone i] at ha
  exact absurd ha (Finset.notMem_empty a)

end C10K
