import C10K.Lib.Ring

/-!
# The growing ring buffer of `queue.c`

The fields are those of `struct queue`; `data` is the array `_data` points to. Every function
returns `none` where the C code has undefined behaviour: a slot outside the array, a slot that
was never written, or a shift of the `int` constant `1` by more than 30 places. Allocation
succeeds.
-/

namespace C10K

variable {W : Type}

/-- `struct queue`. -/
structure Queue (W : Type) where
  front : ℕ
  back : ℕ
  size : ℕ
  rangeMask : ℕ
  data : Block W

/-- `CUSTOM_QUEUE_DEFAULT_SIZE`. -/
def customQueueDefaultSize : ℕ := 8

/-- The loop of `MSB`: `val` is the bit in place `msb`, and both move down until the bit is set in
`number` or place 0 is reached. -/
def msbLoop (number val : ℕ) : ℕ → ℕ
  | 0       => 0
  | msb + 1 => if number &&& val = 0 then msbLoop number (val >>> 1) msb else msb + 1

/-- The place of the highest bit set in `number`, a `long` that is not negative. -/
def MSB (number : ℕ) : ℕ := msbLoop number (1 <<< 63) 63

/-- `1 << msb` in `int` arithmetic. -/
def oneShl (msb : ℕ) : Option ℕ := if msb ≤ 30 then some (1 <<< msb) else none

def qCreate : Queue W where
  front := 0
  back := 0
  size := 0
  data := Block.malloc customQueueDefaultSize
  rangeMask := customQueueDefaultSize - 1

/-- The result is an `int` in the source. -/
def qIsEmpty (q : Queue W) : Bool := q.size == 0

def qNext [Zero W] (q : Queue W) : Option (W × Queue W) :=
  if q.size ≤ 0 then some (0, q)
  else do
    let next ← q.data.load q.front
    return (next, { q with front := (q.front + 1) &&& q.rangeMask, size := q.size - 1 })

/-- The copy loop of `q_resize`: `new_data[i] = q_next(q)` for the `n` indices from `i` on. -/
def qMove [Zero W] (newData : Block W) (q : Queue W) (i : ℕ) : ℕ → Option (Block W × Queue W)
  | 0     => some (newData, q)
  | n + 1 => do
    let (next, q) ← qNext q
    let newData ← newData.store i next
    qMove newData q (i + 1) n

/-- `new_size` after the two lines of `q_resize` that round it up to a power of two. -/
def roundUp (newSize : ℕ) : Option ℕ := do
  let msb := MSB newSize
  let bit ← oneShl msb
  oneShl (if newSize > bit then msb + 1 else msb)

def qResize [Zero W] (q : Queue W) (newSize : ℕ) : Option (Queue W) := do
  let newSize ← roundUp newSize
  if newSize = q.rangeMask + 1 then return q
  let moveSize := if q.size < newSize then q.size else newSize
  let (newData, q) ← qMove (Block.malloc newSize) q 0 moveSize
  return { q with
    data := newData
    size := moveSize
    rangeMask := newSize - 1
    front := 0
    back := moveSize &&& (newSize - 1) }

def qPush [Zero W] (q : Queue W) (val : W) : Option (Queue W) := do
  let q ← if q.size ≥ q.rangeMask + 1 then qResize q ((q.rangeMask + 1) * 2) else some q
  let data ← q.data.store q.back val
  return { q with data, size := q.size + 1, back := (q.back + 1) &&& q.rangeMask }

/-! ### Well-formed queues -/

/-- The slots in use, oldest entry first. -/
def Queue.slots (q : Queue W) : List (Option W) :=
  window q.data.load (q.rangeMask + 1) q.front q.size

/-- The list of values that the queue stands for. -/
def Queue.contents (q : Queue W) : List W := q.slots.reduceOption

/-- The representation invariant: the capacity is a power of two (that fits a `long`) and the size
of the array, the indices lie inside it, and each slot in use has been written. -/
structure Queue.WF (q : Queue W) : Prop where
  capacity : ∃ k ≤ 62, q.rangeMask + 1 = 2 ^ k
  data_size : q.data.size = q.rangeMask + 1
  size_le : q.size ≤ q.rangeMask + 1
  front_le : q.front ≤ q.rangeMask
  back_eq : q.back = (q.front + q.size) % (q.rangeMask + 1)
  written : ∀ slot ∈ q.slots, slot.isSome

/-! ### Runs -/

/-- A call of `q_push` or of `q_next`. -/
inductive QueueCall (W : Type) where
  | push (val : W)
  | next

/-- One call on the ring buffer; a `next` returns a value. -/
def Queue.call [Zero W] (q : Queue W) : QueueCall W → Option (Option W × Queue W)
  | .push val => (qPush q val).map fun q => (none, q)
  | .next     => (qNext q).map fun p => (some p.1, p.2)

/-- Consecutive calls, with the values they return. -/
def Queue.run [Zero W] (q : Queue W) : List (QueueCall W) → Option (List (Option W) × Queue W)
  | []      => some ([], q)
  | c :: cs => do
    let (out, q) ← q.call c
    let (outs, q) ← q.run cs
    return (out :: outs, q)

/-- The same call on an unbounded list: `push` appends, and `next` takes the oldest value, or
gives the null word when there is none. -/
def fifoCall [Zero W] (l : List W) : QueueCall W → Option W × List W
  | .push val => (none, l ++ [val])
  | .next     =>
    match l with
    | []     => (some 0, [])
    | v :: l => (some v, l)

/-- Consecutive calls on an unbounded list. -/
def fifoRun [Zero W] (l : List W) : List (QueueCall W) → List (Option W) × List W
  | []      => ([], l)
  | c :: cs =>
    let (out, l) := fifoCall l c
    let (outs, l) := fifoRun l cs
    (out :: outs, l)

end C10K
