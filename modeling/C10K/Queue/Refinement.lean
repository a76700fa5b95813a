import C10K.Queue.Basic

/-!
# The ring buffer refines an unbounded FIFO list

Each function of `queue.c` has one specification on well-formed queues, stated through
`Queue.contents`. A queue of at most `2 ^ 30` values never reaches the shift that is undefined in
`q_resize`, so every run within that bound is defined and returns what the FIFO list returns.
-/

namespace C10K

variable {W : Type} {q q' : Queue W} {n m : ℕ} {v : W} {l : List W}

/-! ### Rounding up to a power of two -/

/-- The loop of `MSB` finds the logarithm once every higher bit is known to be clear. -/
lemma msbLoop_eq (hn : 0 < n) (m : ℕ) (hlt : n < 2 ^ (m + 1)) :
    msbLoop n (2 ^ m) m = Nat.log 2 n := by
  induction m with
  | zero =>
    have : n = 1 := by omega
    simp [this, msbLoop]
  | succ m ih =>
    have hshift : 2 ^ (m + 1) >>> 1 = 2 ^ m := by
      rw [Nat.shiftRight_one, pow_succ, Nat.mul_div_cancel _ two_pos]
    by_cases hbit : n < 2 ^ (m + 1)
    · have hclear : n &&& 2 ^ (m + 1) = 0 := by
        simp [Nat.and_two_pow, Nat.testBit_lt_two_pow hbit]
      simp only [msbLoop, hclear, ↓reduceIte, hshift]
      exact ih hbit
    · have hset : n &&& 2 ^ (m + 1) ≠ 0 := by
        have : n.testBit (m + 1) = true := by
          rw [Nat.testBit_eq_decide_div_mod_eq, decide_eq_true_eq,
            Nat.div_eq_of_lt_le (k := 1) (by omega) (by rw [pow_succ] at hlt; omega)]
        simp [Nat.and_two_pow, this]
      simp only [msbLoop, hset, ↓reduceIte]
      exact (Nat.log_eq_of_pow_le_of_lt_pow (by omega) hlt).symm

lemma MSB_eq_log (hn : 0 < n) (hlt : n < 2 ^ 64) : MSB n = Nat.log 2 n := by
  rw [MSB, Nat.one_shiftLeft]
  exact msbLoop_eq hn 63 hlt

lemma oneShl_of_le (h : n ≤ 30) : oneShl n = some (2 ^ n) := by
  simp [oneShl, h, Nat.one_shiftLeft]

/-- `q_resize` rounds up to the least power of two, as long as that is at most `2 ^ 30`. -/
lemma roundUp_eq (hn : 0 < n) (hlt : n < 2 ^ 64) :
    roundUp n = if n ≤ 2 ^ 30 then some (2 ^ Nat.clog 2 n) else none := by
  have hle : 2 ^ Nat.log 2 n ≤ n := Nat.pow_log_le_self 2 hn.ne'
  have hup : n < 2 ^ (Nat.log 2 n + 1) := Nat.lt_pow_succ_log_self one_lt_two n
  simp only [roundUp, MSB_eq_log hn hlt, Option.bind_eq_bind]
  generalize hk : Nat.log 2 n = k at hle hup
  by_cases hk30 : k ≤ 30
  · rw [oneShl_of_le hk30, Option.bind_some]
    by_cases hpow : n = 2 ^ k
    · have : 2 ^ k ≤ 2 ^ 30 := Nat.pow_le_pow_right two_pos hk30
      rw [if_neg (by omega), oneShl_of_le hk30, if_pos (by omega), hpow,
        Nat.clog_pow 2 k one_lt_two]
    · have hclog : Nat.clog 2 n = k + 1 :=
        le_antisymm (Nat.clog_le_of_le_pow hup.le)
          ((Nat.lt_clog_iff_pow_lt one_lt_two).mpr (by omega))
      rw [if_pos (by omega), hclog]
      by_cases hk29 : k + 1 ≤ 30
      · have : 2 ^ (k + 1) ≤ 2 ^ 30 := Nat.pow_le_pow_right two_pos hk29
        rw [oneShl_of_le hk29, if_pos (by omega)]
      · have : k = 30 := by omega
        subst this
        rw [if_neg (by omega)]
        rfl
  · have : 2 ^ 31 ≤ 2 ^ k := Nat.pow_le_pow_right two_pos (by omega)
    have hnone : oneShl k = none := by simp [oneShl, hk30]
    rw [hnone, if_neg (by omega), Option.bind_none]

/-! ### The contents of a well-formed queue -/

lemma map_some_reduceOption {α : Type*} {l : List (Option α)} (h : ∀ o ∈ l, o.isSome) :
    l.reduceOption.map some = l := by
  induction l with
  | nil => rfl
  | cons o l ih =>
    obtain ⟨v, rfl⟩ := Option.isSome_iff_exists.mp (h o (by simp))
    rw [List.reduceOption_cons_of_some, List.map_cons,
      ih fun o ho => h o (List.mem_cons_of_mem _ ho)]

@[simp] lemma reduceOption_map_some {α : Type*} (l : List α) :
    (l.map some).reduceOption = l := by
  induction l with
  | nil => rfl
  | cons v l ih => rw [List.map_cons, List.reduceOption_cons_of_some, ih]

namespace Queue

lemma WF.slots_eq (h : q.WF) : q.slots = q.contents.map some :=
  (map_some_reduceOption h.written).symm

/-- A queue whose slots hold the values of `l` is written in each slot and stands for `l`. -/
lemma contents_of_slots (h : q.slots = l.map some) :
    (∀ slot ∈ q.slots, slot.isSome) ∧ q.contents = l := by
  refine ⟨?_, by rw [contents, h, reduceOption_map_some]⟩
  rw [h]
  simp

lemma WF.length_contents (h : q.WF) : q.contents.length = q.size := by
  have := congrArg List.length h.slots_eq
  simpa [slots] using this.symm

/-- Masking an index is reducing it modulo the capacity. -/
lemma WF.and_rangeMask (h : q.WF) (i : ℕ) : i &&& q.rangeMask = i % (q.rangeMask + 1) := by
  obtain ⟨k, -, hk⟩ := h.capacity
  have : q.rangeMask = 2 ^ k - 1 := by omega
  rw [hk, this, Nat.and_two_pow_sub_one_eq_mod]

lemma WF.back_le (h : q.WF) : q.back ≤ q.rangeMask := by
  rw [h.back_eq]
  exact Nat.le_of_lt_succ (Nat.mod_lt _ (Nat.succ_pos _))

end Queue

lemma qCreate_wf : (qCreate : Queue W).WF where
  capacity := ⟨3, by omega, rfl⟩
  data_size := by simp [qCreate, customQueueDefaultSize]
  size_le := by simp [qCreate]
  front_le := by simp [qCreate]
  back_eq := rfl
  written := by simp [qCreate, Queue.slots]

lemma qCreate_contents : (qCreate : Queue W).contents = [] := rfl

lemma qIsEmpty_iff (h : q.WF) : qIsEmpty q = true ↔ q.contents = [] := by
  rw [qIsEmpty, beq_iff_eq, ← h.length_contents, List.length_eq_zero_iff]

/-! ### `q_next` -/

variable [Zero W]

lemma qNext_nil (h : q.WF) (hnil : q.contents = []) : qNext q = some (0, q) := by
  have hsize : q.size = 0 := by rw [← h.length_contents, hnil, List.length_nil]
  simp [qNext, hsize]

/-- `q_next` takes the oldest value and leaves the others and the capacity as they were. -/
lemma qNext_cons (h : q.WF) (hc : q.contents = v :: l) :
    ∃ q', qNext q = some (v, q') ∧ q'.WF ∧ q'.contents = l ∧ q'.rangeMask = q.rangeMask := by
  have hsize : q.size = l.length + 1 := by rw [← h.length_contents, hc, List.length_cons]
  have hslots : q.slots = some v :: l.map some := by rw [h.slots_eq, hc, List.map_cons]
  rw [Queue.slots, hsize, window_succ_front,
    Nat.mod_eq_of_lt (Nat.lt_succ_of_le h.front_le)] at hslots
  obtain ⟨hfirst, hrest⟩ := List.cons.inj hslots
  let q' : Queue W := { q with front := (q.front + 1) &&& q.rangeMask, size := q.size - 1 }
  have hfront : q'.front = (q.front + 1) % (q.rangeMask + 1) := h.and_rangeMask _
  have hsize' : q'.size = l.length := by simp [q', hsize]
  have hslots' : q'.slots = l.map some := by
    rw [Queue.slots, hsize', hfront, ← hrest, window_mod_start]
  obtain ⟨hwritten, hcontents⟩ := Queue.contents_of_slots hslots'
  have hle := h.size_le
  refine ⟨q', ?_, ⟨h.capacity, h.data_size, ?_, ?_, ?_, hwritten⟩, hcontents, rfl⟩
  · simp [qNext, hsize, hfirst, q']
  · rw [hsize']
    change l.length ≤ q.rangeMask + 1
    omega
  · rw [hfront]
    exact Nat.le_of_lt_succ (Nat.mod_lt _ (Nat.succ_pos _))
  · rw [hfront, hsize', Nat.mod_add_mod]
    change q.back = _
    rw [h.back_eq, hsize]
    congr 1
    omega

/-! ### `q_resize` -/

/-- The copy loop moves the `n` oldest values into consecutive slots of the new array and touches
no slot before them. -/
lemma qMove_spec {d : Block W} (h : q.WF) (i n : ℕ) (hn : n ≤ q.contents.length)
    (hroom : i + n ≤ d.size) :
    ∃ data q', qMove d q i n = some (data, q') ∧ data.size = d.size ∧
      (∀ j < i, data.load j = d.load j) ∧
      (List.range n).map (fun j => data.load (i + j)) = (q.contents.take n).map some := by
  induction n generalizing q d i with
  | zero => exact ⟨d, q, rfl, rfl, fun _ _ => rfl, rfl⟩
  | succ n ih =>
    obtain ⟨v, l, hc⟩ : ∃ v l, q.contents = v :: l := by
      cases hc : q.contents with
      | nil => simp [hc] at hn
      | cons v l => exact ⟨v, l, rfl⟩
    obtain ⟨q₁, hnext, hwf, hc₁, -⟩ := qNext_cons h hc
    have hstore := Block.store_of_lt (v := v) (show i < d.size by omega)
    have hsize := Block.size_store hstore
    have hload := Block.load_store hstore
    generalize d.set! i (some v) = data₁ at hstore hsize hload
    obtain ⟨data, q', hmove, hsz, hbefore, hmoved⟩ := ih (d := data₁) hwf (i + 1)
      (by rw [hc₁]; simpa [hc] using hn) (by omega)
    refine ⟨data, q', ?_, hsz.trans hsize, fun j hj => ?_, ?_⟩
    · simp [qMove, hnext, hstore, hmove]
    · rw [hbefore j (by omega), hload, if_neg (by omega)]
    · have hfirst : data.load i = some v := by
        rw [hbefore i (by omega), hload, if_pos rfl]
      rw [hc₁] at hmoved
      rw [hc, List.take_succ_cons, List.map_cons, ← hmoved, List.range_succ_eq_map]
      simp [hfirst, Function.comp_def, Nat.add_assoc, Nat.add_comm 1]

/-- `q_resize` to `n` gives the capacity the least power of two that is at least `n` and keeps the
oldest values that fit. It is undefined beyond `2 ^ 30`. -/
lemma qResize_spec (h : q.WF) (hn : 0 < n) (hle : n ≤ 2 ^ 30) :
    ∃ q', qResize q n = some q' ∧ q'.WF ∧ q'.rangeMask + 1 = 2 ^ Nat.clog 2 n ∧
      q'.contents = q.contents.take (2 ^ Nat.clog 2 n) := by
  have hround : roundUp n = some (2 ^ Nat.clog 2 n) := by
    rw [roundUp_eq hn (by omega), if_pos hle]
  have hexp : Nat.clog 2 n ≤ 30 := Nat.clog_le_of_le_pow hle
  have hpos : 0 < 2 ^ Nat.clog 2 n := Nat.two_pow_pos _
  generalize hk : Nat.clog 2 n = k at hround hexp hpos
  by_cases hsame : 2 ^ k = q.rangeMask + 1
  · refine ⟨q, by simp [qResize, hround, hsame], h, hsame.symm, ?_⟩
    rw [List.take_of_length_le]
    rw [h.length_contents, hsame]
    exact h.size_le
  · have hmoveSize : (if q.size < 2 ^ k then q.size else 2 ^ k) = min q.size (2 ^ k) := by
      split_ifs <;> omega
    obtain ⟨data, q₁, hmove, hsz, -, hmoved⟩ := qMove_spec (d := Block.malloc (2 ^ k)) h 0
      (min q.size (2 ^ k)) (by rw [h.length_contents]; omega) (by simp)
    let q' : Queue W := { q₁ with
      data := data, size := min q.size (2 ^ k), rangeMask := 2 ^ k - 1, front := 0,
      back := min q.size (2 ^ k) &&& (2 ^ k - 1) }
    have hcap : q'.rangeMask + 1 = 2 ^ k := Nat.sub_add_cancel hpos
    have htake : q.contents.take (min q.size (2 ^ k)) = q.contents.take (2 ^ k) := by
      rw [← h.length_contents, List.take_eq_take_iff]
      omega
    have hslots : q'.slots = (q.contents.take (2 ^ k)).map some := by
      rw [Queue.slots, hcap, ← htake, ← hmoved, window_linear (min_le_right _ _)]
      simp [q']
    obtain ⟨hwritten, hcontents⟩ := Queue.contents_of_slots hslots
    refine ⟨q', ?_, ⟨⟨k, by omega, hcap⟩, ?_, ?_, Nat.zero_le _, ?_, hwritten⟩, hcap, hcontents⟩
    · simp [qResize, hround, hsame, hmoveSize, hmove, q']
    · rw [hcap]
      simpa using hsz
    · rw [hcap]
      exact min_le_right _ _
    · rw [hcap]
      simp [q', Nat.and_two_pow_sub_one_eq_mod]

lemma le_of_qResize (hn : 0 < n) (hlt : n < 2 ^ 64) (hq : qResize q n = some q') : n ≤ 2 ^ 30 := by
  by_contra hgt
  rw [qResize, roundUp_eq hn hlt, if_neg hgt] at hq
  simp at hq

/-! ### `q_push` -/

/-- Storing behind the newest value, when the array has room. -/
lemma qPush_of_room (h : q.WF) (hroom : q.size < q.rangeMask + 1) :
    ∃ q', qPush q v = some q' ∧ q'.WF ∧ q'.contents = q.contents ++ [v] := by
  have hstore := Block.store_of_lt (v := v) (show q.back < q.data.size by
    rw [h.data_size]; exact Nat.lt_succ_of_le h.back_le)
  have hsize := Block.size_store hstore
  have hload := Block.load_store hstore
  generalize q.data.set! q.back (some v) = data at hstore hsize hload
  let q' : Queue W := { q with
    data := data, size := q.size + 1, back := (q.back + 1) &&& q.rangeMask }
  have hslots : q'.slots = (q.contents ++ [v]).map some := by
    rw [List.map_append, ← h.slots_eq]
    exact window_write_back hroom fun j => by rw [hload, h.back_eq]
  obtain ⟨hwritten, hcontents⟩ := Queue.contents_of_slots hslots
  refine ⟨q', ?_, ⟨h.capacity, hsize.trans h.data_size, hroom, h.front_le, ?_, hwritten⟩,
    hcontents⟩
  · simp [qPush, Nat.not_le.mpr hroom, hstore, q']
  · change (q.back + 1) &&& q.rangeMask = (q.front + (q.size + 1)) % (q.rangeMask + 1)
    rw [h.and_rangeMask, h.back_eq, Nat.mod_add_mod, Nat.add_assoc]

/-- A full queue is doubled before the value is stored. -/
lemma qPush_of_full (h : q.WF) (hfull : q.size = q.rangeMask + 1)
    (hle : (q.rangeMask + 1) * 2 ≤ 2 ^ 30) :
    ∃ q', qPush q v = some q' ∧ q'.WF ∧ q'.contents = q.contents ++ [v] := by
  obtain ⟨k, -, hk⟩ := h.capacity
  have hclog : Nat.clog 2 ((q.rangeMask + 1) * 2) = k + 1 := by
    rw [hk, ← pow_succ, Nat.clog_pow 2 _ one_lt_two]
  obtain ⟨q₁, hresize, hwf, hcap, hcontents⟩ := qResize_spec h (by omega) hle
  rw [hclog] at hcap hcontents
  have hall : q₁.contents = q.contents := by
    rw [hcontents, List.take_of_length_le]
    rw [h.length_contents, hfull, hk, pow_succ]
    omega
  have hroom : q₁.size < q₁.rangeMask + 1 := by
    rw [← hwf.length_contents, hall, h.length_contents, hfull, hcap, hk, pow_succ]
    have := Nat.two_pow_pos k
    omega
  obtain ⟨q', hpush, hwf', hcontents'⟩ := qPush_of_room (v := v) hwf hroom
  refine ⟨q', ?_, hwf', by rw [hcontents', hall]⟩
  rw [← hpush]
  simp [qPush, hfull, hresize, Nat.not_le.mpr hroom]

/-- Below `2 ^ 30` values, `q_push` is defined and appends. -/
lemma qPush_spec (h : q.WF) (hlt : q.contents.length < 2 ^ 30) :
    ∃ q', qPush q v = some q' ∧ q'.WF ∧ q'.contents = q.contents ++ [v] := by
  rcases Nat.lt_or_eq_of_le h.size_le with hroom | hfull
  · exact qPush_of_room h hroom
  · refine qPush_of_full h hfull ?_
    -- a power of two below `2 ^ 30` can be doubled
    obtain ⟨k, -, hk⟩ := h.capacity
    rw [h.length_contents, hfull, hk] at hlt
    have hk30 : k < 30 := (Nat.pow_lt_pow_iff_right one_lt_two).mp hlt
    rw [hk, ← pow_succ]
    exact Nat.pow_le_pow_right two_pos hk30

/-- Whenever `q_push` is defined, it appends. -/
lemma qPush_some (h : q.WF) (hq : qPush q v = some q') :
    q'.WF ∧ q'.contents = q.contents ++ [v] := by
  have hspec : ∃ q', qPush q v = some q' ∧ q'.WF ∧ q'.contents = q.contents ++ [v] := by
    rcases Nat.lt_or_eq_of_le h.size_le with hroom | hfull
    · exact qPush_of_room h hroom
    · refine qPush_of_full h hfull ?_
      simp only [qPush, hfull, ge_iff_le, le_refl, ↓reduceIte, Option.bind_eq_bind,
        Option.bind_eq_some_iff] at hq
      obtain ⟨q₁, hresize, -⟩ := hq
      obtain ⟨k, hk62, hk⟩ := h.capacity
      have : 2 ^ k ≤ 2 ^ 62 := Nat.pow_le_pow_right two_pos hk62
      exact le_of_qResize (by omega) (by omega) hresize
  obtain ⟨q₁, hq₁, hwf, hcontents⟩ := hspec
  rw [hq, Option.some.injEq] at hq₁
  exact hq₁ ▸ ⟨hwf, hcontents⟩

/-! ### Runs -/

/-- One call on a queue that stands for `l` does what the FIFO list does. -/
lemma queueCall_spec (h : q.WF) (c : QueueCall W) (hc : q.contents = l)
    (hbound : (fifoCall l c).2.length ≤ 2 ^ 30) :
    ∃ q', q.call c = some ((fifoCall l c).1, q') ∧ q'.WF ∧ q'.contents = (fifoCall l c).2 := by
  cases c with
  | push val =>
    have hlt : q.contents.length < 2 ^ 30 := by
      simp only [fifoCall, List.length_append, List.length_singleton] at hbound
      rw [hc]
      omega
    obtain ⟨q', hpush, hwf, hcontents⟩ := qPush_spec (v := val) h hlt
    exact ⟨q', by simp [Queue.call, hpush, fifoCall], hwf, by rw [hcontents, hc, fifoCall]⟩
  | next =>
    cases l with
    | nil => exact ⟨q, by simp [Queue.call, qNext_nil h hc, fifoCall], h, hc⟩
    | cons v l =>
      obtain ⟨q', hnext, hwf, hcontents, -⟩ := qNext_cons h hc
      exact ⟨q', by simp [Queue.call, hnext, fifoCall], hwf, hcontents⟩

/-- A run on a queue that stands for `l` returns what the FIFO list returns and ends in a queue
that stands for the list's end. -/
lemma queueRun_spec (h : q.WF) (calls : List (QueueCall W)) (hc : q.contents = l)
    (hbound : ∀ pre, pre <+: calls → (fifoRun l pre).2.length ≤ 2 ^ 30) :
    ∃ q', q.run calls = some ((fifoRun l calls).1, q') ∧ q'.WF ∧
      q'.contents = (fifoRun l calls).2 := by
  induction calls generalizing q l with
  | nil => exact ⟨q, rfl, h, hc⟩
  | cons c cs ih =>
    obtain ⟨q₁, hcall, hwf, hc₁⟩ := queueCall_spec h c hc (hbound [c] ⟨cs, rfl⟩)
    obtain ⟨q', hrun, hwf', hc'⟩ := ih hwf hc₁ fun pre hpre =>
      hbound (c :: pre) (List.cons_prefix_cons.mpr ⟨rfl, hpre⟩)
    exact ⟨q', by simp [Queue.run, hcall, hrun, fifoRun], hwf', hc'⟩

/-- Every run of `q_push` and `q_next` from `q_create` that never holds more than `2 ^ 30` values
returns what an unbounded FIFO list returns. After it the queue is well formed, stands for the
list, is empty exactly when the list is, and its next `q_next` gives the oldest value not yet
returned, or the null word (and changes nothing) when there is none. -/
theorem ring_refines_fifo (calls : List (QueueCall W))
    (hbound : ∀ pre, pre <+: calls → (fifoRun ([] : List W) pre).2.length ≤ 2 ^ 30) :
    ∃ q, (qCreate : Queue W).run calls = some ((fifoRun [] calls).1, q) ∧
      q.contents = (fifoRun [] calls).2 ∧
      (qIsEmpty q = true ↔ (fifoRun ([] : List W) calls).2 = []) ∧
      ((fifoRun ([] : List W) calls).2 = [] → qNext q = some (0, q)) ∧
      (∀ v l, (fifoRun [] calls).2 = v :: l →
        ∃ q', qNext q = some (v, q') ∧ q'.contents = l) ∧
      (∃ k, q.rangeMask + 1 = 2 ^ k) ∧
      q.size = (fifoRun ([] : List W) calls).2.length ∧ q.size ≤ q.rangeMask + 1 ∧
      q.front ≤ q.rangeMask ∧ q.back ≤ q.rangeMask ∧
      q.back = (q.front + q.size) % (q.rangeMask + 1) := by
  obtain ⟨q, hrun, hwf, hc⟩ := queueRun_spec qCreate_wf calls qCreate_contents hbound
  obtain ⟨k, -, hk⟩ := hwf.capacity
  refine ⟨q, hrun, hc, ?_, ?_, ?_, ⟨k, hk⟩, ?_, hwf.size_le, hwf.front_le, hwf.back_le,
    hwf.back_eq⟩
  · rw [qIsEmpty_iff hwf, hc]
  · intro hnil
    exact qNext_nil hwf (hc.trans hnil)
  · intro v l hcons
    obtain ⟨q', hnext, -, hc', -⟩ := qNext_cons hwf (hc.trans hcons)
    exact ⟨q', hnext, hc'⟩
  · rw [← hc, hwf.length_contents]

/-- The theorem at a run that pops, wraps around and grows while wrapped. -/
theorem ring_refines_fifo_wrapped :
    let calls := List.replicate 4 (.push 1) ++ List.replicate 3 .next ++
      (List.range 9).map (QueueCall.push (W := ℕ))
    ∃ q, (qCreate : Queue ℕ).run calls = some ((fifoRun [] calls).1, q) ∧
      q.contents = 1 :: List.range 9 := by
  intro calls
  have hbound : ∀ pre, pre <+: calls → (fifoRun ([] : List ℕ) pre).2.length ≤ 2 ^ 30 := by
    have hall : ∀ pre ∈ calls.inits, (fifoRun ([] : List ℕ) pre).2.length ≤ 2 ^ 30 := by decide
    exact fun pre hpre => hall pre ((List.mem_inits pre calls).mpr hpre)
  obtain ⟨q, hrun, hc, -⟩ := ring_refines_fifo calls hbound
  exact ⟨q, hrun, hc⟩

/-! ### The ring buffer as a queue of the pool -/

/-- A well-formed ring buffer. -/
def RingQueue (W : Type) : Type := { q : Queue W // q.WF }

lemma qNext_wf (h : q.WF) {p : W × Queue W} (hq : qNext q = some p) : p.2.WF := by
  cases hc : q.contents with
  | nil =>
    rw [qNext_nil h hc, Option.some.injEq] at hq
    exact hq ▸ h
  | cons v l =>
    obtain ⟨q', hnext, hwf, -⟩ := qNext_cons h hc
    rw [hnext, Option.some.injEq] at hq
    exact hq ▸ hwf

instance : FifoQueue (RingQueue W) W where
  create := ⟨qCreate, qCreate_wf⟩
  isEmpty q := qIsEmpty q.1
  push q w := (qPush q.1 w).pmap (fun q' h => ⟨q', h⟩) fun _ hq' => (qPush_some q.2 hq').1
  next q := (qNext q.1).pmap (fun p h => (p.1, ⟨p.2, h⟩)) fun _ hp => qNext_wf q.2 hp

instance : LawfulFifoQueue (RingQueue W) W where
  contents q := q.1.contents
  contents_create := qCreate_contents
  isEmpty_iff q := qIsEmpty_iff q.2
  contents_push {q w q'} h := by
    obtain ⟨q₁, hwf, hpush, rfl⟩ := Option.pmap_eq_some_iff.mp h
    exact (qPush_some q.2 hpush).2
  next_cons {q w l} h := by
    obtain ⟨q', hnext, hwf, hc, -⟩ := qNext_cons q.2 h
    exact ⟨⟨q', hwf⟩, Option.pmap_eq_some_iff.mpr ⟨(w, q'), hwf, hnext, rfl⟩, hc⟩

end C10K
