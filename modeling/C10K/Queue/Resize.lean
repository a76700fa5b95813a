import C10K.Queue.Refinement

/-!
# Resizing to any `long`

`q_resize` finds the highest bit of `new_size` with a 64-bit mask, and then shifts the `int`
constant `1` by its place. It keeps its promise for the sizes of which the rounded value is an
`int`, and for no other size.
-/

namespace C10K

variable {W : Type} [Zero W] {q q' : Queue W} {n : ℕ}

/-- The least power of two that is at least `n` has the rounded logarithm of `n` as exponent. -/
lemma isLeast_two_pow_clog (n : ℕ) : IsLeast {c | n ≤ c ∧ ∃ k, c = 2 ^ k} (2 ^ Nat.clog 2 n) := by
  constructor
  · exact ⟨Nat.le_pow_clog one_lt_two n, _, rfl⟩
  · rintro c ⟨hc, k, rfl⟩
    apply Nat.pow_le_pow_right two_pos
    exact Nat.clog_le_of_le_pow hc

/-- `q_resize` is defined, rounds the capacity up to the least power of two that is enough, and
keeps the oldest values that fit into it, in their order. -/
def Queue.Resized (q : Queue W) (newSize : ℕ) : Prop :=
  ∃ q', qResize q newSize = some q' ∧ q'.WF ∧
    IsLeast {c | newSize ≤ c ∧ ∃ k, c = 2 ^ k} (q'.rangeMask + 1) ∧
    q'.size = min q.size (q'.rangeMask + 1) ∧
    q'.contents = q.contents.take (min q.size (q'.rangeMask + 1))

/-- Up to `2 ^ 30`, `q_resize` does what it is for. -/
lemma Queue.WF.resized (h : q.WF) (hn : 1 ≤ n) (hle : n ≤ 2 ^ 30) : q.Resized n := by
  obtain ⟨q', hresize, hwf, hcap, hcontents⟩ := qResize_spec h hn hle
  have htake : q'.contents = q.contents.take (min q.size (q'.rangeMask + 1)) := by
    rw [hcontents, hcap, ← h.length_contents, List.take_eq_take_iff]
    omega
  refine ⟨q', hresize, hwf, ?_, ?_, htake⟩
  · rw [hcap]
    exact isLeast_two_pow_clog n
  · rw [← hwf.length_contents, htake, List.length_take, h.length_contents]
    omega

/-- `q_resize` of a well-formed queue to any size that a `long` holds up to `2 ^ 62`: the capacity
becomes the least power of two that is at least the size, and the oldest values that fit stay in
their order, exactly when the size is at most `2 ^ 30`. -/
theorem q_resize_rounds_up_iff (h : q.WF) (hn : 1 ≤ n) (hle : n ≤ 2 ^ 62) :
    q.Resized n ↔ n ≤ 2 ^ 30 := by
  constructor
  · rintro ⟨q', hresize, -⟩
    exact le_of_qResize hn (by omega) hresize
  · intro hsmall
    exact h.resized hn hsmall

/-- A queue that holds `5` to `11` in its eight slots, the last four of them wrapped around, grows
to sixteen slots and shrinks to four. -/
theorem q_resize_rounds_up_iff_wrapped :
    let calls := (List.range 8).map (QueueCall.push (W := ℕ)) ++ List.replicate 5 .next ++
      [.push 8, .push 9, .push 10, .push 11]
    ∃ outs q, (qCreate : Queue ℕ).run calls = some (outs, q) ∧ q.front = 5 ∧ q.back = 4 ∧
      q.contents = [5, 6, 7, 8, 9, 10, 11] ∧ q.Resized 9 ∧ q.Resized 3 := by
  intro calls
  have hbound : ∀ pre, pre <+: calls → (fifoRun ([] : List ℕ) pre).2.length ≤ 2 ^ 30 := by
    have hall : ∀ pre ∈ calls.inits, (fifoRun ([] : List ℕ) pre).2.length ≤ 2 ^ 30 := by decide
    exact fun pre hpre => hall pre ((List.mem_inits pre calls).mpr hpre)
  obtain ⟨q, hrun, hwf, hc⟩ := queueRun_spec qCreate_wf calls qCreate_contents hbound
  have hplaces : ((qCreate : Queue ℕ).run calls).map (fun p => (p.2.front, p.2.back)) =
      some (5, 4) := by decide
  rw [hrun, Option.map_some, Option.some.injEq, Prod.mk.injEq] at hplaces
  refine ⟨_, q, hrun, hplaces.1, hplaces.2, hc, ?_, ?_⟩
  · exact (q_resize_rounds_up_iff hwf (by decide) (by decide)).mpr (by decide)
  · exact (q_resize_rounds_up_iff hwf (by decide) (by decide)).mpr (by decide)

/-- A new queue cannot be resized to `2 ^ 32` slots: `1 << 32` is no `int`. -/
theorem q_resize_shifts_int : ¬ ∀ (q : Queue ℕ) (n : ℕ), q.WF → 1 ≤ n → n ≤ 2 ^ 62 →
    q.Resized n := by
  intro hall
  obtain ⟨q', hresize, -⟩ := hall qCreate (2 ^ 32) qCreate_wf (by decide) (by decide)
  have hsmall := le_of_qResize (by decide) (by decide) hresize
  exact absurd hsmall (by decide)

end C10K
