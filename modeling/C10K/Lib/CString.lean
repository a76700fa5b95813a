import C10K.Lib.Scan

/-!
# Writing strings into buffers

The string functions `strcpy` and `strncat`, on buffers that are lists of elements. A result is
`none` where the copied string and its NUL do not fit, or where no NUL ends a string that is read.
-/

namespace Scan

variable {α : Type*} [Zero α] {dst src d s : List α} {n : ℕ}

/-- Copy the string `s` and a NUL to the start of the buffer. -/
def strcpy (dst s : List α) : Option (List α) := blit dst 0 (s ++ [0])

theorem strcpy_eq (dst s : List α) :
    strcpy dst s =
      if s.length + 1 ≤ dst.length then some (s ++ 0 :: dst.drop (s.length + 1)) else none := by
  simp only [strcpy, blit, List.length_append, List.length_singleton, Nat.zero_add]
  split_ifs
  · simp
  · rfl

/-- Copying a string that fits. -/
theorem strcpy_holds (dst : List α) (hs : 0 ∉ s) (hfits : s.length + 1 ≤ dst.length) :
    ∃ dst', strcpy dst s = some dst' ∧ IsCString dst' s ∧ dst'.length = dst.length := by
  refine ⟨_, (strcpy_eq dst s).trans (if_pos hfits), isCString_append hs _, ?_⟩
  simp
  omega

variable [DecidableEq α]

/-- Bytes with a NUL hold the string before the first of them. -/
lemma isCString_takeWhile {bytes : List α} (h : 0 ∈ bytes) :
    IsCString bytes (bytes.takeWhile (· ≠ 0)) := by
  induction bytes with
  | nil => cases h
  | cons b bytes ih =>
    by_cases hb : b = 0
    · subst hb
      exact ⟨by simp, bytes, by simp⟩
    · obtain ⟨hmem, r, hr⟩ := ih (List.mem_of_ne_of_mem (Ne.symm hb) h)
      refine ⟨by simpa [hb, Ne.symm hb] using hmem, r, ?_⟩
      rw [List.takeWhile_cons_of_pos (by simpa using hb), List.cons_append, ← hr]

/-- Append at most `n` elements of the string in `src`, and a NUL, to the string in `dst`. -/
def strncat (dst src : List α) (n : ℕ) : Option (List α) :=
  (strlen dst).bind fun pos =>
    if n ≤ src.length ∨ 0 ∈ src then
      blit dst pos ((src.takeWhile (· ≠ 0)).take n ++ [0])
    else none

theorem strncat_eq (hd : IsCString dst d) (hs : IsCString src s) (hn : s.length ≤ n) :
    strncat dst src n =
      if d.length + s.length + 1 ≤ dst.length then
        some (d ++ s ++ 0 :: dst.drop (d.length + s.length + 1))
      else none := by
  have hmem : (0 : α) ∈ src := by
    obtain ⟨-, r, rfl⟩ := hs
    simp
  simp only [strncat, hd.strlen_eq, Option.bind_some, hs.takeWhile_eq,
    List.take_of_length_le hn, if_pos (Or.inr hmem : n ≤ src.length ∨ 0 ∈ src), blit,
    List.length_append, List.length_singleton, ← Nat.add_assoc, hd.take_eq]
  split_ifs
  · simp
  · rfl

/-- Appending a string that fits. -/
theorem strncat_holds (hd : IsCString dst d) (hs : IsCString src s) (hn : s.length ≤ n)
    (hfits : d.length + s.length + 1 ≤ dst.length) :
    ∃ dst', strncat dst src n = some dst' ∧ IsCString dst' (d ++ s) ∧ dst'.length = dst.length := by
  refine ⟨_, (strncat_eq hd hs hn).trans (if_pos hfits), isCString_append ?_ _, ?_⟩
  · rw [List.mem_append, not_or]
    exact ⟨hd.1, hs.1⟩
  · simp
    omega

/-- Appending a string that does not fit. -/
theorem strncat_eq_none (hd : IsCString dst d) (hs : IsCString src s) (hn : s.length ≤ n)
    (hlong : dst.length < d.length + s.length + 1) : strncat dst src n = none :=
  (strncat_eq hd hs hn).trans (if_neg (Nat.not_le.mpr hlong))

end Scan
