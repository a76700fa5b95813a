import Mathlib

/-!
# Scanning loops, slices and C strings

The loops `while (cond(i, mem[i])) ++i` and `while (cond(mem[i])) --i` over a memory object, the
copying of a range of bytes, and strings that end at the first NUL. Memory is the list of the
object's elements; a result is `none` where the loop or the copy would leave the object.
-/

namespace Scan

variable {α : Type*} {f : ℕ → α → Bool} {p : α → Bool} {l m r mem : List α} {b : α}

/-! ### Loops -/

/-- `while (cond(i, mem[i])) ++i`, where the list is what the object holds from index `i` on. -/
def up (f : ℕ → α → Bool) (i : ℕ) : List α → Option ℕ
  | []        => none
  | b :: r => if f i b then up f (i + 1) r else some i

/-- `while (cond(i, mem[i])) ++i` from index `i`. -/
def upFrom (f : ℕ → α → Bool) (mem : List α) (i : ℕ) : Option ℕ := up f i (mem.drop i)

/-- `while (p(mem[i])) --i`, where the argument is `i + 1`: it is 0 at the index before the
object. -/
def down (p : α → Bool) (mem : List α) : ℕ → Option ℕ
  | 0     => none
  | i + 1 => mem[i]?.bind fun b => if p b then down p mem i else some i

/-- `while (p(mem[i])) --i` from an index that may be negative. -/
def downFrom (p : α → Bool) (mem : List α) (i : ℤ) : Option ℕ := down p mem (i + 1).toNat

lemma up_append (i : ℕ) (hmid : ∀ k (hk : k < m.length), f (i + k) m[k] = true)
    (hstop : f (i + m.length) b = false) :
    up f i (m ++ b :: r) = some (i + m.length) := by
  induction m generalizing i with
  | nil =>
    have hb : f i b = false := hstop
    simp [up, hb]
  | cons c m ih =>
    have hc : f i c = true := hmid 0 (Nat.succ_pos _)
    rw [List.cons_append, up, if_pos hc, ih (i + 1)]
    · rw [List.length_cons]
      congr 1
      omega
    · intro k hk
      have := hmid (k + 1) (by simpa using hk)
      simpa [Nat.add_assoc, Nat.add_comm 1] using this
    · simpa [Nat.add_assoc, Nat.add_comm 1] using hstop

/-- The upward loop passes the elements that meet the condition and stops at the first that does
not. -/
theorem upFrom_append (hmid : ∀ k (hk : k < m.length), f (l.length + k) m[k] = true)
    (hstop : f (l.length + m.length) b = false) :
    upFrom f (l ++ m ++ b :: r) l.length = some (l.length + m.length) := by
  rw [upFrom, List.append_assoc, List.drop_left]
  exact up_append _ hmid hstop

lemma down_append (r : List α) (hmid : ∀ c ∈ m, p c = true) (hstop : p b = false) :
    down p (l ++ b :: m ++ r) (l.length + 1 + m.length) = some l.length := by
  induction m using List.reverseRecOn generalizing r with
  | nil => simp [down, hstop]
  | append_singleton m c ih =>
    have hmem : l ++ b :: (m ++ [c]) ++ r = l ++ b :: m ++ c :: r := by simp
    have hget : (l ++ b :: m ++ c :: r)[l.length + 1 + m.length]? = some c := by
      rw [List.getElem?_append_right (by simp; omega)]
      simp [Nat.add_assoc, Nat.add_comm 1]
    rw [hmem, List.length_append, List.length_singleton, ← Nat.add_assoc, down, hget,
      Option.bind_some, if_pos (hmid c (by simp))]
    exact ih _ fun c hc => hmid c (List.mem_append_left _ hc)

/-- The downward loop passes the elements that meet the condition and stops at the last that does
not. -/
theorem downFrom_append {i : ℤ} (hmid : ∀ c ∈ m, p c = true) (hstop : p b = false)
    (hi : i = l.length + m.length) :
    downFrom p (l ++ b :: m ++ r) i = some l.length := by
  have : (i + 1).toNat = l.length + 1 + m.length := by omega
  rw [downFrom, this]
  exact down_append r hmid hstop

/-- The upward loop stops at once where the condition fails. -/
lemma upFrom_stop {i : ℕ} (hi : i < mem.length) (hstop : ∀ b, f i b = false) :
    upFrom f mem i = some i := by
  rw [upFrom, List.drop_eq_getElem_cons hi, up, hstop]
  rfl

/-- Where the upward loop stops, if it stops. -/
lemma up_eq_some {i j : ℕ} (h : up f i mem = some j) :
    ∃ m b r, mem = m ++ b :: r ∧ j = i + m.length ∧ f j b = false ∧
      ∀ k (hk : k < m.length), f (i + k) m[k] = true := by
  induction mem generalizing i with
  | nil => cases h
  | cons b mem ih =>
    rw [up] at h
    split_ifs at h with hb
    · obtain ⟨m, b', r, rfl, rfl, hstop, hmid⟩ := ih h
      refine ⟨b :: m, b', r, rfl, ?_, hstop, ?_⟩
      · rw [List.length_cons]
        omega
      · rintro (_ | k) hk
        · exact hb
        · have := hmid k (by simpa using hk)
          simpa [Nat.add_assoc, Nat.add_comm 1] using this
    · cases h
      exact ⟨[], b, mem, rfl, rfl, by simpa using hb, nofun⟩

/-- The upward loop cannot start behind the object. -/
lemma upFrom_of_length_le {i : ℕ} (hi : mem.length ≤ i) : upFrom f mem i = none := by
  rw [upFrom, List.drop_of_length_le hi]
  rfl

/-- The downward loop leaves the object when it starts among elements that it passes. -/
lemma down_eq_none {i : ℕ} (h : ∀ k < i, ∀ b, mem[k]? = some b → p b = true) :
    down p mem i = none := by
  induction i with
  | zero => rfl
  | succ i ih =>
    rw [down, Option.bind_eq_none_iff]
    intro b hb
    rw [if_pos (h i (Nat.lt_succ_self i) b hb)]
    exact ih fun k hk => h k (hk.trans (Nat.lt_succ_self i))

/-! ### Copies -/

/-- The `len` elements from `start` on. A negative length is a huge unsigned one. -/
def slice (mem : List α) (start : ℕ) (len : ℤ) : Option (List α) :=
  if 0 ≤ len ∧ start + len ≤ mem.length then some ((mem.drop start).take len.toNat) else none

lemma slice_of_neg {start : ℕ} {len : ℤ} (h : len < 0) : slice mem start len = none :=
  if_neg fun hlen => by omega

theorem slice_append {len : ℤ} (hlen : len = m.length) :
    slice (l ++ m ++ r) l.length len = some m := by
  subst hlen
  rw [slice, if_pos]
  · rw [List.append_assoc, List.drop_left, Int.toNat_natCast, List.take_left]
  · simp only [List.length_append]
    omega

/-- Write the elements of `src` over those of `dst` from `pos` on. -/
def blit (dst : List α) (pos : ℕ) (src : List α) : Option (List α) :=
  if pos + src.length ≤ dst.length then
    some (dst.take pos ++ src ++ dst.drop (pos + src.length))
  else none

/-- Writing behind what was written so far. -/
theorem blit_append {d s : List α} (h : l.length + s.length ≤ d.length) :
    blit (l ++ d.drop l.length) l.length s =
      some (l ++ s ++ d.drop (l ++ s).length) := by
  rw [blit, if_pos]
  · rw [List.take_left, List.drop_append, List.drop_eq_nil_of_le (by omega), List.nil_append,
      List.drop_drop, List.length_append]
    congr 3
    omega
  · simp only [List.length_append, List.length_drop]
    omega

/-- Write into an array of fixed size. -/
def blitVector {n : ℕ} (dst : Vector α n) (pos : ℕ) (src : List α) : Option (Vector α n) :=
  if h : pos + src.length ≤ n then
    some ⟨(dst.toList.take pos ++ src ++ dst.toList.drop (pos + src.length)).toArray, by
      simp only [List.size_toArray, List.length_append, List.length_take, List.length_drop,
        Vector.length_toList]
      omega⟩
  else none

/-- An array that starts with `src` and the terminator `b`, where both fit into it. -/
def terminated {n : ℕ} (dst : Vector α n) (src : List α) (b : α) : Vector α n :=
  if h : src.length < n then
    ⟨(src ++ b :: dst.toList.drop (src.length + 1)).toArray, by simp; omega⟩
  else dst

lemma toList_terminated {n : ℕ} (dst : Vector α n) (src : List α) (b : α) (h : src.length < n) :
    (terminated dst src b).toList = src ++ b :: dst.toList.drop (src.length + 1) := by
  simp [terminated, h, Vector.toList]

/-- Writing a string and then its terminator at the start of an array. -/
theorem blitVector_terminated {n : ℕ} (dst : Vector α n) (src : List α) (b : α)
    (h : src.length < n) :
    ∃ dst₁, blitVector dst 0 src = some dst₁ ∧
      blitVector dst₁ src.length [b] = some (terminated dst src b) := by
  have h₁ : 0 + src.length ≤ n := by omega
  have h₂ : src.length + [b].length ≤ n := by simpa using h
  refine ⟨_, dif_pos h₁, ?_⟩
  rw [blitVector, dif_pos h₂, terminated, dif_pos h]
  simp [Vector.toList]

/-! ### Strings that end at the first NUL -/

section CString

variable [Zero α] {bytes s : List α}

/-- The bytes hold the string `s`: its elements, none of them NUL, then a NUL. -/
def IsCString (bytes s : List α) : Prop := 0 ∉ s ∧ ∃ r, bytes = s ++ 0 :: r

lemma isCString_append (h : 0 ∉ s) (r : List α) : IsCString (s ++ 0 :: r) s :=
  ⟨h, r, rfl⟩

lemma IsCString.take_eq (h : IsCString bytes s) : bytes.take s.length = s := by
  obtain ⟨-, r, rfl⟩ := h
  exact List.take_left

lemma IsCString.length_lt (h : IsCString bytes s) : s.length < bytes.length := by
  obtain ⟨-, r, rfl⟩ := h
  simp

variable [DecidableEq α]

/-- What the string function `strlen` counts; `none` where no NUL ends the string. -/
def strlen (bytes : List α) : Option ℕ :=
  if 0 ∈ bytes then some (bytes.takeWhile (· ≠ 0)).length else none

lemma IsCString.takeWhile_eq (h : IsCString bytes s) : bytes.takeWhile (· ≠ 0) = s := by
  obtain ⟨hs, r, rfl⟩ := h
  rw [List.takeWhile_append_of_pos]
  · simp
  · intro a ha
    simpa using fun h0 : a = 0 => hs (h0 ▸ ha)

lemma IsCString.strlen_eq (h : IsCString bytes s) : strlen bytes = some s.length := by
  have hmem : (0 : α) ∈ bytes := by
    obtain ⟨-, r, rfl⟩ := h
    simp
  rw [strlen, if_pos hmem, h.takeWhile_eq]

end CString

end Scan
