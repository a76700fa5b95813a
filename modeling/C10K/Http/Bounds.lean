import C10K.Http.Line

/-!
# Where `http_str_to_header` stays inside its string

The trimming loops have no bound of their own. On a NUL-terminated string with a colon they stay
inside, and both lengths are from 0 to 63 when they are passed to `memcpy`, unless a part of the
line is blank.
-/

namespace C10K

open Scan

variable {pre post : List UInt8} {dst : HttpHeader}

/-- On a blank key the loop `while (str[key_end] == ' ') --key_end;` leaves the string. -/
lemma httpStrToHeader_blankKey (dst : HttpHeader) (n : ℕ) (post rest : List UInt8)
    (hlen : n < 2 ^ 31) :
    httpStrToHeader dst (List.replicate n space ++ colonChar :: rest) 0 (n + 1 + post.length) =
      none := by
  have hspace : colonChar ≠ space := by decide
  have hcolon := findColon_append (l := []) (s := List.replicate n space) (r := rest)
    (n := n + 1 + post.length) (by simp [hspace]) (by simp; omega)
  have hup := skipSpacesUp_append (p := 0) (l := []) (r := rest) (s := [colonChar]) n
    (by simpa using hspace) (by simp) le_rfl (by simpa using hlen)
  have hdown : skipSpacesDown (List.replicate n space ++ colonChar :: rest) 0 ((n : ℤ) - 1) =
      none := by
    have hi : ((n : ℤ) - 1 + 1).toNat = n := by omega
    rw [skipSpacesDown, downFrom, hi, down_eq_none, Option.bind_none]
    intro k hk b hb
    rw [List.getElem?_append_left (by simpa using hk), List.getElem?_replicate_of_lt hk] at hb
    simpa using hb.symm
  simp only [List.nil_append, List.length_nil, Nat.zero_add, List.length_replicate,
    List.singleton_append] at hcolon hup
  rw [httpStrToHeader_eq dst hcolon, hup, hdown]
  rfl

/-- On a NUL-terminated string every read is inside it, and both lengths passed to `memcpy` are
from 0 to 63, exactly when a byte other than a space stands before the first colon, and the part
behind the colon is empty, or has such a byte, or is never copied because the key is too long. -/
theorem http_str_to_header_inside_iff (dst : HttpHeader) (pre post : List UInt8)
    (hcolon : colonChar ∉ pre) (hlen : (pre ++ colonChar :: post).length < 2 ^ 31) :
    (∃ result, httpStrToHeader dst (pre ++ colonChar :: post ++ [0]) 0
        (pre ++ colonChar :: post).length = some result) ↔
      trim pre ≠ [] ∧ (post = [] ∨ trim post ≠ [] ∨ 63 < (trim pre).length) := by
  obtain ⟨a, b, hpre⟩ := exists_trim pre
  obtain ⟨c, d, hpost⟩ := exists_trim post
  have hkeycolon : colonChar ∉ trim pre := by
    intro h
    rw [hpre] at hcolon
    exact hcolon (by simp [h])
  by_cases hkey : trim pre = []
  · -- the key is blank
    have hpre := eq_replicate_of_trim hkey
    have hn : (pre ++ colonChar :: post).length = pre.length + 1 + post.length := by
      simp
      omega
    have hnone := httpStrToHeader_blankKey dst pre.length post (post ++ [0]) (by omega)
    rw [← hpre, ← hn, ← List.cons_append, ← List.append_assoc] at hnone
    rw [hnone]
    exact iff_of_false (by simp) fun h => h.1 hkey
  by_cases hval : trim post = []
  · -- the value is blank
    have hpost := eq_replicate_of_trim hval
    have hline : pre ++ colonChar :: post = blankLine (trim pre) a b post.length := by
      rw [blankLine, ← hpre, ← hpost]
    have hparse := httpStrToHeader_blankLine dst [] [] (n := post.length) (trimmed_trim pre) hkey
      hkeycolon (show (0 : UInt8) ≠ space by decide) (hline ▸ hlen)
    rw [← hline] at hparse
    simp only [List.nil_append, List.length_nil] at hparse
    rw [hparse]
    by_cases hlong : headerKeyMaxLength ≤ (trim pre).length
    · rw [if_pos hlong]
      exact iff_of_true ⟨_, rfl⟩ ⟨hkey, .inr (.inr hlong)⟩
    by_cases hempty : post.length = 0
    · rw [if_neg hlong, if_pos hempty]
      exact iff_of_true ⟨_, rfl⟩ ⟨hkey, .inl (List.length_eq_zero_iff.mp hempty)⟩
    · rw [if_neg hlong, if_neg hempty]
      refine iff_of_false (by simp) ?_
      rintro ⟨-, h | h | h⟩
      · exact hempty (List.length_eq_zero_iff.mpr h)
      · exact h hval
      · exact hlong h
  · -- neither part is blank
    have hline : pre ++ colonChar :: post = headerLine (trim pre) (trim post) a b c d := by
      rw [headerLine, ← hpre, ← hpost]
    have hparts : LineParts (trim pre) (trim post) :=
      ⟨trimmed_trim pre, hkey, hkeycolon, trimmed_trim post, hval⟩
    have hparse := hparts.httpStrToHeader_eq dst [] [0] (hline ▸ hlen)
    rw [← hline] at hparse
    simp only [List.nil_append, List.length_nil] at hparse
    rw [hparse]
    exact iff_of_true ⟨_, rfl⟩ ⟨hkey, .inr (.inl hval)⟩

/-- The string `k:v` is read inside, and `k:` as well. -/
theorem http_str_to_header_inside_iff_one :
    let dst : HttpHeader := ⟨Vector.replicate _ 0, Vector.replicate _ 0⟩
    (∃ result, httpStrToHeader dst [107, colonChar, 118, 0] 0 3 = some result) ∧
      ∃ result, httpStrToHeader dst [107, colonChar, 0] 0 2 = some result := by
  intro dst
  exact ⟨(http_str_to_header_inside_iff dst [107] [118] (by decide) (by decide)).mpr
      (by decide),
    (http_str_to_header_inside_iff dst [107] [] (by decide) (by decide)).mpr
      (by decide)⟩

/-- The string `:v` is left at its front: `str[-1]` is read. -/
theorem http_str_to_header_reads_before : ¬ ∀ (dst : HttpHeader) (pre post : List UInt8),
    colonChar ∉ pre → 0 ∉ pre ++ colonChar :: post →
      (pre ++ colonChar :: post).length < 2 ^ 31 →
        ∃ result, httpStrToHeader dst (pre ++ colonChar :: post ++ [0]) 0
          (pre ++ colonChar :: post).length = some result := by
  intro hall
  have hrun : (httpStrToHeader ⟨Vector.replicate _ 0, Vector.replicate _ 0⟩
      [colonChar, 118, 0] 0 2).isNone := by decide +kernel
  obtain ⟨result, hresult⟩ := hall ⟨Vector.replicate _ 0, Vector.replicate _ 0⟩ [] [118]
    (by decide) (by decide) (by decide)
  simp only [List.nil_append, List.cons_append, List.length_cons, List.length_nil] at hresult
  rw [hresult] at hrun
  cases hrun

end C10K
