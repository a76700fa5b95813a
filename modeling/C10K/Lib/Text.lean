import Mathlib

/-!
# Text

The bytes of string literals, and the numbers that `sprintf` prints.
-/

namespace C10K

variable {n : ℕ} {b : UInt8}

/-- The bytes of a string literal. -/
def bytesOf (s : String) : List UInt8 := s.toList.map fun c => c.toNat.toUInt8

/-- The bytes of a literal that is given by its characters. -/
lemma bytesOf_ofList (l : List Char) : bytesOf (String.ofList l) = l.map fun c => c.toNat.toUInt8 :=
  congrArg (List.map _) String.toList_ofList

/-- What `%zd` prints. -/
def decimal (n : ℕ) : List UInt8 := (Nat.toDigits 10 n).map fun c => c.toNat.toUInt8

lemma toNat_of_mem_toDigits {c : Char} (hc : c ∈ Nat.toDigits 10 n) :
    48 ≤ c.toNat ∧ c.toNat ≤ 57 := by
  have hdigit := Nat.isDigit_of_mem_toDigits (by decide) (by decide) hc
  simpa [Char.isDigit, UInt32.le_iff_toNat_le] using hdigit

/-- A printed number consists of the bytes `'0'` to `'9'`. -/
lemma toNat_of_mem_decimal (h : b ∈ decimal n) : 48 ≤ b.toNat ∧ b.toNat ≤ 57 := by
  obtain ⟨c, hc, rfl⟩ := List.mem_map.mp h
  have hrange := toNat_of_mem_toDigits hc
  simp only [Nat.toUInt8_eq, UInt8.toNat_ofNat']
  omega

/-- Different numbers are printed differently. -/
lemma decimal_injective : Function.Injective decimal := by
  have hread : ∀ n, (decimal n).map (fun b => Char.ofNat b.toNat) = Nat.toDigits 10 n := by
    intro n
    rw [decimal, List.map_map]
    conv_rhs => rw [← List.map_id (Nat.toDigits 10 n)]
    apply List.map_congr_left
    intro c hc
    have hrange := toNat_of_mem_toDigits hc
    have hbyte : c.toNat.toUInt8.toNat = c.toNat := by
      simp only [Nat.toUInt8_eq, UInt8.toNat_ofNat']
      omega
    rw [Function.comp_apply, hbyte, Char.ofNat_toNat]
    rfl
  intro m n h
  rw [← Nat.ofDigitChars_ten_toDigits (n := m), ← hread, h, hread, Nat.ofDigitChars_ten_toDigits]

end C10K
