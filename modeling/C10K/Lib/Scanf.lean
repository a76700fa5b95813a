import Mathlib

/-!
# Formatted input and `int`s

The function `sscanf` on formats of characters, strings and white space, the function `atoi`, and
the values that an `int` of 32 bits holds. A value is `none` where no `int` holds it or where it is
divided by zero, both of which C leaves undefined.
-/

namespace Scanf

/-! ### Values of type `int` -/

def intMin : ℤ := -2 ^ 31
def intMax : ℤ := 2 ^ 31 - 1

/-- The value, if an `int` holds it. -/
def toInt (z : ℤ) : Option ℤ := if intMin ≤ z ∧ z ≤ intMax then some z else none

/-- The operator `/`, which truncates towards zero. -/
def intDiv (a b : ℤ) : Option ℤ := if b = 0 then none else toInt (a.tdiv b)

variable {a b r z : ℤ}

lemma toInt_eq_some_iff : toInt z = some r ↔ r = z ∧ intMin ≤ z ∧ z ≤ intMax := by
  rw [toInt]
  split_ifs with h
  · simp [h, eq_comm]
  · simp [h]

lemma exists_toInt_iff : (∃ r, toInt z = some r) ↔ intMin ≤ z ∧ z ≤ intMax := by
  simp only [toInt_eq_some_iff, exists_eq_left]

lemma range_of_toInt (h : toInt z = some r) : intMin ≤ r ∧ r ≤ intMax := by
  obtain ⟨rfl, hrange⟩ := toInt_eq_some_iff.mp h
  exact hrange

/-- The quotient of two `int`s is one, with one exception. -/
lemma exists_intDiv_iff (ha : intMin ≤ a ∧ a ≤ intMax) :
    (∃ r, intDiv a b = some r) ↔ b ≠ 0 ∧ ¬ (a = intMin ∧ b = -1) := by
  rw [intDiv]
  split_ifs with hb
  · simp [hb]
  · rw [exists_toInt_iff]
    simp only [intMin, intMax] at ha ⊢
    have habs : (a.tdiv b).natAbs = a.natAbs / b.natAbs := Int.natAbs_tdiv a b
    have hle : a.natAbs / b.natAbs ≤ a.natAbs := Nat.div_le_self ..
    constructor
    · rintro ⟨-, hmax⟩
      refine ⟨hb, ?_⟩
      rintro ⟨rfl, rfl⟩
      exact absurd hmax (by decide)
    · rintro ⟨-, hnot⟩
      refine ⟨by omega, ?_⟩
      by_contra hlt
      -- the only quotient that is too large is `2 ^ 31`
      have hquot : a.natAbs / b.natAbs = 2 ^ 31 := by omega
      have hamin : a = -2 ^ 31 := by omega
      have hbabs : b.natAbs = 1 := by
        by_contra hne
        have hlt := Nat.div_lt_self (n := a.natAbs) (k := b.natAbs) (by omega) (by omega)
        omega
      rcases Int.natAbs_eq b with hpos | hneg
      · rw [hbabs] at hpos
        subst hpos
        rw [hamin] at hlt
        exact hlt (by decide)
      · exact hnot ⟨hamin, by omega⟩

/-! ### Input -/

/-- White space of the C locale. -/
def isSpace (b : UInt8) : Bool := b = 32 ∨ 9 ≤ b ∧ b ≤ 13

def isDigit (b : UInt8) : Bool := 48 ≤ b ∧ b ≤ 57

/-- The number that the digits at the start of some bytes denote. -/
def number (bytes : List UInt8) : ℕ :=
  (bytes.takeWhile isDigit).foldl (fun n b => 10 * n + (b.toNat - 48)) 0

/-- The function `atoi`. -/
def atoi (bytes : List UInt8) : Option ℤ :=
  match bytes.dropWhile isSpace with
  | 45 :: bytes => toInt (-number bytes)
  | 43 :: bytes => toInt (number bytes)
  | bytes       => toInt (number bytes)

/-- The directives `%c` and `%s`, and a blank. -/
inductive Directive where
  | char
  | string
  | blank

/-- What a directive reads. -/
inductive Field where
  | char (b : UInt8)
  | string (bytes : List UInt8)
  deriving DecidableEq

def Field.bytes : Field → List UInt8
  | .char b       => [b]
  | .string bytes => bytes

/-- The string and its NUL fit into an array. -/
def Field.Fits (size : ℕ) : Field → Prop
  | .char _       => True
  | .string bytes => bytes.length < size

instance (size : ℕ) : DecidablePred (Field.Fits size) := fun field =>
  match field with
  | .char _       => isTrue trivial
  | .string bytes => inferInstanceAs (Decidable (bytes.length < size))

/-- The fields that are read before the first directive that fails. -/
def fields : List Directive → List UInt8 → List Field
  | [], _                  => []
  | .blank :: format, s    => fields format (s.dropWhile isSpace)
  | .char :: _, []         => []
  | .char :: format, b :: s => .char b :: fields format s
  | .string :: format, s   =>
    let s := s.dropWhile isSpace
    let token := s.takeWhile (!isSpace ·)
    if token = [] then [] else .string token :: fields format (s.drop token.length)

/-- The function `sscanf`, on the string at the start of some bytes. -/
def sscanf (format : List Directive) (bytes : List UInt8) : List Field :=
  fields format (bytes.takeWhile (· ≠ 0))

variable {format : List Directive} {s bytes : List UInt8} {field : Field}

lemma range_of_atoi (h : atoi s = some z) : intMin ≤ z ∧ z ≤ intMax := by
  unfold atoi at h
  split at h
  · exact range_of_toInt h
  · exact range_of_toInt h
  · exact range_of_toInt h

/-- The bytes of the fields are bytes of the input, in order. -/
lemma sublist_fields (format : List Directive) (s : List UInt8) :
    ((fields format s).flatMap Field.bytes).Sublist s := by
  induction format generalizing s with
  | nil => exact List.nil_sublist s
  | cons directive format ih =>
    cases directive with
    | blank => exact (ih _).trans (List.dropWhile_sublist _)
    | char =>
      cases s with
      | nil => exact List.nil_sublist []
      | cons b s => exact (ih s).cons_cons b
    | string =>
      simp only [fields]
      split_ifs
      · exact List.nil_sublist s
      · set rest := s.dropWhile isSpace
        have htake : rest.takeWhile (!isSpace ·) =
            rest.take (rest.takeWhile (!isSpace ·)).length :=
          (List.prefix_iff_eq_take.mp (List.takeWhile_prefix _))
        have hrest : (rest.takeWhile (!isSpace ·) ++
            rest.drop (rest.takeWhile (!isSpace ·)).length) = rest := by
          conv_lhs => arg 1; rw [htake]
          exact List.take_append_drop _ _
        rw [List.flatMap_cons, Field.bytes]
        refine ((List.Sublist.refl _).append (ih _)).trans ?_
        rw [hrest]
        exact List.dropWhile_sublist _

/-- The fields are shorter than the input. -/
lemma length_bytes_le (h : field ∈ sscanf format bytes) : field.bytes.length ≤ bytes.length := by
  have hfield : field.bytes.Sublist ((sscanf format bytes).flatMap Field.bytes) := by
    rw [List.flatMap_def]
    exact List.sublist_flatten_of_mem (List.mem_map_of_mem h)
  exact hfield.length_le.trans
    ((sublist_fields _ _).length_le.trans (List.takeWhile_sublist _).length_le)

/-- No field holds a NUL. -/
lemma nul_not_mem_bytes (h : field ∈ sscanf format bytes) : 0 ∉ field.bytes := by
  intro hmem
  have hall : (0 : UInt8) ∈ (sscanf format bytes).flatMap Field.bytes :=
    List.mem_flatMap.mpr ⟨field, h, hmem⟩
  simpa using List.mem_takeWhile_imp ((sublist_fields _ _).subset hall)

end Scanf
