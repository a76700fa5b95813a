import C10K.Http.Header

/-!
# Parsing one line

What `http_str_to_header` does once its five scans have stopped, and where they stop: on a line
with a key and a value, on a line with a blank part, and on a line without a colon.
-/

namespace C10K

open Scan

variable {l r s key value mem : List UInt8} {a b c d p str strLen : ℕ}
variable {colon keyStart keyEnd valStart valEnd : ℕ} {dst : HttpHeader}

/-! ### Spaces at the ends of a string -/

/-- The string without the spaces at its ends. -/
def trim (s : List UInt8) : List UInt8 :=
  (s.dropWhile fun b => b = space).rdropWhile fun b => b = space

lemma exists_trim (s : List UInt8) :
    ∃ a b, s = List.replicate a space ++ trim s ++ List.replicate b space := by
  refine ⟨(s.takeWhile fun b => b = space).length,
    ((s.dropWhile fun b => b = space).rtakeWhile fun b => b = space).length, ?_⟩
  have hleft : s.takeWhile (fun b => b = space) = List.replicate _ space :=
    List.eq_replicate_of_mem fun b hb => by simpa using List.mem_takeWhile_imp hb
  have hright : (s.dropWhile fun b => b = space).rtakeWhile (fun b => b = space) =
      List.replicate _ space :=
    List.eq_replicate_of_mem fun b hb => by simpa using List.mem_rtakeWhile_imp hb
  rw [← hleft, ← hright, trim, List.append_assoc, List.rdropWhile_append_rtakeWhile,
    List.takeWhile_append_dropWhile]

lemma trimmed_trim (s : List UInt8) : Trimmed (trim s) := by
  obtain ⟨t, ht⟩ := List.rdropWhile_prefix (fun b => decide (b = space))
    (s.dropWhile fun b => b = space)
  constructor
  · intro hhead
    have hfirst := List.head?_dropWhile_not (fun b => decide (b = space)) s
    have hcut : (s.dropWhile fun b => decide (b = space)).head? = some space := by
      rw [← ht, List.head?_append]
      exact Option.or_eq_some_iff.mpr (.inl hhead)
    rw [hcut] at hfirst
    simp at hfirst
  · intro hlast
    have hne : trim s ≠ [] := by
      intro hnil
      rw [hnil] at hlast
      cases hlast
    have hnot := List.rdropWhile_last_not _ _ hne
    rw [List.getLast?_eq_some_getLast hne, Option.some.injEq] at hlast
    exact hnot (decide_eq_true hlast)

lemma eq_replicate_of_trim (h : trim s = []) : s = List.replicate s.length space := by
  obtain ⟨a, b, hs⟩ := exists_trim s
  rw [h, List.append_nil, List.replicate_append_replicate] at hs
  rw [hs, List.length_replicate]

/-! ### A part of a line -/

/-- The two loops that trim a part of a line stop at its first and at its last byte. -/
lemma scans_part (hs : Trimmed s) (hne : s ≠ []) (hp : p ≤ l.length)
    (hlen : l.length + a + s.length < p + 2 ^ 31) :
    skipSpacesUp (l ++ (List.replicate a space ++ s ++ List.replicate b space) ++ r) p l.length =
        some (l.length + a) ∧
      skipSpacesDown (l ++ (List.replicate a space ++ s ++ List.replicate b space) ++ r) p
          (l.length + (a + s.length + b : ℕ) - 1) =
        some (l.length + a + s.length - 1) := by
  constructor
  · have hcut : l ++ (List.replicate a space ++ s ++ List.replicate b space) ++ r =
        l ++ List.replicate a space ++ (s ++ (List.replicate b space ++ r)) := by simp
    rw [hcut]
    exact skipSpacesUp_append a hs.1 hne hp (by omega)
  · have hcut : l ++ (List.replicate a space ++ s ++ List.replicate b space) ++ r =
        (l ++ List.replicate a space) ++ s ++ List.replicate b space ++ r := by simp
    rw [hcut, skipSpacesDown_append b hs.2 hne]
    · simp
    · simp
      omega
    · simp
      omega
    · simp
      omega

lemma slice_part (hmem : mem = l ++ (List.replicate a space ++ s ++ List.replicate b space) ++ r) :
    slice mem (l.length + a) s.length = some s := by
  have := slice_append (l := l ++ List.replicate a space) (m := s)
    (r := List.replicate b space ++ r) rfl
  simpa [hmem] using this

/-! ### After the scans -/

/-- The header with both strings written over the old ones, where they fit. -/
def HttpHeader.store (dst : HttpHeader) (key value : List UInt8) : HttpHeader where
  key := terminated dst.key key 0
  value := terminated dst.value value 0

/-- What `http_str_to_header` does with the parts of a line. -/
def storeParts (dst : HttpHeader) (mem : List UInt8) (keyStart keyEnd valStart valEnd : ℕ) :
    Option (ℤ × HttpHeader) := do
  let keyLen : ℤ := keyEnd - keyStart + 1
  let valLen : ℤ := valEnd - valStart + 1
  if keyLen + 1 > headerKeyMaxLength ∨ valLen + 1 > headerValueMaxLength then return (-1, dst)
  let keyBytes ← slice mem keyStart keyLen
  let valBytes ← slice mem valStart valLen
  let key ← blitVector dst.key 0 keyBytes
  let value ← blitVector dst.value 0 valBytes
  let key ← blitVector key keyLen.toNat [0]
  let value ← blitVector value valLen.toNat [0]
  return (0, { key, value })

/-- The scan for the colon does not pass `str_len`. -/
lemma findColon_le (h : findColon mem str strLen = some colon) : colon ≤ str + strLen := by
  obtain ⟨m, b, r, -, rfl, -, hpassed⟩ := up_eq_some h
  rcases Nat.eq_zero_or_pos m.length with hzero | hpos
  · rw [hzero]
    exact Nat.le_add_right ..
  · have hlast := hpassed (m.length - 1) (Nat.sub_one_lt_of_lt hpos)
    simp only [decide_eq_true_eq] at hlast
    omega

lemma httpStrToHeader_eq (dst : HttpHeader) (hcolon : findColon mem str strLen = some colon) :
    httpStrToHeader dst mem str strLen =
      (skipSpacesUp mem str str).bind fun keyStart =>
        (skipSpacesDown mem str (colon - 1)).bind fun keyEnd =>
          (skipSpacesUp mem str (colon + 1)).bind fun valStart =>
            (skipSpacesDown mem str (str + strLen - 1)).bind fun valEnd =>
              storeParts dst mem keyStart keyEnd valStart valEnd := by
  rw [httpStrToHeader, hcolon]
  exact if_neg (Nat.not_lt.mpr (findColon_le hcolon))

/-- The five scans have stopped. -/
structure Scanned (mem : List UInt8) (str strLen colon keyStart keyEnd valStart valEnd : ℕ) :
    Prop where
  colon_eq : findColon mem str strLen = some colon
  colon_le : colon ≤ str + strLen
  keyStart_eq : skipSpacesUp mem str str = some keyStart
  keyEnd_eq : skipSpacesDown mem str (colon - 1) = some keyEnd
  valStart_eq : skipSpacesUp mem str (colon + 1) = some valStart
  valEnd_eq : skipSpacesDown mem str (str + strLen - 1) = some valEnd

namespace Scanned

variable (h : Scanned mem str strLen colon keyStart keyEnd valStart valEnd)
include h

lemma httpStrToHeader_eq (dst : HttpHeader) : httpStrToHeader dst mem str strLen =
    storeParts dst mem keyStart keyEnd valStart valEnd := by
  rw [C10K.httpStrToHeader_eq dst h.colon_eq, h.keyStart_eq, h.keyEnd_eq, h.valStart_eq,
    h.valEnd_eq]
  rfl

/-- A part that is too long is rejected. -/
lemma reject (dst : HttpHeader) (hlong : (keyEnd : ℤ) - keyStart + 1 + 1 > headerKeyMaxLength ∨
    (valEnd : ℤ) - valStart + 1 + 1 > headerValueMaxLength) :
    httpStrToHeader dst mem str strLen = some (-1, dst) := by
  rw [h.httpStrToHeader_eq, storeParts]
  exact if_pos hlong

/-- Two parts that fit are stored. -/
lemma accept (dst : HttpHeader) (hkey : slice mem keyStart key.length = some key)
    (hkeyLen : (keyEnd : ℤ) - keyStart + 1 = key.length)
    (hval : slice mem valStart value.length = some value)
    (hvalLen : (valEnd : ℤ) - valStart + 1 = value.length)
    (hkeylt : key.length < headerKeyMaxLength) (hvallt : value.length < headerValueMaxLength) :
    httpStrToHeader dst mem str strLen = some (0, dst.store key value) := by
  obtain ⟨key₁, hk₁, hk₂⟩ := blitVector_terminated dst.key key 0 hkeylt
  obtain ⟨val₁, hv₁, hv₂⟩ := blitVector_terminated dst.value value 0 hvallt
  have hfits : ¬ ((key.length : ℤ) + 1 > headerKeyMaxLength ∨
      (value.length : ℤ) + 1 > headerValueMaxLength) := by omega
  rw [h.httpStrToHeader_eq]
  simp only [storeParts, hkeyLen, hvalLen, if_neg hfits, hkey, hval, hk₁, hv₁, Int.toNat_natCast,
    hk₂, hv₂, Option.bind_eq_bind, Option.bind_some, Option.pure_def, HttpHeader.store]

/-- A negative length is passed to `memcpy`. -/
lemma crossed (dst : HttpHeader) (hkey : (keyEnd : ℤ) - keyStart + 1 + 1 ≤ headerKeyMaxLength)
    (hval : (valEnd : ℤ) - valStart + 1 < 0) :
    httpStrToHeader dst mem str strLen = none := by
  have hfits : ¬ ((keyEnd : ℤ) - keyStart + 1 + 1 > headerKeyMaxLength ∨
      (valEnd : ℤ) - valStart + 1 + 1 > headerValueMaxLength) := by
    simp only [headerValueMaxLength]
    omega
  rw [h.httpStrToHeader_eq]
  simp only [storeParts, if_neg hfits, slice_of_neg hval, Option.bind_eq_bind, Option.bind_none,
    Option.bind_fun_none]

end Scanned

/-- A result is returned only after the five scans have stopped. -/
lemma exists_scanned {result : ℤ × HttpHeader}
    (h : httpStrToHeader dst mem str strLen = some result) :
    ∃ colon keyStart keyEnd valStart valEnd,
      Scanned mem str strLen colon keyStart keyEnd valStart valEnd := by
  obtain ⟨colon, hcolon, -⟩ := Option.bind_eq_some_iff.mp h
  rw [httpStrToHeader_eq dst hcolon] at h
  simp only [Option.bind_eq_some_iff] at h
  obtain ⟨keyStart, h₂, keyEnd, h₃, valStart, h₄, valEnd, h₅, -⟩ := h
  exact ⟨colon, keyStart, keyEnd, valStart, valEnd, hcolon, findColon_le hcolon, h₂, h₃, h₄, h₅⟩

/-! ### A line with a key and a value -/

/-- The bytes of a line: a key and a value, each between spaces, with a colon between them. -/
def headerLine (key value : List UInt8) (a b c d : ℕ) : List UInt8 :=
  (List.replicate a space ++ key ++ List.replicate b space) ++
    colonChar :: (List.replicate c space ++ value ++ List.replicate d space)

@[simp] lemma length_headerLine (key value : List UInt8) (a b c d : ℕ) :
    (headerLine key value a b c d).length =
      a + key.length + b + 1 + (c + value.length + d) := by
  simp [headerLine]
  omega

/-- A nonempty key without a colon and a nonempty value, neither with a space at an end. -/
structure LineParts (key value : List UInt8) : Prop where
  key_trimmed : Trimmed key
  key_ne_nil : key ≠ []
  key_colon : colonChar ∉ key
  value_trimmed : Trimmed value
  value_ne_nil : value ≠ []

/-- Both parts and their terminators fit into a header. -/
def FitsHeader (key value : List UInt8) : Prop :=
  key.length < headerKeyMaxLength ∧ value.length < headerValueMaxLength

instance (key value : List UInt8) : Decidable (FitsHeader key value) :=
  inferInstanceAs (Decidable (_ ∧ _))

lemma LineParts.findColon_eq (h : LineParts key value) :
    findColon (l ++ headerLine key value a b c d ++ r) l.length
      (headerLine key value a b c d).length = some (l.length + (a + key.length + b)) := by
  have hspace : colonChar ≠ space := by decide
  have := findColon_append (l := l) (n := (headerLine key value a b c d).length)
    (s := List.replicate a space ++ key ++ List.replicate b space)
    (r := List.replicate c space ++ value ++ List.replicate d space ++ r)
    (by simp [h.key_colon, hspace]) (by simp; omega)
  simpa [headerLine, Nat.add_assoc] using this

/-- Where the five scans stop on a line. -/
lemma LineParts.scanned (h : LineParts key value)
    (hlen : (headerLine key value a b c d).length < 2 ^ 31) :
    Scanned (l ++ headerLine key value a b c d ++ r) l.length
      (headerLine key value a b c d).length (l.length + (a + key.length + b)) (l.length + a)
      (l.length + a + key.length - 1) (l.length + (a + key.length + b) + 1 + c)
      (l.length + (a + key.length + b) + 1 + c + value.length - 1) := by
  rw [length_headerLine] at hlen
  have hkeyparts := scans_part (l := l) (p := l.length) (a := a) (b := b)
    (r := colonChar :: (List.replicate c space ++ value ++ List.replicate d space) ++ r)
    h.key_trimmed h.key_ne_nil le_rfl (by omega)
  have hcolon : (l ++ (List.replicate a space ++ key ++ List.replicate b space) ++
      [colonChar]).length = l.length + (a + key.length + b) + 1 := by
    simp
    omega
  have hvalparts := scans_part (p := l.length) (a := c) (b := d) (r := r)
    (l := l ++ (List.replicate a space ++ key ++ List.replicate b space) ++ [colonChar])
    h.value_trimmed h.value_ne_nil (by rw [hcolon]; omega) (by rw [hcolon]; omega)
  have hcut₁ : l ++ (List.replicate a space ++ key ++ List.replicate b space) ++
      (colonChar :: (List.replicate c space ++ value ++ List.replicate d space) ++ r) =
        l ++ headerLine key value a b c d ++ r := by simp [headerLine]
  have hcut₂ : l ++ (List.replicate a space ++ key ++ List.replicate b space) ++ [colonChar] ++
      (List.replicate c space ++ value ++ List.replicate d space) ++ r =
        l ++ headerLine key value a b c d ++ r := by simp [headerLine]
  rw [hcut₁] at hkeyparts
  rw [hcut₂, hcolon] at hvalparts
  refine ⟨h.findColon_eq, by simp; omega, hkeyparts.1, ?_, hvalparts.1, ?_⟩
  · exact_mod_cast hkeyparts.2
  · have hend : (l.length : ℤ) + (headerLine key value a b c d).length - 1 =
        (l.length + (a + key.length + b) + 1 : ℕ) + (c + value.length + d : ℕ) - 1 := by
      simp
      omega
    rw [hend]
    exact hvalparts.2

/-- A line is parsed or rejected by the lengths of its parts alone, whatever surrounds it. -/
theorem LineParts.httpStrToHeader_eq (h : LineParts key value) (dst : HttpHeader)
    (l r : List UInt8) (hlen : (headerLine key value a b c d).length < 2 ^ 31) :
    httpStrToHeader dst (l ++ headerLine key value a b c d ++ r) l.length
        (headerLine key value a b c d).length =
      some (if FitsHeader key value then (0, dst.store key value) else (-1, dst)) := by
  have hkeypos : 0 < key.length := List.length_pos_of_ne_nil h.key_ne_nil
  have hvalpos : 0 < value.length := List.length_pos_of_ne_nil h.value_ne_nil
  have hkl : ((l.length + a + key.length - 1 : ℕ) : ℤ) - (l.length + a : ℕ) + 1 =
      key.length := by omega
  have hvl : ((l.length + (a + key.length + b) + 1 + c + value.length - 1 : ℕ) : ℤ) -
      (l.length + (a + key.length + b) + 1 + c : ℕ) + 1 = value.length := by omega
  have hcolon : (l ++ (List.replicate a space ++ key ++ List.replicate b space) ++
      [colonChar]).length = l.length + (a + key.length + b) + 1 := by
    simp
    omega
  split_ifs with hfits
  · refine (h.scanned hlen).accept dst ?_ hkl ?_ hvl hfits.1 hfits.2
    · exact slice_part (b := b) (r := colonChar ::
        (List.replicate c space ++ value ++ List.replicate d space) ++ r) (by simp [headerLine])
    · rw [← hcolon]
      exact slice_part (b := d) (r := r) (by simp [headerLine])
  · refine (h.scanned hlen).reject dst ?_
    rw [hkl, hvl]
    simp only [FitsHeader, headerKeyMaxLength, headerValueMaxLength] at hfits ⊢
    omega

/-- Whatever surrounds a line, it is parsed to its key and its value, each NUL-terminated, when both
have at most 63 bytes, and rejected without a change of the header otherwise. -/
theorem http_str_to_header_parses_line (key value : List UInt8) (a b c d : ℕ) (dst : HttpHeader)
    (h : LineParts key value) (hlen : (headerLine key value a b c d).length < 2 ^ 31) :
    ∃ ret header,
      (∀ l r, httpStrToHeader dst (l ++ headerLine key value a b c d ++ r) l.length
        (headerLine key value a b c d).length = some (ret, header)) ∧
      if key.length ≤ 63 ∧ value.length ≤ 63 then
        ret = 0 ∧ (∃ rest, header.key.toList = key ++ 0 :: rest) ∧
          ∃ rest, header.value.toList = value ++ 0 :: rest
      else ret = -1 ∧ header = dst := by
  have hfits_iff : FitsHeader key value ↔ key.length ≤ 63 ∧ value.length ≤ 63 := by
    simp only [FitsHeader, headerKeyMaxLength, headerValueMaxLength]
    omega
  by_cases hfits : FitsHeader key value
  · refine ⟨0, dst.store key value, fun l r => ?_, ?_⟩
    · rw [h.httpStrToHeader_eq dst l r hlen, if_pos hfits]
    · rw [if_pos (hfits_iff.mp hfits)]
      exact ⟨rfl, ⟨_, toList_terminated dst.key key 0 hfits.1⟩,
        ⟨_, toList_terminated dst.value value 0 hfits.2⟩⟩
  · refine ⟨-1, dst, fun l r => ?_, ?_⟩
    · rw [h.httpStrToHeader_eq dst l r hlen, if_neg hfits]
    · rw [if_neg (mt hfits_iff.mpr hfits)]
      exact ⟨rfl, rfl⟩

/-- The line ` k : v:w `. -/
theorem http_str_to_header_parses_line_one :
    let dst : HttpHeader := ⟨Vector.replicate _ 0, Vector.replicate _ 0⟩
    ∃ header, httpStrToHeader dst [space, 107, space, colonChar, space, 118, colonChar, 119, space]
        0 9 = some (0, header) ∧
      (∃ rest, header.key.toList = [107] ++ 0 :: rest) ∧
        ∃ rest, header.value.toList = [118, colonChar, 119] ++ 0 :: rest := by
  intro dst
  have hparts : LineParts [107] [118, colonChar, 119] :=
    ⟨by decide, by decide, by decide, by decide, by decide⟩
  obtain ⟨ret, header, hparse, hresult⟩ :=
    http_str_to_header_parses_line _ _ 1 1 1 1 dst hparts (by decide)
  rw [if_pos (by decide)] at hresult
  obtain ⟨rfl, hkey, hval⟩ := hresult
  exact ⟨header, hparse [] [], hkey, hval⟩

/-! ### A line with a blank value -/

/-- The bytes of a line whose value consists of `n` spaces. -/
def blankLine (key : List UInt8) (a b n : ℕ) : List UInt8 :=
  (List.replicate a space ++ key ++ List.replicate b space) ++ colonChar :: List.replicate n space

@[simp] lemma length_blankLine (key : List UInt8) (a b n : ℕ) :
    (blankLine key a b n).length = a + key.length + b + 1 + n := by
  simp [blankLine]
  omega

/-- On a blank value the two trimming loops cross: upward to the byte behind the line, downward
to the colon. -/
lemma scanned_blankLine {n : ℕ} {next : UInt8} (hkey : Trimmed key) (hne : key ≠ [])
    (hcolon : colonChar ∉ key) (hnext : next ≠ space)
    (hlen : (blankLine key a b n).length < 2 ^ 31) :
    Scanned (l ++ blankLine key a b n ++ next :: r) l.length (blankLine key a b n).length
      (l.length + (a + key.length + b)) (l.length + a) (l.length + a + key.length - 1)
      (l.length + (a + key.length + b) + 1 + n) (l.length + (a + key.length + b)) := by
  have hspace : colonChar ≠ space := by decide
  have hfind := findColon_append (l := l) (n := (blankLine key a b n).length)
    (s := List.replicate a space ++ key ++ List.replicate b space)
    (r := List.replicate n space ++ next :: r) (by simp [hcolon, hspace]) (by simp; omega)
  have hprefix : (l ++ (List.replicate a space ++ key ++ List.replicate b space)).length =
      l.length + (a + key.length + b) := by
    simp
    omega
  rw [length_blankLine] at hlen
  have hkeyparts := scans_part (l := l) (p := l.length) (a := a) (b := b)
    (r := colonChar :: List.replicate n space ++ next :: r) hkey hne le_rfl (by omega)
  have hcut : l ++ (List.replicate a space ++ key ++ List.replicate b space) ++
      (colonChar :: List.replicate n space ++ next :: r) =
        l ++ blankLine key a b n ++ next :: r := by simp [blankLine]
  rw [hcut] at hkeyparts
  have hup := skipSpacesUp_append (p := l.length) (r := r) (s := [next])
    (l := l ++ (List.replicate a space ++ key ++ List.replicate b space) ++ [colonChar]) n
    (by simpa using hnext) (by simp) (by simp) (by simp; omega)
  have hdown := skipSpacesDown_append (p := l.length) (r := next :: r) (s := [colonChar])
    (l := l ++ (List.replicate a space ++ key ++ List.replicate b space))
    (i := l.length + (blankLine key a b n).length - 1) n (by simpa using hspace) (by simp)
    (by simp; omega) (by simp) (by simp; omega)
  rw [List.length_singleton, Nat.add_sub_cancel] at hdown
  refine ⟨?_, by simp; omega, hkeyparts.1, by exact_mod_cast hkeyparts.2, ?_, ?_⟩
  · simpa [blankLine, Nat.add_assoc] using hfind
  · simpa [blankLine, Nat.add_assoc] using hup
  · simpa [blankLine, Nat.add_assoc] using hdown

/-- With a key that fits, the value is stored if it is empty, and `memcpy` gets a negative length
if it consists of spaces. -/
lemma httpStrToHeader_blankLine {n : ℕ} {next : UInt8} (dst : HttpHeader) (l r : List UInt8)
    (hkey : Trimmed key) (hne : key ≠ [])
    (hcolon : colonChar ∉ key) (hnext : next ≠ space)
    (hlen : (blankLine key a b n).length < 2 ^ 31) :
    httpStrToHeader dst (l ++ blankLine key a b n ++ next :: r) l.length
        (blankLine key a b n).length =
      if headerKeyMaxLength ≤ key.length then some (-1, dst)
      else if n = 0 then some (0, dst.store key []) else none := by
  have hscan := scanned_blankLine (l := l) (r := r) hkey hne hcolon hnext hlen
  have hkeypos : 0 < key.length := List.length_pos_of_ne_nil hne
  have hkl : ((l.length + a + key.length - 1 : ℕ) : ℤ) - (l.length + a : ℕ) + 1 =
      key.length := by omega
  have hvl : ((l.length + (a + key.length + b) : ℕ) : ℤ) -
      (l.length + (a + key.length + b) + 1 + n : ℕ) + 1 = -n := by omega
  split_ifs with hlong hn
  · refine hscan.reject dst (.inl ?_)
    rw [hkl]
    omega
  · subst hn
    refine hscan.accept dst ?_ hkl ?_ (hvl.trans rfl) (Nat.lt_of_not_le hlong) (by decide)
    · exact slice_part (b := b) (r := colonChar :: next :: r) (by simp [blankLine])
    · rw [slice, if_pos]
      · simp
      · simp
        omega
  · refine hscan.crossed dst ?_ ?_
    · rw [hkl]
      omega
    · rw [hvl]
      omega

end C10K
