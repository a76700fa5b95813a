import C10K.Lib.Scan

/-!
# Header lines: `http_str_to_header` and `http_header_to_str`

`mem` is the object that the argument `str` points into, and `str` the index of its first byte
there, so `str[i]` is `mem[str + i]`; the indices of the source are kept as indices into `mem`.
They are `int`s, and lengths are below `2 ^ 31`. A result is `none` where the C code reads or
writes outside an object, or where an `int` overflows.
-/

namespace C10K

open Scan

def headerKeyMaxLength : ℕ := 64
def headerValueMaxLength : ℕ := 64

/-- `http_header`. -/
structure HttpHeader where
  key : Vector UInt8 headerKeyMaxLength
  value : Vector UInt8 headerValueMaxLength

/-- The bytes `' '` and `':'`. -/
def space : UInt8 := 32
def colonChar : UInt8 := 58

/-- The index `i - str`, if an `int` holds it. -/
def intIndex (str i : ℕ) : Option ℕ := if i < str + 2 ^ 31 ∧ str ≤ i + 2 ^ 31 then some i else none

/-- `while (str[i] == ' ') ++i;` -/
def skipSpacesUp (mem : List UInt8) (str i : ℕ) : Option ℕ :=
  (upFrom (fun _ b => b = space) mem i).bind (intIndex str)

/-- `while (str[i] == ' ') --i;` -/
def skipSpacesDown (mem : List UInt8) (str : ℕ) (i : ℤ) : Option ℕ :=
  (downFrom (· = space) mem i).bind (intIndex str)

/-- `while (str[colon] != ':' && colon < str_len) ++colon;` -/
def findColon (mem : List UInt8) (str strLen : ℕ) : Option ℕ :=
  upFrom (fun i b => b ≠ colonChar ∧ i < str + strLen) mem str

/-- The returned value and the header that `dst` holds afterwards. -/
def httpStrToHeader (dst : HttpHeader) (mem : List UInt8) (str strLen : ℕ) :
    Option (ℤ × HttpHeader) := do
  let colon ← findColon mem str strLen
  if colon > str + strLen then return (-1, dst)
  let keyStart ← skipSpacesUp mem str str
  let keyEnd ← skipSpacesDown mem str (colon - 1)
  let valStart ← skipSpacesUp mem str (colon + 1)
  let valEnd ← skipSpacesDown mem str (str + strLen - 1)
  let keyLen : ℤ := keyEnd - keyStart + 1
  let valLen : ℤ := valEnd - valStart + 1
  if keyLen + 1 > headerKeyMaxLength ∨ valLen + 1 > headerValueMaxLength then return (-1, dst)
  let keyBytes ← slice mem keyStart keyLen
  let valBytes ← slice mem valStart valLen
  let key ← blitVector dst.key 0 keyBytes
  let value ← blitVector dst.value 0 valBytes
  let key ← blitVector key keyLen.toNat [0]
  let value ← blitVector value valLen.toNat [0]
  return (0, { key, value })

/-- The returned value and the bytes that `dst` holds afterwards. The value is `none` where the
source ends without a `return`. -/
def httpHeaderToStr (dst : List UInt8) (header : HttpHeader) (maxStrLen : ℕ) :
    Option (Option ℤ × List UInt8) := do
  let keyLen ← strlen header.key.toList
  let valLen ← strlen header.value.toList
  let totalLength := keyLen + valLen + 3
  if totalLength > maxStrLen then return (some (-1), dst)
  let dst ← blit dst 0 (header.key.toList.take keyLen)
  let dst ← blit dst (keyLen + 0) [colonChar]
  let dst ← blit dst (keyLen + 1) [space]
  let dst ← blit dst (keyLen + 2) (header.value.toList.take valLen)
  let dst ← blit dst (totalLength - 1) [0]
  return (none, dst)

/-- A string that neither starts nor ends with a space. -/
def Trimmed (s : List UInt8) : Prop := s.head? ≠ some space ∧ s.getLast? ≠ some space

instance (s : List UInt8) : Decidable (Trimmed s) := inferInstanceAs (Decidable (_ ∧ _))

variable {l r s : List UInt8} {n p : ℕ}

/-! ### The scans on a line -/

lemma intIndex_of_lt {i : ℕ} (hle : p ≤ i) (hlt : i < p + 2 ^ 31) :
    intIndex p i = some i := if_pos ⟨hlt, by omega⟩

lemma skipSpacesUp_append (n : ℕ) (h : s.head? ≠ some space) (hne : s ≠ [])
    (hp : p ≤ l.length) (hlt : l.length + n < p + 2 ^ 31) :
    skipSpacesUp (l ++ List.replicate n space ++ (s ++ r)) p l.length =
      some (l.length + n) := by
  obtain ⟨y, ys, rfl⟩ := List.exists_cons_of_ne_nil hne
  have hy : y ≠ space := by simpa using h
  have hscan := upFrom_append (l := l) (m := List.replicate n space) (b := y) (r := ys ++ r)
    (f := fun _ b => decide (b = space)) (by simp) (by simpa using hy)
  rw [List.length_replicate] at hscan
  rw [skipSpacesUp, List.cons_append, hscan, Option.bind_some]
  exact intIndex_of_lt (by omega) hlt

lemma skipSpacesDown_append {i : ℤ} (n : ℕ) (h : s.getLast? ≠ some space)
    (hne : s ≠ []) (hi : i = l.length + s.length + n - 1)
    (hp : p ≤ l.length) (hlt : l.length + s.length < p + 2 ^ 31) :
    skipSpacesDown (l ++ s ++ List.replicate n space ++ r) p i =
      some (l.length + s.length - 1) := by
  obtain ⟨ys, y, rfl⟩ := (List.eq_nil_or_concat s).resolve_left hne
  have hy : y ≠ space := by simpa using h
  have hscan := downFrom_append (l := l ++ ys) (m := List.replicate n space) (b := y) (r := r)
    (p := fun b => decide (b = space)) (i := i) (by simp) (by simpa using hy)
    (by rw [hi]; simp; omega)
  have hmem : l ++ ys.concat y ++ List.replicate n space ++ r =
      l ++ ys ++ y :: List.replicate n space ++ r := by simp
  rw [skipSpacesDown, hmem, hscan, Option.bind_some]
  simp only [List.length_append, List.length_concat] at hlt ⊢
  exact intIndex_of_lt (by omega) (by omega)

lemma findColon_append (hs : colonChar ∉ s) (hlen : s.length < n) :
    findColon (l ++ s ++ colonChar :: r) l.length n =
      some (l.length + s.length) := by
  refine upFrom_append (fun k hk => ?_) (by simp)
  have hne : s[k] ≠ colonChar := fun h => hs (h ▸ List.getElem_mem hk)
  have hlt : l.length + k < l.length + n := by omega
  simp [hne, hlt]

end C10K
