import C10K.Http.Line

/-!
# Printing a header, and parsing what is printed

`http_header_to_str` is computed on every pair of strings. With what `http_str_to_header` does on
every well-formed line it gives the round trip, except for the empty value: there the two trimming
loops of the value cross, and the negative length is passed to `memcpy`. The number of characters
that `http_header_to_str` should return is not returned.
-/

namespace C10K

open Scan

variable {l r key value buf mem : List UInt8} {a b c d maxStrLen : ℕ}
variable {dst header : HttpHeader}

/-! ### Printing -/

/-- What `http_header_to_str` leaves in a buffer that is large enough. -/
lemma httpHeaderToStr_spec (hkey : IsCString header.key.toList key)
    (hval : IsCString header.value.toList value) (hmax : key.length + value.length + 3 ≤ maxStrLen)
    (hbuf : maxStrLen ≤ buf.length) :
    httpHeaderToStr buf header maxStrLen =
      some (none, key ++ [colonChar] ++ [space] ++ value ++ [0] ++
        buf.drop (key ++ [colonChar] ++ [space] ++ value ++ [0]).length) := by
  have h₁ := blit_append (l := []) (d := buf) (s := key) (by simp; omega)
  have h₂ := blit_append (l := key) (d := buf) (s := [colonChar]) (by simp; omega)
  have h₃ := blit_append (l := key ++ [colonChar]) (d := buf) (s := [space])
    (by simp; omega)
  have h₄ := blit_append (l := key ++ [colonChar] ++ [space]) (d := buf) (s := value)
    (by simp; omega)
  have h₅ := blit_append (l := key ++ [colonChar] ++ [space] ++ value) (d := buf) (s := [0])
    (by simp; omega)
  have hl₃ : (key ++ [colonChar]).length = key.length + 1 := by simp
  have hl₄ : (key ++ [colonChar] ++ [space]).length = key.length + 2 := by simp
  have hl₅ : (key ++ [colonChar] ++ [space] ++ value).length =
      key.length + value.length + 3 - 1 := by
    simp
    omega
  rw [hl₃] at h₃
  rw [hl₄] at h₄
  rw [hl₅] at h₅
  simp only [List.length_nil, List.drop_zero, List.nil_append] at h₁
  simp only [httpHeaderToStr, hkey.strlen_eq, hval.strlen_eq, hkey.take_eq, hval.take_eq,
    Option.bind_eq_bind, Option.bind_some, if_neg (Nat.not_lt.mpr hmax), gt_iff_lt, Nat.add_zero,
    h₁, h₂, hl₃, h₃, hl₄, h₄, hl₅, h₅, Option.pure_def]

/-! ### The round trip -/

/-- With an empty value the parser gets a length of -1, and its `memcpy` leaves the string. -/
lemma httpStrToHeader_empty (dst : HttpHeader) (hkey : Trimmed key) (hkeyne : key ≠ [])
    (hcolon : colonChar ∉ key) (hkeylen : key.length < headerKeyMaxLength) :
    httpStrToHeader dst (key ++ [colonChar] ++ [space] ++ [0] ++ r) 0 (key.length + 2) =
      none := by
  have hlen : (blankLine key 0 0 1).length = key.length + 2 := by simp
  have hblank := httpStrToHeader_blankLine dst [] r (n := 1) (a := 0) (b := 0) hkey hkeyne hcolon
    (show (0 : UInt8) ≠ space by decide) (by
      simp only [headerKeyMaxLength] at hkeylen
      omega)
  rw [if_neg (Nat.not_le.mpr hkeylen), if_neg Nat.one_ne_zero, hlen] at hblank
  simpa [blankLine] using hblank

/-- The headers that a line can carry: both fields are NUL-terminated and trimmed, and the key is
nonempty and without a colon. -/
structure HeaderStrings (header : HttpHeader) (key value : List UInt8) : Prop where
  key_string : IsCString header.key.toList key
  value_string : IsCString header.value.toList value
  key_ne_nil : key ≠ []
  key_colon : colonChar ∉ key
  key_trimmed : Trimmed key
  value_trimmed : Trimmed value

/-- Printing a header and parsing the string: the parser returns 0 and the same two strings. -/
def RoundTrips (header dst : HttpHeader) (buf : List UInt8) (maxStrLen : ℕ)
    (key value : List UInt8) : Prop :=
  ∃ ret buf' n header', httpHeaderToStr buf header maxStrLen = some (ret, buf') ∧
    strlen buf' = some n ∧ httpStrToHeader dst buf' 0 n = some (0, header') ∧
    IsCString header'.key.toList key ∧ IsCString header'.value.toList value

namespace HeaderStrings

variable (h : HeaderStrings header key value)
include h

lemma key_lt : key.length < headerKeyMaxLength := by simpa using h.key_string.length_lt

lemma value_lt : value.length < headerValueMaxLength := by simpa using h.value_string.length_lt

/-- The printed bytes hold one string, of the length that the parser is given. -/
lemma strlen_printed (r : List UInt8) :
    strlen (key ++ [colonChar] ++ [space] ++ value ++ [0] ++ r) =
      some (key.length + 2 + value.length) := by
  have hnul : (0 : UInt8) ∉ key ++ [colonChar] ++ [space] ++ value := by
    have := h.key_string.1
    have := h.value_string.1
    simp_all [colonChar, space]
  have := (isCString_append hnul r).strlen_eq
  simp only [List.length_append, List.length_singleton] at this
  simpa using this

/-- A header with a nonempty value survives. -/
lemma roundTrips (hvalne : value ≠ []) (hmax : key.length + value.length + 3 ≤ maxStrLen)
    (hbuf : maxStrLen ≤ buf.length) : RoundTrips header dst buf maxStrLen key value := by
  have hprint := httpHeaderToStr_spec h.key_string h.value_string hmax hbuf
  generalize buf.drop (key ++ [colonChar] ++ [space] ++ value ++ [0]).length = r at hprint
  have hparts : LineParts key value :=
    ⟨h.key_trimmed, h.key_ne_nil, h.key_colon, h.value_trimmed, hvalne⟩
  have hkeylt := h.key_lt
  have hvallt := h.value_lt
  have hparse := hparts.httpStrToHeader_eq dst [] (0 :: r) (a := 0) (b := 0) (c := 1) (d := 0) (by
      simp only [headerKeyMaxLength, headerValueMaxLength] at hkeylt hvallt
      simp
      omega)
  rw [if_pos ⟨hkeylt, hvallt⟩] at hparse
  refine ⟨none, _, _, dst.store key value, hprint, h.strlen_printed r, ?_, ?_, ?_⟩
  · have hlen : (headerLine key value 0 0 1 0).length = key.length + 2 + value.length := by
      simp
      omega
    rw [hlen] at hparse
    simpa [headerLine] using hparse
  · exact toList_terminated dst.key key 0 hkeylt ▸ isCString_append h.key_string.1 _
  · exact toList_terminated dst.value value 0 hvallt ▸ isCString_append h.value_string.1 _

end HeaderStrings

/-- A header with an empty value does not survive. -/
lemma HeaderStrings.not_roundTrips (h : HeaderStrings header key [])
    (hmax : key.length + 3 ≤ maxStrLen) (hbuf : maxStrLen ≤ buf.length) :
    ¬ RoundTrips header dst buf maxStrLen key [] := by
  have hprint := httpHeaderToStr_spec h.key_string h.value_string hmax hbuf
  have hstrlen := h.strlen_printed
  generalize buf.drop (key ++ [colonChar] ++ [space] ++ [] ++ [0]).length = r at hprint
  rintro ⟨ret, buf', n, header', hprint', hn, hparse, -, -⟩
  rw [hprint, Option.some.injEq, Prod.mk.injEq] at hprint'
  obtain ⟨-, rfl⟩ := hprint'
  rw [hstrlen, Option.some.injEq] at hn
  subst hn
  have hfail := httpStrToHeader_empty (r := r) dst h.key_trimmed h.key_ne_nil
    h.key_colon h.key_lt
  simp only [List.append_nil, List.length_nil, Nat.add_zero] at hparse
  rw [hfail] at hparse
  exact absurd hparse (by simp)

/-- A header whose key and value are trimmed strings, the key nonempty and without a colon,
survives printing and parsing exactly when its value is nonempty. -/
theorem http_header_roundtrip_iff (header dst : HttpHeader) (buf key value : List UInt8)
    (maxStrLen : ℕ) (h : HeaderStrings header key value)
    (hmax : key.length + value.length + 3 ≤ maxStrLen) (hbuf : maxStrLen ≤ buf.length) :
    RoundTrips header dst buf maxStrLen key value ↔ value ≠ [] := by
  constructor
  · rintro hround rfl
    exact h.not_roundTrips hmax hbuf hround
  · intro hvalne
    exact h.roundTrips hvalne hmax hbuf

/-- The header `k` with a value. -/
def sampleHeader (value : Vector UInt8 headerValueMaxLength) : HttpHeader where
  key := (Vector.replicate _ 0).set 0 107
  value := value

lemma sampleHeader_strings {v : Vector UInt8 headerValueMaxLength}
    (hstring : IsCString v.toList value) (htrim : Trimmed value) :
    HeaderStrings (sampleHeader v) [107] value where
  key_string := ⟨by decide, List.replicate 62 0, rfl⟩
  value_string := hstring
  key_ne_nil := by decide
  key_colon := by decide
  key_trimmed := by decide
  value_trimmed := htrim

lemma isCString_sampleValue :
    IsCString ((Vector.replicate headerValueMaxLength (0 : UInt8)).set 0 118).toList [118] :=
  ⟨by decide, List.replicate 62 0, by decide⟩

/-- The header `k: v` survives. -/
theorem http_header_roundtrip_sample :
    let v := (Vector.replicate headerValueMaxLength (0 : UInt8)).set 0 118
    RoundTrips (sampleHeader v) (sampleHeader v) (List.replicate 5 0) 5 [107] [118] := by
  intro v
  exact (http_header_roundtrip_iff _ (sampleHeader v) _ _ _ 5
    (sampleHeader_strings isCString_sampleValue (by decide)) (by decide) (by decide)).mpr
    (by decide)

/-- The header `k` with the empty value does not: not every header survives. -/
theorem http_header_roundtrip_empty_value :
    ¬ ∀ (header dst : HttpHeader) (buf key value : List UInt8) (maxStrLen : ℕ),
      HeaderStrings header key value → key.length + value.length + 3 ≤ maxStrLen →
        maxStrLen ≤ buf.length → RoundTrips header dst buf maxStrLen key value := by
  intro hall
  have hstring : IsCString (Vector.replicate headerValueMaxLength (0 : UInt8)).toList [] :=
    ⟨by decide, List.replicate 63 0, by decide⟩
  have h := sampleHeader_strings hstring (by decide)
  have hround := hall _ (sampleHeader (Vector.replicate _ 0)) (List.replicate 4 0) _ _ 4 h
    (by decide) (by decide)
  exact h.not_roundTrips (by decide) (by decide) hround

/-! ### The number of characters -/

/-- The buffer with the printed header and its NUL, and with its old bytes behind them. -/
def printedOver (buf key value : List UInt8) : List UInt8 :=
  key ++ [colonChar] ++ [space] ++ value ++ [0] ++ buf.drop (key.length + value.length + 3)

/-- A header that is too long gives -1 and leaves the buffer alone. Another header is printed, and
the number of the characters is returned, with or without the NUL. -/
structure Converts (header : HttpHeader) (key value buf : List UInt8) (maxStrLen : ℕ) : Prop where
  too_long : maxStrLen < key.length + value.length + 3 →
    httpHeaderToStr buf header maxStrLen = some (some (-1), buf)
  fits : key.length + value.length + 3 ≤ maxStrLen → ∃ count : ℤ,
    httpHeaderToStr buf header maxStrLen = some (some count, printedOver buf key value) ∧
      (count = key.length + value.length + 2 ∨ count = key.length + value.length + 3)

section Strings

variable (hkey : IsCString header.key.toList key) (hval : IsCString header.value.toList value)
include hkey hval

lemma httpHeaderToStr_too_long (buf : List UInt8)
    (hmax : maxStrLen < key.length + value.length + 3) :
    httpHeaderToStr buf header maxStrLen = some (some (-1), buf) := by
  simp only [httpHeaderToStr, hkey.strlen_eq, hval.strlen_eq, Option.bind_eq_bind,
    Option.bind_some, if_pos hmax, gt_iff_lt, Option.pure_def]

/-- Once the header is known to fit, no value is returned. -/
lemma fst_httpHeaderToStr {result : Option ℤ × List UInt8}
    (hmax : key.length + value.length + 3 ≤ maxStrLen)
    (h : httpHeaderToStr buf header maxStrLen = some result) : result.1 = none := by
  simp only [httpHeaderToStr, hkey.strlen_eq, hval.strlen_eq, Option.bind_eq_bind,
    Option.bind_some, if_neg (Nat.not_lt.mpr hmax), gt_iff_lt, Option.bind_eq_some_iff] at h
  obtain ⟨_, -, _, -, _, -, _, -, _, -, h⟩ := h
  cases h
  rfl

end Strings

/-- `http_header_to_str` does what it should exactly when the header is too long. A header that fits
is printed as it should be, and no number is returned. -/
theorem http_header_to_str_converts_iff (header : HttpHeader) (key value buf : List UInt8)
    (maxStrLen : ℕ) (hkey : IsCString header.key.toList key)
    (hval : IsCString header.value.toList value) :
    (Converts header key value buf maxStrLen ↔ maxStrLen < key.length + value.length + 3) ∧
      (key.length + value.length + 3 ≤ maxStrLen → maxStrLen ≤ buf.length →
        httpHeaderToStr buf header maxStrLen = some (none, printedOver buf key value)) := by
  constructor
  · constructor
    · intro h
      by_contra hlong
      obtain ⟨count, hprint, -⟩ := h.fits (Nat.le_of_not_lt hlong)
      have hnone := fst_httpHeaderToStr hkey hval (Nat.le_of_not_lt hlong) hprint
      cases hnone
    · intro hlong
      constructor
      · exact httpHeaderToStr_too_long hkey hval buf
      · intro hmax
        exact absurd hlong (Nat.not_lt.mpr hmax)
  · intro hmax hbuf
    have hlength : (key ++ [colonChar] ++ [space] ++ value ++ [0]).length =
        key.length + value.length + 3 := by
      simp only [List.length_append, List.length_singleton]
      omega
    rw [httpHeaderToStr_spec hkey hval hmax hbuf, hlength, printedOver]

/-- The header `k: v` needs five bytes, and is rejected if there are four. -/
theorem http_header_to_str_converts_iff_four :
    Converts (sampleHeader ((Vector.replicate headerValueMaxLength 0).set 0 118)) [107] [118]
      (List.replicate 4 0) 4 := by
  have hstrings := sampleHeader_strings isCString_sampleValue (by decide)
  exact (http_header_to_str_converts_iff _ [107] [118] (List.replicate 4 0) 4 hstrings.key_string
    hstrings.value_string).1.mpr (by decide)

/-- With five bytes it is printed, and no number is returned. -/
theorem http_header_to_str_returns_nothing :
    ¬ ∀ (header : HttpHeader) (key value buf : List UInt8) (maxStrLen : ℕ),
      IsCString header.key.toList key → IsCString header.value.toList value →
        maxStrLen ≤ buf.length → Converts header key value buf maxStrLen := by
  intro hall
  have hstrings := sampleHeader_strings isCString_sampleValue (by decide)
  have h := hall _ [107] [118] (List.replicate 5 0) 5 hstrings.key_string hstrings.value_string
    (by decide)
  obtain ⟨count, hprint, -⟩ := h.fits (by decide)
  have hnone := fst_httpHeaderToStr hstrings.key_string hstrings.value_string (by decide) hprint
  cases hnone

end C10K
