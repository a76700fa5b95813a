import C10K.Http.Headers

/-!
# Parsing a section of well-formed lines

With a carriage return behind the section, as the program passes it, the accepted lines are the
headers that the array holds, in their order, until the array is full.
-/

namespace C10K

open Scan

variable {l r mem : List UInt8} {str strLen start i : ℕ}

/-- A well-formed line: a key, a colon and a value between any numbers of spaces, on one line. -/
structure HeaderLine where
  key : List UInt8
  value : List UInt8
  beforeKey : ℕ
  afterKey : ℕ
  beforeValue : ℕ
  afterValue : ℕ
  parts : LineParts key value
  key_return : carriageReturn ∉ key
  value_return : carriageReturn ∉ value

namespace HeaderLine

def bytes (line : HeaderLine) : List UInt8 :=
  headerLine line.key line.value line.beforeKey line.afterKey line.beforeValue line.afterValue

def Fits (line : HeaderLine) : Prop := FitsHeader line.key line.value

instance (line : HeaderLine) : Decidable line.Fits := inferInstanceAs (Decidable (FitsHeader _ _))

def outcome (line : HeaderLine) : Outcome :=
  if line.Fits then some fun header => header.store line.key line.value else none

/-- The header holds the key and the value, each with its terminator. -/
def StoredIn (line : HeaderLine) (header : HttpHeader) : Prop :=
  (∃ rest, header.key.toList = line.key ++ 0 :: rest) ∧
    ∃ rest, header.value.toList = line.value ++ 0 :: rest

variable {line : HeaderLine}

lemma bytes_ne_nil (line : HeaderLine) : line.bytes ≠ [] := by simp [bytes, headerLine]

lemma no_return (line : HeaderLine) : carriageReturn ∉ line.bytes := by
  have hspace : carriageReturn ≠ space := by decide
  have hcolon : carriageReturn ≠ colonChar := by decide
  simp [bytes, headerLine, line.key_return, line.value_return, hspace, hcolon]

lemma parse (hlen : line.bytes.length < 2 ^ 31) (l r : List UInt8) (header : HttpHeader) :
    httpStrToHeader header (l ++ line.bytes ++ r) l.length line.bytes.length =
      some (line.outcome.result header) := by
  have hparse := line.parts.httpStrToHeader_eq header l r hlen
  by_cases hfits : line.Fits
  · rw [if_pos (show FitsHeader line.key line.value from hfits)] at hparse
    rw [outcome, if_pos hfits]
    exact hparse
  · rw [if_neg (show ¬ FitsHeader line.key line.value from hfits)] at hparse
    rw [outcome, if_neg hfits]
    exact hparse

lemma parsesTo (hlen : line.bytes.length < 2 ^ 31) : ParsesTo line.bytes line.outcome :=
  ⟨line.bytes_ne_nil, line.no_return, fun l _ header => line.parse hlen l _ header⟩

lemma storedIn_store (h : line.Fits) (header : HttpHeader) :
    line.StoredIn (header.store line.key line.value) :=
  ⟨⟨_, toList_terminated header.key line.key 0 h.1⟩,
    ⟨_, toList_terminated header.value line.value 0 h.2⟩⟩

end HeaderLine

/-- The functions that write the lines that fit. -/
def storing (lines : List HeaderLine) : List (HttpHeader → HttpHeader) :=
  (lines.filter fun line => line.Fits).map fun line header => header.store line.key line.value

/-- The lines with their outcomes. -/
def outcomes (lines : List HeaderLine) : List (List UInt8 × Outcome) :=
  lines.map fun line => (line.bytes, line.outcome)

lemma accepted_lines (lines : List HeaderLine) :
    accepted (outcomes lines) = storing lines := by
  induction lines with
  | nil => rfl
  | cons line lines ih =>
    by_cases h : line.Fits <;> simp_all [accepted, outcomes, storing, HeaderLine.outcome]

lemma storing_append (before : List HeaderLine) (last : HeaderLine) :
    storing (before ++ [last]) = storing before ++ last.outcome.toList := by
  by_cases h : last.Fits <;> simp [storing, HeaderLine.outcome, h]

/-- What the array holds after some lines have been written to it. -/
lemma storedIn_writeHeaders (lines : List HeaderLine) (hlines : ∀ line ∈ lines, line.Fits)
    (dst : List HttpHeader) (hdst : lines.length ≤ dst.length) :
    let dst' := writeHeaders (lines.map fun line header => header.store line.key line.value) dst
    List.Forall₂ HeaderLine.StoredIn lines (dst'.take lines.length) ∧
      dst'.drop lines.length = dst.drop lines.length := by
  induction lines generalizing dst with
  | nil => exact ⟨.nil, rfl⟩
  | cons line lines ih =>
    obtain ⟨header, dst, rfl⟩ := List.exists_cons_of_length_pos
      (show 0 < dst.length by simp at hdst; omega)
    obtain ⟨htake, hdrop⟩ := ih (fun x hx => hlines x (List.mem_cons_of_mem line hx)) dst
      (by simpa using hdst)
    simp only [writeHeaders, List.length_map] at htake hdrop ⊢
    refine ⟨.cons ?_ htake, hdrop⟩
    exact HeaderLine.storedIn_store (hlines line List.mem_cons_self) header

/-! ### The end of the section -/

/-- The loop does not go on where no `int` index or no byte of the object is left. -/
lemma bind_nextLineEnd_eq_none (h : str + 2 ^ 31 ≤ i ∨ mem.length ≤ i) :
    (intIndex str i).bind (nextLineEnd mem str strLen) = none := by
  rcases h with hge | hlen
  · rw [intIndex, if_neg fun h => by omega, Option.bind_none]
  · rw [Option.bind_eq_none_iff]
    intro j hj
    obtain ⟨-, rfl⟩ : _ ∧ i = j := by simpa [intIndex] using hj
    rw [nextLineEnd, upFrom_of_length_le hlen, Option.bind_none]

/-- Behind the section the scan for the next line stops at once. -/
lemma nextLineEnd_past (hi : i < mem.length) (hpast : str + strLen < i) (hlt : i < str + 2 ^ 31) :
    nextLineEnd mem str strLen i = some i := by
  rw [nextLineEnd, upFrom_stop hi (by simp; omega), Option.bind_some]
  exact intIndex_of_lt (by omega) hlt

/-! ### The whole section -/

/-- The lines, joined by line breaks. -/
def sectionOf (lines : List HeaderLine) : List UInt8 := headerSection (lines.map HeaderLine.bytes)

lemma sectionOf_append (before : List HeaderLine) (last : HeaderLine) :
    sectionOf (before ++ [last]) = brokenLines (before.map HeaderLine.bytes) ++ last.bytes := by
  rw [sectionOf, List.map_append, List.map_singleton, headerSection_append]

section Lines

variable {before : List HeaderLine} {last : List UInt8} {dst : List HttpHeader} {dstSize e : ℕ}
variable (hmem : mem = l ++ brokenLines (before.map HeaderLine.bytes) ++ last ++ r)
variable (hstart : start = l.length + (brokenLines (before.map HeaderLine.bytes)).length)
variable (hlt : start < l.length + strLen) (hlen : strLen < 2 ^ 31)
variable (hfirst : before = [] → firstLineEnd mem l.length strLen = some e)
variable (hend : before ≠ [] → nextLineEnd mem l.length strLen start = some e)
variable (hdst : dstSize ≤ dst.length)

lemma bytes_outcomes (lines : List HeaderLine) :
    (outcomes lines).map Prod.fst = lines.map HeaderLine.bytes := by
  simp [outcomes, Function.comp_def]

lemma parsesTo_outcomes {lines : List HeaderLine}
    (hlen : (brokenLines (lines.map HeaderLine.bytes)).length < 2 ^ 31) :
    ∀ x ∈ outcomes lines, ParsesTo x.1 x.2 := by
  intro x hx
  obtain ⟨line, hline, rfl⟩ := List.mem_map.mp hx
  have := length_le_of_mem (List.mem_map_of_mem (f := HeaderLine.bytes) hline)
  exact HeaderLine.parsesTo (by omega)

include hmem hstart hlt hlen hfirst hend hdst

/-- The parsing of well-formed lines, whatever the last line ends with. -/
lemma httpStrToHeaders_lines {outcome : Outcome}
    (hlast : (storing before).length < dstSize → LastLine mem l.length strLen start e outcome) :
    let writes := (storing before ++ outcome.toList).take dstSize
    httpStrToHeaders dst dstSize mem l.length strLen =
      some (writes.length, writeHeaders writes dst) := by
  rw [← accepted_lines] at hlast ⊢
  rw [← bytes_outcomes] at hmem hstart
  refine httpStrToHeaders_section (parsesTo_outcomes ?_) hmem hstart hlt hlen ?_ ?_ hdst hlast
  · rw [← bytes_outcomes]
    omega
  · simpa [outcomes] using hfirst
  · simpa [outcomes] using hend

/-- The parsing of well-formed lines of which the last ends where no `int` goes on. -/
lemma httpStrToHeaders_lines_overflow {outcome : Outcome}
    (hfree : (storing before).length < dstSize)
    (hparse : ∀ header, httpStrToHeader header mem start (e - start) =
      some (outcome.result header))
    (hindex : (intIndex l.length (e + 2)).bind (nextLineEnd mem l.length strLen) = none) :
    httpStrToHeaders dst dstSize mem l.length strLen = none := by
  rw [← accepted_lines] at hfree
  rw [← bytes_outcomes] at hmem hstart
  refine httpStrToHeaders_overflow (parsesTo_outcomes ?_) hmem hstart hlt hlen ?_ ?_ hdst hfree
    hparse hindex
  · rw [← bytes_outcomes]
    omega
  · simpa [outcomes] using hfirst
  · simpa [outcomes] using hend

end Lines

/-! ### With a carriage return behind the section -/

section Return

variable (before : List HeaderLine) (last : HeaderLine) (l r : List UInt8)

/-- The index of the last line. -/
def lastStart (l : List UInt8) (before : List HeaderLine) : ℕ :=
  (l ++ brokenLines (before.map HeaderLine.bytes)).length

lemma lastStart_add :
    lastStart l before + last.bytes.length = l.length + (sectionOf (before ++ [last])).length := by
  rw [lastStart, sectionOf_append, List.length_append, List.length_append]
  omega

lemma section_cut : l ++ sectionOf (before ++ [last]) ++ r =
    l ++ brokenLines (before.map HeaderLine.bytes) ++ last.bytes ++ r := by
  rw [sectionOf_append]
  simp

/-- The scan for the end of the only line stops at the end of the section. -/
lemma firstLineEnd_section (b : UInt8) (hnil : before = [])
    (hlen : (sectionOf (before ++ [last])).length < 2 ^ 31) :
    firstLineEnd (l ++ sectionOf (before ++ [last]) ++ b :: r) l.length
        (sectionOf (before ++ [last])).length =
      some (l.length + (sectionOf (before ++ [last])).length) := by
  have hone : sectionOf (before ++ [last]) = last.bytes := by
    rw [sectionOf_append, hnil]
    rfl
  rw [hone] at hlen ⊢
  rw [firstLineEnd, upFrom_append (fun k hk => ?_) (by simp), Option.bind_some]
  · exact intIndex_of_lt (by omega) (by omega)
  · have hne : last.bytes[k] ≠ carriageReturn := fun h =>
      last.no_return (h ▸ List.getElem_mem hk)
    simp [hne, hk]

/-- The last line, with a carriage return behind it. -/
lemma nextLineEnd_return (hlen : (sectionOf (before ++ [last])).length < 2 ^ 31) :
    nextLineEnd (l ++ sectionOf (before ++ [last]) ++ carriageReturn :: r) l.length
        (sectionOf (before ++ [last])).length (lastStart l before) =
      some (l.length + (sectionOf (before ++ [last])).length) := by
  have hadd := lastStart_add before last l
  have hle : l.length ≤ lastStart l before := by simp [lastStart]
  rw [section_cut, ← hadd]
  exact nextLineEnd_line last.no_return hle (by exact hadd.le) hlen

lemma httpStrToHeader_last (hlen : (sectionOf (before ++ [last])).length < 2 ^ 31)
    (header : HttpHeader) :
    httpStrToHeader header (l ++ sectionOf (before ++ [last]) ++ r) (lastStart l before)
        (l.length + (sectionOf (before ++ [last])).length - lastStart l before) =
      some (last.outcome.result header) := by
  have hadd := lastStart_add before last l
  have hle : l.length ≤ lastStart l before := by simp [lastStart]
  rw [section_cut, ← hadd, Nat.add_sub_cancel_left]
  exact last.parse (by omega) _ _ header

/-- The last line, where it ends with the section, and an `int` index behind it. -/
lemma lastLine_section (hlen : (sectionOf (before ++ [last])).length + 2 < 2 ^ 31)
    (hr : 3 ≤ r.length) :
    LastLine (l ++ sectionOf (before ++ [last]) ++ r) l.length
      (sectionOf (before ++ [last])).length (lastStart l before)
      (l.length + (sectionOf (before ++ [last])).length) last.outcome where
  parse := httpStrToHeader_last before last l _ (by omega)
  past := by omega
  index := intIndex_of_lt (by omega) (by omega)
  next := ⟨_, nextLineEnd_past (by simp; omega) (by omega) (by omega)⟩

end Return

lemma httpStrToHeaders_nil {dst : List HttpHeader} {dstSize : ℕ} (hr : r ≠ []) :
    httpStrToHeaders dst dstSize (l ++ sectionOf [] ++ r) l.length (sectionOf []).length =
      some (0, dst) := by
  have hpos : 0 < r.length := List.length_pos_of_ne_nil hr
  have hnil : sectionOf [] = [] := rfl
  have hfirst : firstLineEnd (l ++ r) l.length 0 = some l.length := by
    rw [firstLineEnd, upFrom_stop (by simpa using hpos) (by simp), Option.bind_some]
    exact intIndex_of_lt le_rfl (by omega)
  simp [httpStrToHeaders, hnil, hfirst, httpStrToHeadersLoop]

/-- There is no line, or the array is full before the last line, or the byte behind its line break
can be read: its index is an `int`, and `r`, what the buffer holds behind the carriage return, has
this byte. -/
def EndReadable (dstSize : ℕ) (lines : List HeaderLine) (r : List UInt8) : Prop :=
  lines = [] ∨ dstSize ≤ (lines.dropLast.filter fun line => line.Fits).length ∨
    (sectionOf lines).length + 2 < 2 ^ 31 ∧ 2 ≤ r.length

/-- The headers that a section with a carriage return behind it is parsed to. -/
theorem httpStrToHeaders_return {dst : List HttpHeader} {dstSize : ℕ} (lines : List HeaderLine)
    (hdst : dstSize ≤ dst.length) (hlen : (sectionOf lines).length < 2 ^ 31)
    (hroom : EndReadable dstSize lines r) :
    httpStrToHeaders dst dstSize (l ++ sectionOf lines ++ carriageReturn :: r) l.length
        (sectionOf lines).length =
      some (((storing lines).take dstSize).length,
        writeHeaders ((storing lines).take dstSize) dst) := by
  rcases List.eq_nil_or_concat lines with rfl | ⟨before, last, rfl⟩
  · rw [httpStrToHeaders_nil (List.cons_ne_nil _ _)]
    simp [storing, writeHeaders]
  · rw [List.concat_eq_append] at hlen hroom ⊢
    have hroom := hroom.resolve_left (by simp)
    rw [List.dropLast_concat] at hroom
    have hadd := lastStart_add before last l
    have hlastlen : 0 < last.bytes.length := List.length_pos_of_ne_nil last.bytes_ne_nil
    rw [storing_append]
    refine httpStrToHeaders_lines (section_cut before last l _) List.length_append
      (show lastStart l before < _ by omega) hlen
      (fun hnil => firstLineEnd_section before last l r _ hnil hlen)
      (fun _ => nextLineEnd_return before last l r hlen) hdst fun hfree => ?_
    simp only [storing, List.length_map] at hfree
    obtain ⟨hindex, hr⟩ := hroom.resolve_left (Nat.not_le.mpr hfree)
    exact lastLine_section before last l _ hindex (Nat.succ_le_succ hr)

/-- Otherwise the read behind the last line leaves the buffer, or its index the `int`s. -/
lemma httpStrToHeaders_return_none {dst : List HttpHeader} {dstSize : ℕ} (lines : List HeaderLine)
    (hdst : dstSize ≤ dst.length) (hlen : (sectionOf lines).length < 2 ^ 31)
    (hroom : ¬ EndReadable dstSize lines r) :
    httpStrToHeaders dst dstSize (l ++ sectionOf lines ++ carriageReturn :: r) l.length
      (sectionOf lines).length = none := by
  obtain ⟨hne, hfree, hnext⟩ : lines ≠ [] ∧ _ ∧ _ := by
    simpa only [EndReadable, not_or] using hroom
  obtain ⟨before, last, rfl⟩ := (List.eq_nil_or_concat lines).resolve_left hne
  rw [List.concat_eq_append] at hlen hnext hfree ⊢
  rw [List.dropLast_concat] at hfree
  have hadd := lastStart_add before last l
  have hlastlen : 0 < last.bytes.length := List.length_pos_of_ne_nil last.bytes_ne_nil
  refine httpStrToHeaders_lines_overflow (section_cut before last l _) List.length_append
    (show lastStart l before < _ by omega) hlen
    (fun hnil => firstLineEnd_section before last l r _ hnil hlen)
    (fun _ => nextLineEnd_return before last l r hlen) hdst
    (by simpa [storing] using hfree) (httpStrToHeader_last before last l _ hlen)
    (bind_nextLineEnd_eq_none ?_)
  simp only [List.length_append, List.length_cons]
  omega

/-- The written headers are the lines that fit, in their order, and the rest of the array is
unchanged. -/
lemma storedIn_storing {dst : List HttpHeader} {dstSize : ℕ} (lines : List HeaderLine)
    (hdst : dstSize ≤ dst.length) :
    let writes := (storing lines).take dstSize
    writes.length = min dstSize (lines.filter fun line => line.Fits).length ∧
      List.Forall₂ HeaderLine.StoredIn ((lines.filter fun line => line.Fits).take dstSize)
        ((writeHeaders writes dst).take writes.length) ∧
      (writeHeaders writes dst).drop writes.length = dst.drop writes.length := by
  intro writes
  have htake : writes = ((lines.filter fun line => line.Fits).take dstSize).map
      fun line header => header.store line.key line.value := by
    rw [List.map_take]
    rfl
  have hlines : ∀ line ∈ (lines.filter fun line => line.Fits).take dstSize, line.Fits := by
    intro line hline
    simpa using (List.mem_filter.mp (List.mem_of_mem_take hline)).2
  have hcount : writes.length = min dstSize (lines.filter fun line => line.Fits).length := by
    rw [htake, List.length_map, List.length_take]
  have hlength : writes.length = ((lines.filter fun line => line.Fits).take dstSize).length := by
    rw [htake, List.length_map]
  obtain ⟨hstored, hdrop⟩ := storedIn_writeHeaders _ hlines dst (by omega)
  rw [← htake, ← hlength] at hstored hdrop
  exact ⟨hcount, hstored, hdrop⟩

/-- A section with a carriage return behind it is parsed exactly under this condition: the returned
value is the smaller of the size of the array and the number of lines that fit, the array holds
these lines in their order, and the rest of it is unchanged. -/
theorem http_str_to_headers_parses_section_iff (lines : List HeaderLine) (dst : List HttpHeader)
    (dstSize : ℕ) (l r : List UInt8) (hdst : dstSize ≤ dst.length)
    (hlen : (sectionOf lines).length < 2 ^ 31) :
    (∃ count dst',
      httpStrToHeaders dst dstSize (l ++ sectionOf lines ++ carriageReturn :: r) l.length
        (sectionOf lines).length = some (count, dst') ∧
      count = min dstSize (lines.filter fun line => line.Fits).length ∧
      List.Forall₂ HeaderLine.StoredIn ((lines.filter fun line => line.Fits).take count)
        (dst'.take count) ∧
      dst'.drop count = dst.drop count) ↔ EndReadable dstSize lines r := by
  constructor
  · rintro ⟨count, dst', hrun, -⟩
    by_contra hroom
    exact absurd ((httpStrToHeaders_return_none lines hdst hlen hroom).symm.trans hrun) nofun
  · intro hroom
    obtain ⟨hcount, hstored, hdrop⟩ := storedIn_storing lines hdst
    refine ⟨_, _, httpStrToHeaders_return lines hdst hlen hroom, hcount, ?_, hdrop⟩
    have hmin : (lines.filter fun line => line.Fits).take ((storing lines).take dstSize).length =
        (lines.filter fun line => line.Fits).take dstSize := by
      rw [hcount, ← List.take_take, List.take_length]
    exact hmin ▸ hstored

/-- The line `k:` with a value. -/
def keyLine (value : List UInt8) (htrim : Trimmed value) (hne : value ≠ [])
    (hcr : carriageReturn ∉ value) : HeaderLine where
  key := [107]
  value := value
  beforeKey := 0
  afterKey := 0
  beforeValue := 0
  afterValue := 0
  parts := ⟨by decide, by decide, by decide, htrim, hne⟩
  key_return := by decide
  value_return := hcr

@[simp] lemma length_bytes_keyLine (value : List UInt8) (htrim : Trimmed value) (hne : value ≠ [])
    (hcr : carriageReturn ∉ value) :
    (keyLine value htrim hne hcr).bytes.length = value.length + 2 := by
  simp [HeaderLine.bytes, keyLine]
  omega

/-- The lines `k:v`, `k:` with a value of 64 letters, and `k:w`, and an array with two slots. -/
theorem http_str_to_headers_parses_section_iff_two :
    let first := keyLine [118] (by decide) (by decide) (by decide)
    let long := keyLine (List.replicate 64 118) (by decide) (by decide) (by decide)
    let last := keyLine [119] (by decide) (by decide) (by decide)
    let header : HttpHeader := ⟨Vector.replicate _ 0, Vector.replicate _ 0⟩
    ∃ dst', httpStrToHeaders [header, header] 2 (sectionOf [first, long, last] ++
          [carriageReturn, lineFeed, carriageReturn]) 0 76 = some (2, dst') ∧
      List.Forall₂ HeaderLine.StoredIn [first, last] (dst'.take 2) := by
  intro first long last header
  obtain ⟨count, dst', hrun, hcount, hstored, -⟩ := (http_str_to_headers_parses_section_iff
    [first, long, last] [header, header] 2 [] [lineFeed, carriageReturn] le_rfl
    (by decide +kernel)).mpr (.inr (.inr ⟨by decide +kernel, le_rfl⟩))
  have hfits : [first, long, last].filter (fun line => line.Fits) = [first, last] := by
    have h : first.Fits ∧ ¬ long.Fits ∧ last.Fits := by decide +kernel
    simp [h.1, h.2.1, h.2.2]
  obtain rfl : count = 2 := by
    rw [hcount, hfits]
    rfl
  rw [hfits] at hstored
  exact ⟨dst', hrun, hstored⟩

/-- In the buffer that holds `k:v` and the carriage return, the byte behind the line break is
read where there is none. -/
theorem http_str_to_headers_reads_past : ¬ ∀ (lines : List HeaderLine) (dst : List HttpHeader)
    (dstSize : ℕ) (l r : List UInt8), dstSize ≤ dst.length →
      (sectionOf lines).length < 2 ^ 31 → ∃ count dst',
        httpStrToHeaders dst dstSize (l ++ sectionOf lines ++ carriageReturn :: r) l.length
          (sectionOf lines).length = some (count, dst') ∧
        count = min dstSize (lines.filter fun line => line.Fits).length ∧
        List.Forall₂ HeaderLine.StoredIn ((lines.filter fun line => line.Fits).take count)
          (dst'.take count) ∧
        dst'.drop count = dst.drop count := by
  intro hall
  let line := keyLine [118] (by decide) (by decide) (by decide)
  let header : HttpHeader := ⟨Vector.replicate _ 0, Vector.replicate _ 0⟩
  obtain ⟨count, dst', hrun, -⟩ := hall [line] [header] 1 [] [] le_rfl (by decide +kernel)
  have hsome := congrArg Option.isSome hrun
  rw [Option.isSome_some] at hsome
  revert hsome
  decide +kernel

end C10K
