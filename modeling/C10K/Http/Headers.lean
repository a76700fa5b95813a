import C10K.Http.Line

/-!
# The header section: `http_str_to_headers`

The loop over the lines. `header_start` and `header_end` are indices into `mem`, as in
`http_str_to_header`. The first scan for the end of a line stops at `str_len`, the later ones one
byte behind it.
-/

namespace C10K

open Scan

/-- The bytes `'\r'` and `'\n'`. -/
def carriageReturn : UInt8 := 13
def lineFeed : UInt8 := 10

/-- `while (str[header_end] != '\r' && header_end < str_len) ++header_end;` -/
def firstLineEnd (mem : List UInt8) (str strLen : ℕ) : Option ℕ :=
  (upFrom (fun i b => b ≠ carriageReturn ∧ i < str + strLen) mem str).bind (intIndex str)

/-- `while (str[header_end] != '\r' && header_end <= str_len) ++header_end;` -/
def nextLineEnd (mem : List UInt8) (str strLen i : ℕ) : Option ℕ :=
  (upFrom (fun i b => b ≠ carriageReturn ∧ i ≤ str + strLen) mem i).bind (intIndex str)

/-- The loop over the lines. Each round passes a byte of the section, so that `str_len + 1` rounds
are enough. -/
def httpStrToHeadersLoop (mem : List UInt8) (str strLen : ℕ) (dstSize : ℤ) :
    ℕ → List HttpHeader → ℕ → ℕ → ℕ → Option (ℕ × List HttpHeader)
  | 0, _, _, _, _ => none
  | fuel + 1, dst, headerIndex, headerStart, headerEnd =>
    if headerStart < str + strLen ∧ headerIndex < dstSize then do
      let header ← dst[headerIndex]?
      let (err, header) ← httpStrToHeader header mem headerStart (headerEnd - headerStart)
      let dst := dst.set headerIndex header
      let headerIndex := if err = 0 then headerIndex + 1 else headerIndex
      let headerStart ← intIndex str (headerEnd + 2)
      let headerEnd ← nextLineEnd mem str strLen headerStart
      httpStrToHeadersLoop mem str strLen dstSize fuel dst headerIndex headerStart headerEnd
    else some (headerIndex, dst)

/-- The returned value and what the array `dst` holds afterwards. -/
def httpStrToHeaders (dst : List HttpHeader) (dstSize : ℤ) (mem : List UInt8) (str strLen : ℕ) :
    Option (ℕ × List HttpHeader) := do
  let headerEnd ← firstLineEnd mem str strLen
  httpStrToHeadersLoop mem str strLen dstSize (strLen + 1) dst 0 str headerEnd

variable {l r s last mem : List UInt8} {str strLen start e e' : ℕ} {header : HttpHeader}

/-! ### Lines and their outcomes -/

/-- What parsing a line does to a header: nothing, or it is accepted and written. -/
abbrev Outcome := Option (HttpHeader → HttpHeader)

/-- The result of `http_str_to_header` on a line with this outcome. -/
def Outcome.result (outcome : Outcome) (header : HttpHeader) : ℤ × HttpHeader :=
  match outcome with
  | none       => (-1, header)
  | some write => (0, write header)

/-- The headers after the first ones have been written, one by each function. -/
def writeHeaders (writes : List (HttpHeader → HttpHeader)) (dst : List HttpHeader) :
    List HttpHeader :=
  List.zipWith (fun write header => write header) writes dst ++ dst.drop writes.length

lemma writeHeaders_append (writes writes' : List (HttpHeader → HttpHeader))
    (dst : List HttpHeader) (h : writes.length ≤ dst.length) :
    writeHeaders (writes ++ writes') dst =
      List.zipWith (fun write header => write header) writes dst ++
        writeHeaders writes' (dst.drop writes.length) := by
  induction writes generalizing dst with
  | nil => simp [writeHeaders]
  | cons write writes ih =>
    obtain ⟨header, dst, rfl⟩ := List.exists_cons_of_length_pos
      (show 0 < dst.length by simp at h; omega)
    simpa [writeHeaders] using ih dst (by simpa using h)

/-- Wherever the line stands before a line break, it is parsed with this outcome. -/
structure ParsesTo (line : List UInt8) (outcome : Outcome) : Prop where
  ne_nil : line ≠ []
  no_return : carriageReturn ∉ line
  parse : ∀ l r header, httpStrToHeader header
    (l ++ line ++ carriageReturn :: lineFeed :: r) l.length line.length =
      some (outcome.result header)

/-- The lines, each with its line break. -/
def brokenLines (lines : List (List UInt8)) : List UInt8 :=
  lines.flatMap (· ++ [carriageReturn, lineFeed])

/-- The lines, with a line break between each two. -/
def headerSection (lines : List (List UInt8)) : List UInt8 :=
  [carriageReturn, lineFeed].intercalate lines

lemma headerSection_append (before : List (List UInt8)) (last : List UInt8) :
    headerSection (before ++ [last]) = brokenLines before ++ last := by
  induction before with
  | nil => simp [headerSection, brokenLines, List.intercalate]
  | cons first before ih =>
    have hcons : ∀ x xs, headerSection (first :: x :: xs) =
        first ++ [carriageReturn, lineFeed] ++ headerSection (x :: xs) := by
      intro x xs
      simp [headerSection, List.intercalate]
    obtain ⟨x, xs, hx⟩ := List.exists_cons_of_ne_nil (show before ++ [last] ≠ [] by simp)
    rw [List.cons_append, hx, hcons, ← hx, ih]
    simp [brokenLines]

lemma length_le_brokenLines (lines : List (List UInt8)) :
    2 * lines.length ≤ (brokenLines lines).length := by
  induction lines with
  | nil => exact Nat.zero_le _
  | cons x lines ih =>
    simp only [brokenLines, List.flatMap_cons, List.length_append, List.length_cons,
      List.length_nil] at ih ⊢
    omega

lemma length_le_of_mem {lines : List (List UInt8)} (h : s ∈ lines) :
    s.length + 2 ≤ (brokenLines lines).length := by
  obtain ⟨before, after, rfl⟩ := List.append_of_mem h
  simp [brokenLines]
  omega

/-! ### One round of the loop -/

/-- A scan for the end of a line stops at the next carriage return. -/
lemma upFrom_line (limit : ℕ) (hcr : carriageReturn ∉ s) (hlimit : l.length + s.length ≤ limit) :
    upFrom (fun i b => b ≠ carriageReturn ∧ i < limit) (l ++ s ++ carriageReturn :: r) l.length =
      some (l.length + s.length) := by
  refine upFrom_append (fun k hk => ?_) (by simp)
  have hne : s[k] ≠ carriageReturn := fun h => hcr (h ▸ List.getElem_mem hk)
  have hlt : l.length + k < limit := by omega
  simp [hne, hlt]

lemma nextLineEnd_line (hcr : carriageReturn ∉ s) (hstr : str ≤ l.length)
    (hle : l.length + s.length ≤ str + strLen) (hlen : strLen < 2 ^ 31) :
    nextLineEnd (l ++ s ++ carriageReturn :: r) str strLen l.length =
      some (l.length + s.length) := by
  have hscan := upFrom_line (l := l) (r := r) (str + strLen + 1) hcr (by omega)
  simp only [Nat.lt_succ_iff] at hscan
  rw [nextLineEnd, hscan, Option.bind_some]
  exact intIndex_of_lt (by omega) (by omega)

variable {dstSize : ℤ} {fuel : ℕ} {outcome : Outcome} {done rest : List HttpHeader}

/-- The loop ends when the array is full. -/
lemma httpStrToHeadersLoop_full {dst : List HttpHeader} {headerIndex : ℕ}
    (hfull : dstSize ≤ headerIndex) :
    httpStrToHeadersLoop mem str strLen dstSize (fuel + 1) dst headerIndex start e =
      some (headerIndex, dst) := by
  rw [httpStrToHeadersLoop, if_neg fun h => by omega]

/-- The loop ends behind the section. -/
lemma httpStrToHeadersLoop_past {dst : List HttpHeader} {headerIndex : ℕ}
    (hpast : str + strLen ≤ start) :
    httpStrToHeadersLoop mem str strLen dstSize (fuel + 1) dst headerIndex start e =
      some (headerIndex, dst) := by
  rw [httpStrToHeadersLoop, if_neg fun h => by omega]

/-- One round: the line from `start` to `e` goes to the next free slot of the array. -/
lemma httpStrToHeadersLoop_line (fuel : ℕ) (done rest : List HttpHeader)
    (hstart : start < str + strLen) (hfree : done.length < dstSize)
    (hparse : httpStrToHeader header mem start (e - start) = some (outcome.result header))
    (hindex : intIndex str (e + 2) = some (e + 2))
    (hnext : nextLineEnd mem str strLen (e + 2) = some e') :
    httpStrToHeadersLoop mem str strLen dstSize (fuel + 1) (done ++ header :: rest) done.length
        start e =
      httpStrToHeadersLoop mem str strLen dstSize fuel
        (done ++ writeHeaders outcome.toList (header :: rest)) (done.length + outcome.toList.length)
        (e + 2) e' := by
  rw [httpStrToHeadersLoop, if_pos ⟨hstart, hfree⟩]
  cases outcome with
  | none =>
    simp only [Outcome.result] at hparse
    simp [hparse, hindex, hnext, writeHeaders]
  | some write =>
    simp only [Outcome.result] at hparse
    simp [hparse, hindex, hnext, writeHeaders]

/-- The last line ends at `e`, and the loop goes on behind it and ends. -/
structure LastLine (mem : List UInt8) (str strLen start e : ℕ) (outcome : Outcome) : Prop where
  parse : ∀ header, httpStrToHeader header mem start (e - start) = some (outcome.result header)
  past : str + strLen ≤ e + 2
  index : intIndex str (e + 2) = some (e + 2)
  next : ∃ e', nextLineEnd mem str strLen (e + 2) = some e'

/-- The end of the first of the lines, where `e` is the end of the last one. -/
def firstEnd (start e : ℕ) : List (List UInt8 × Outcome) → ℕ
  | []             => e
  | (first, _) :: _ => start + first.length

/-- The functions that write the accepted lines. -/
def accepted (before : List (List UInt8 × Outcome)) : List (HttpHeader → HttpHeader) :=
  before.filterMap Prod.snd

/-- The first of some lines ends with a line break of its own. -/
lemma eq_append_first {x : List UInt8 × Outcome} {before : List (List UInt8 × Outcome)}
    (hmem : mem = l ++ brokenLines ((x :: before).map Prod.fst) ++ last ++ r) :
    mem = l ++ x.1 ++
      carriageReturn :: lineFeed :: (brokenLines (before.map Prod.fst) ++ last ++ r) := by
  rw [hmem]
  simp [brokenLines]

lemma first_le_start {x : List UInt8 × Outcome} {before : List (List UInt8 × Outcome)}
    (hstart : start = l.length + (brokenLines ((x :: before).map Prod.fst)).length) :
    l.length + x.1.length ≤ start := by
  rw [hstart]
  simp [brokenLines]

/-- The end of the next line is found wherever it stands. -/
lemma nextLineEnd_firstEnd {before : List (List UInt8 × Outcome)} (hstr : str ≤ l.length)
    (hbefore : ∀ x ∈ before, ParsesTo x.1 x.2)
    (hmem : mem = l ++ brokenLines (before.map Prod.fst) ++ last ++ r)
    (hstart : start = l.length + (brokenLines (before.map Prod.fst)).length)
    (hlt : start < str + strLen) (hlen : strLen < 2 ^ 31)
    (hend : nextLineEnd mem str strLen start = some e) :
    nextLineEnd mem str strLen l.length = some (firstEnd l.length e before) := by
  cases before with
  | nil =>
    have hzero : start = l.length := hstart
    exact hzero ▸ hend
  | cons x before =>
    have hcr := (hbefore x List.mem_cons_self).no_return
    have hle := first_le_start hstart
    rw [eq_append_first hmem]
    exact nextLineEnd_line hcr hstr (by omega) hlen

/-- The text behind the first line and its line break. -/
lemma eq_append_rest {x : List UInt8 × Outcome} {before : List (List UInt8 × Outcome)}
    (hmem : mem = l ++ brokenLines ((x :: before).map Prod.fst) ++ last ++ r) :
    mem = l ++ x.1 ++ [carriageReturn, lineFeed] ++ brokenLines (before.map Prod.fst) ++ last ++
      r := by
  rw [hmem]
  simp [brokenLines]

lemma start_eq_rest {x : List UInt8 × Outcome} {before : List (List UInt8 × Outcome)}
    (hstart : start = l.length + (brokenLines ((x :: before).map Prod.fst)).length) :
    start = (l ++ x.1 ++ [carriageReturn, lineFeed]).length +
      (brokenLines (before.map Prod.fst)).length := by
  rw [hstart]
  simp [brokenLines]
  omega

/-- The round for the first of some lines, which comes to the next of them. -/
lemma httpStrToHeadersLoop_first {dstSize : ℕ} {x : List UInt8 × Outcome}
    {before : List (List UInt8 × Outcome)} (done rest : List HttpHeader) (fuel : ℕ)
    (hbefore : ∀ y ∈ x :: before, ParsesTo y.1 y.2)
    (hmem : mem = l ++ brokenLines ((x :: before).map Prod.fst) ++ last ++ r)
    (hstr : str ≤ l.length)
    (hstart : start = l.length + (brokenLines ((x :: before).map Prod.fst)).length)
    (hlt : start < str + strLen) (hlen : strLen < 2 ^ 31)
    (hend : nextLineEnd mem str strLen start = some e) (hfree : done.length < dstSize) :
    httpStrToHeadersLoop mem str strLen dstSize (fuel + 1) (done ++ header :: rest) done.length
        l.length (firstEnd l.length e (x :: before)) =
      httpStrToHeadersLoop mem str strLen dstSize fuel
        (done ++ writeHeaders x.2.toList (header :: rest)) (done.length + x.2.toList.length)
        (l ++ x.1 ++ [carriageReturn, lineFeed]).length
        (firstEnd (l ++ x.1 ++ [carriageReturn, lineFeed]).length e before) := by
  have hl' : (l ++ x.1 ++ [carriageReturn, lineFeed]).length = l.length + x.1.length + 2 := by
    simp only [List.length_append, List.length_cons, List.length_nil]
  have hbefore' : ∀ y ∈ before, ParsesTo y.1 y.2 := by
    intro y hy
    exact hbefore y (List.mem_cons_of_mem x hy)
  have hstart' := start_eq_rest hstart
  have hnext := nextLineEnd_firstEnd (by rw [hl']; omega) hbefore' (eq_append_rest hmem) hstart' hlt
    hlen hend
  rw [hl'] at hnext hstart' ⊢
  have hparse := (hbefore x List.mem_cons_self).parse l
    (brokenLines (before.map Prod.fst) ++ last ++ r) header
  rw [← eq_append_first hmem] at hparse
  have hindex : intIndex str (l.length + x.1.length + 2) = some (l.length + x.1.length + 2) :=
    intIndex_of_lt (by omega) (by omega)
  rw [firstEnd]
  refine httpStrToHeadersLoop_line fuel done rest (by omega) (by exact_mod_cast hfree) ?_ hindex
    hnext
  rw [Nat.add_sub_cancel_left]
  exact hparse

/-- The loop from the first of some lines on: the accepted lines are written to the free slots in
their order, as far as the slots go, and the loop comes to the line behind them. -/
theorem httpStrToHeadersLoop_before {dstSize : ℕ} (before : List (List UInt8 × Outcome))
    (done rest : List HttpHeader) (fuel : ℕ) (hbefore : ∀ x ∈ before, ParsesTo x.1 x.2)
    (hmem : mem = l ++ brokenLines (before.map Prod.fst) ++ last ++ r) (hstr : str ≤ l.length)
    (hstart : start = l.length + (brokenLines (before.map Prod.fst)).length)
    (hlt : start < str + strLen) (hlen : strLen < 2 ^ 31)
    (hend : before ≠ [] → nextLineEnd mem str strLen start = some e)
    (hdst : dstSize ≤ done.length + rest.length) (hfuel : before.length < fuel) :
    let writes := (accepted before).take (dstSize - done.length)
    httpStrToHeadersLoop mem str strLen dstSize fuel (done ++ rest) done.length l.length
        (firstEnd l.length e before) =
      httpStrToHeadersLoop mem str strLen dstSize (fuel - before.length)
        (done ++ writeHeaders writes rest) (done.length + writes.length) start e := by
  induction before generalizing l done rest fuel with
  | nil =>
    intro writes
    have hzero : start = l.length := hstart
    simp [writes, accepted, writeHeaders, firstEnd, hzero]
  | cons x before ih =>
    intro writes
    have hend := hend (List.cons_ne_nil x before)
    obtain ⟨fuel, rfl⟩ : ∃ n, fuel = n + 1 := ⟨fuel - 1, by omega⟩
    have hfuel : before.length < fuel := by simpa using hfuel
    have hsucc : fuel + 1 - (x :: before).length = fuel - before.length := by simp
    by_cases hfull : dstSize ≤ done.length
    · have hnil : writes = [] := by simp [writes, Nat.sub_eq_zero_of_le hfull]
      obtain ⟨m, hm⟩ : ∃ m, fuel - before.length = m + 1 := ⟨fuel - before.length - 1, by omega⟩
      rw [httpStrToHeadersLoop_full (by exact_mod_cast hfull), hnil, hsucc, hm,
        httpStrToHeadersLoop_full (by simpa using hfull)]
      simp [writeHeaders]
    obtain ⟨header, rest, rfl⟩ := List.exists_cons_of_length_pos (show 0 < rest.length by omega)
    rw [httpStrToHeadersLoop_first done rest fuel hbefore hmem hstr hstart hlt hlen hend
      (by omega), hsucc]
    have hstr' : str ≤ (l ++ x.1 ++ [carriageReturn, lineFeed]).length := by
      simp only [List.length_append]
      omega
    have hbefore' : ∀ y ∈ before, ParsesTo y.1 y.2 := by
      intro y hy
      exact hbefore y (List.mem_cons_of_mem x hy)
    rcases hout : x.2 with _ | write
    · have hx : accepted (x :: before) = accepted before := by simp [accepted, hout]
      simp only [writes, hx]
      have := ih done (header :: rest) fuel hbefore' (eq_append_rest hmem) hstr'
        (start_eq_rest hstart) (fun _ => hend) hdst hfuel
      simpa [writeHeaders] using this
    · have hx : accepted (x :: before) = write :: accepted before := by simp [accepted, hout]
      have hroom : dstSize - done.length = dstSize - (done ++ [write header]).length + 1 := by
        simp
        omega
      simp only [writes, hx, hroom, List.take_succ_cons]
      have := ih (done ++ [write header]) rest fuel hbefore' (eq_append_rest hmem) hstr'
        (start_eq_rest hstart) (fun _ => hend) (by simp at hdst ⊢; omega) hfuel
      simpa [writeHeaders, Nat.add_assoc, Nat.add_comm 1] using this

section Whole

variable {dstSize : ℕ} {dst : List HttpHeader} {before : List (List UInt8 × Outcome)}
variable (hbefore : ∀ x ∈ before, ParsesTo x.1 x.2)
variable (hmem : mem = l ++ brokenLines (before.map Prod.fst) ++ last ++ r)
variable (hstart : start = l.length + (brokenLines (before.map Prod.fst)).length)
variable (hlt : start < l.length + strLen) (hlen : strLen < 2 ^ 31)
variable (hfirst : before = [] → firstLineEnd mem l.length strLen = some e)
variable (hend : before ≠ [] → nextLineEnd mem l.length strLen start = some e)
variable (hdst : dstSize ≤ dst.length)
include hbefore hmem hstart hlt hlen hfirst hend hdst

/-- The function comes to its last line. -/
lemma httpStrToHeaders_before :
    let writes := (accepted before).take dstSize
    ∃ fuel, httpStrToHeaders dst dstSize mem l.length strLen =
      httpStrToHeadersLoop mem l.length strLen dstSize (fuel + 2) (writeHeaders writes dst)
        writes.length start e := by
  intro writes
  have hfirst : firstLineEnd mem l.length strLen = some (firstEnd l.length e before) := by
    cases before with
    | nil => exact hfirst rfl
    | cons x before =>
      have hcr := (hbefore x List.mem_cons_self).no_return
      have hle := first_le_start hstart
      rw [firstLineEnd, eq_append_first hmem, upFrom_line _ hcr (by omega), Option.bind_some]
      exact intIndex_of_lt (by omega) (by omega)
  have hcount := length_le_brokenLines (before.map Prod.fst)
  rw [List.length_map] at hcount
  have := httpStrToHeadersLoop_before before [] dst (strLen + 1)
    hbefore hmem le_rfl hstart hlt hlen hend (by simpa using hdst) (by omega)
  simp only [List.nil_append, List.length_nil, Nat.sub_zero, Nat.zero_add] at this
  refine ⟨strLen - before.length - 1, ?_⟩
  have hfuel : strLen - before.length - 1 + 2 = strLen + 1 - before.length := by omega
  rw [httpStrToHeaders, hfirst, hfuel]
  exact this

/-- The function on lines of which the last is parsed as well. -/
theorem httpStrToHeaders_section
    (hlast : (accepted before).length < dstSize → LastLine mem l.length strLen start e outcome) :
    let writes := (accepted before ++ outcome.toList).take dstSize
    httpStrToHeaders dst dstSize mem l.length strLen =
      some (writes.length, writeHeaders writes dst) := by
  intro writes
  obtain ⟨fuel, hrun⟩ := httpStrToHeaders_before hbefore hmem hstart hlt hlen hfirst hend hdst
  rw [hrun]
  by_cases hfull : dstSize ≤ (accepted before).length
  · have hwrites : (accepted before).take dstSize = writes :=
      (List.take_append_of_le_length hfull).symm
    rw [hwrites]
    refine httpStrToHeadersLoop_full ?_
    have : writes.length = dstSize := by
      rw [← hwrites, List.length_take]
      omega
    exact_mod_cast this.ge
  · have hlast := hlast (Nat.lt_of_not_le hfull)
    obtain ⟨e', hnext⟩ := hlast.next
    have hwrites : (accepted before).take dstSize = accepted before :=
      List.take_of_length_le (by omega)
    have hall : writes = accepted before ++ outcome.toList := by
      refine List.take_of_length_le ?_
      have : outcome.toList.length ≤ 1 := by cases outcome <;> simp
      rw [List.length_append]
      omega
    obtain ⟨header, rest, hrest⟩ := List.exists_cons_of_length_pos
      (show 0 < (dst.drop (accepted before).length).length by rw [List.length_drop]; omega)
    have hdone : (List.zipWith (fun write header => write header) (accepted before) dst).length =
        (accepted before).length := by
      rw [List.length_zipWith]
      omega
    have hfree : ((List.zipWith (fun write header => write header) (accepted before) dst).length :
        ℤ) < dstSize := by
      rw [hdone]
      omega
    have hstep := httpStrToHeadersLoop_line (fuel + 1) _ rest hlt hfree (hlast.parse header)
      hlast.index hnext
    rw [httpStrToHeadersLoop_past hlast.past, ← hrest, hdone] at hstep
    rw [hwrites, hall, List.length_append, writeHeaders_append _ _ _ (by omega)]
    exact hstep

/-- The function on lines of which no `int` goes on behind the last. -/
lemma httpStrToHeaders_overflow {result : HttpHeader → ℤ × HttpHeader}
    (hfree : (accepted before).length < dstSize)
    (hparse : ∀ header, httpStrToHeader header mem start (e - start) = some (result header))
    (hindex : (intIndex l.length (e + 2)).bind (nextLineEnd mem l.length strLen) = none) :
    httpStrToHeaders dst dstSize mem l.length strLen = none := by
  obtain ⟨fuel, hrun⟩ := httpStrToHeaders_before hbefore hmem hstart hlt hlen hfirst hend hdst
  have hwrites : (accepted before).take dstSize = accepted before :=
    List.take_of_length_le (by omega)
  have hstop : ∀ next : ℕ → ℕ → Option (ℕ × List HttpHeader),
      (intIndex l.length (e + 2)).bind (fun i =>
        (nextLineEnd mem l.length strLen i).bind (next i)) = none := by
    intro next
    rcases hi : intIndex l.length (e + 2) with _ | i
    · rfl
    · rw [hi, Option.bind_some] at hindex
      rw [Option.bind_some, hindex, Option.bind_none]
  rw [hrun, hwrites, httpStrToHeadersLoop, if_pos ⟨hlt, by exact_mod_cast hfree⟩]
  simp only [hparse, Option.bind_eq_bind, hstop, Option.bind_fun_none]

end Whole

end C10K
