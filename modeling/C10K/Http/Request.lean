import C10K.Http.Answer
import C10K.Http.NoColon

/-!
# The header section of a request

The two scans of `html_answer` on a well-formed request: the first stops at the end of the request
line, the second one at the first line break that another one follows.
-/

namespace C10K

open Scan

variable {l r s last inBuf reqLine : List UInt8} {lines : List HeaderLine} {frame : AnswerFrame}
variable {bytesRead fuel : ℕ}

/-- The line break behind the last line, and an empty line. -/
def emptyLine : List UInt8 := [carriageReturn, lineFeed, carriageReturn, lineFeed]

/-- A request line, some header lines and an empty line. -/
def request (reqLine : List UInt8) (lines : List HeaderLine) : List UInt8 :=
  reqLine ++ [carriageReturn, lineFeed] ++ brokenLines (lines.map HeaderLine.bytes) ++
    [carriageReturn, lineFeed]

/-- What `in_buf` holds after the request has been received. -/
def receivedBuf (frame : AnswerFrame) (request : List UInt8) : List UInt8 :=
  request ++ 0 :: frame.inBuf.toList.drop (request.length + 1)

/-- One round of the scan: the line that `s` is, and the three bytes behind its end. -/
lemma scanHeaderEnd_line {b₁ b₂ b₃ : UInt8} (hcr : carriageReturn ∉ s)
    (hlt : l.length < bytesRead) (hle : l.length + s.length ≤ bytesRead)
    (hmem : inBuf = l ++ s ++ carriageReturn :: b₁ :: b₂ :: b₃ :: r) :
    scanHeaderEnd inBuf bytesRead (fuel + 1) l.length =
      if b₁ = lineFeed ∧ b₂ = carriageReturn ∧ b₃ = lineFeed then some (l.length + s.length)
      else scanHeaderEnd inBuf bytesRead fuel (l.length + s.length + 2) := by
  have hscan := upFrom_line (l := l) (r := b₁ :: b₂ :: b₃ :: r) _ hcr hle
  have hget : ∀ k, inBuf[l.length + s.length + k]? =
      (carriageReturn :: b₁ :: b₂ :: b₃ :: r)[k]? := by
    intro k
    rw [hmem, List.getElem?_append_right (by simp)]
    simp
  have h₁ := hget 1
  have h₂ := hget 2
  have h₃ := hget 3
  simp only [List.getElem?_cons_succ, List.getElem?_cons_zero] at h₁ h₂ h₃
  rw [← hmem] at hscan
  simp only [scanHeaderEnd, if_pos hlt, hscan, h₁, h₂, h₃, Option.bind_eq_bind, Option.bind_some,
    Option.pure_def]

/-- Lines do not start with a carriage return. -/
lemma brokenLines_head (before : List (List UInt8)) (hbefore : ∀ x ∈ before, x ≠ [])
    (hcr : ∀ x ∈ before, carriageReturn ∉ x) (hlastcr : carriageReturn ∉ last) (hlast : last ≠ []) :
    ∃ c t, brokenLines before ++ last = c :: t ∧ c ≠ carriageReturn := by
  cases before with
  | nil =>
    obtain ⟨c, t, rfl⟩ := List.exists_cons_of_ne_nil hlast
    exact ⟨c, t, rfl, fun h => hlastcr (h ▸ List.mem_cons_self)⟩
  | cons y before =>
    obtain ⟨c, t, rfl⟩ := List.exists_cons_of_ne_nil (hbefore y List.mem_cons_self)
    exact ⟨c, t ++ [carriageReturn, lineFeed] ++ brokenLines before ++ last, by simp [brokenLines],
      fun h => hcr (c :: t) List.mem_cons_self (h ▸ List.mem_cons_self)⟩

/-- The scan stops behind the last line. -/
lemma scanHeaderEnd_lines (before : List (List UInt8)) (fuel : ℕ) (hbefore : ∀ x ∈ before, x ≠ [])
    (hcr : ∀ x ∈ before, carriageReturn ∉ x) (hlastcr : carriageReturn ∉ last) (hlast : last ≠ [])
    (hmem : inBuf = l ++ brokenLines before ++ last ++
      carriageReturn :: lineFeed :: carriageReturn :: lineFeed :: r)
    (hle : l.length + (brokenLines before).length + last.length ≤ bytesRead)
    (hfuel : before.length < fuel) :
    scanHeaderEnd inBuf bytesRead fuel l.length =
      some (l.length + (brokenLines before).length + last.length) := by
  have hlastpos := List.length_pos_of_ne_nil hlast
  induction before generalizing l fuel with
  | nil =>
    obtain ⟨fuel, rfl⟩ : ∃ n, fuel = n + 1 := ⟨fuel - 1, by omega⟩
    simp only [brokenLines, List.flatMap_nil, List.append_nil, List.length_nil,
      Nat.add_zero] at hmem hle ⊢
    rw [scanHeaderEnd_line hlastcr (by omega) hle hmem, if_pos ⟨rfl, rfl, rfl⟩]
  | cons x before ih =>
    obtain ⟨fuel, rfl⟩ : ∃ n, fuel = n + 1 := ⟨fuel - 1, by omega⟩
    have hlength : (brokenLines (x :: before)).length =
        x.length + 2 + (brokenLines before).length := by
      simp [brokenLines]
      omega
    -- the line behind `x` starts with another byte than a carriage return
    obtain ⟨c, b, rest, hrest, hc⟩ : ∃ c b rest, brokenLines before ++ last ++
        carriageReturn :: lineFeed :: carriageReturn :: lineFeed :: r = c :: b :: rest ∧
          c ≠ carriageReturn := by
      obtain ⟨c, t, ht, hc⟩ := brokenLines_head before
        (fun y hy => hbefore y (List.mem_cons_of_mem x hy))
        (fun y hy => hcr y (List.mem_cons_of_mem x hy)) hlastcr hlast
      obtain ⟨b, rest, hrest⟩ := List.exists_cons_of_ne_nil
        (show t ++ carriageReturn :: lineFeed :: carriageReturn :: lineFeed :: r ≠ [] by simp)
      exact ⟨c, b, rest, by rw [ht, List.cons_append, hrest], hc⟩
    have hcut : inBuf = l ++ x ++ carriageReturn :: lineFeed :: c :: b :: rest := by
      rw [hmem, ← hrest]
      simp [brokenLines]
    have hl' : (l ++ x ++ [carriageReturn, lineFeed]).length = l.length + x.length + 2 := by
      simp only [List.length_append, List.length_cons, List.length_nil]
    rw [scanHeaderEnd_line (hcr x List.mem_cons_self) (by omega) (by omega) hcut,
      if_neg fun h => hc h.2.1, ← hl']
    have := ih fuel (l := l ++ x ++ [carriageReturn, lineFeed])
      (fun y hy => hbefore y (List.mem_cons_of_mem x hy))
      (fun y hy => hcr y (List.mem_cons_of_mem x hy)) (by simp [hmem, brokenLines])
      (by rw [hl']; omega) (by simpa using hfuel)
    rw [this, hl', hlength]
    congr 1
    omega

lemma length_request (reqLine : List UInt8) (lines : List HeaderLine) :
    (request reqLine lines).length =
      reqLine.length + (brokenLines (lines.map HeaderLine.bytes)).length + 4 := by
  simp [request]
  omega

/-- The first scan stops at the end of the request line. -/
lemma upFrom_request (hreq : carriageReturn ∉ reqLine)
    (hmem : inBuf = reqLine ++ carriageReturn :: r) :
    upFrom (fun _ b => b ≠ carriageReturn) inBuf 0 = some reqLine.length := by
  have hscan := upFrom_append (f := fun _ b => decide (b ≠ carriageReturn)) (l := [])
    (m := reqLine) (b := carriageReturn) (r := r) (fun k hk => by
      have hne : reqLine[k] ≠ carriageReturn := fun h => hreq (h ▸ List.getElem_mem hk)
      simpa using hne) (by simp)
  rw [hmem]
  simpa using hscan

/-- The headers of a request with header lines are those of its lines. -/
lemma receivedHeaders_eq (hreq : carriageReturn ∉ reqLine) (hne : lines ≠ [])
    (hlen : (request reqLine lines).length < 2 ^ 31) :
    let writes := (storing lines).take headerBufferSize
    receivedHeaders frame (receivedBuf frame (request reqLine lines))
        (request reqLine lines).length =
      some ((writeHeaders writes frame.headerBuffer.toList).take writes.length) := by
  obtain ⟨before, last, rfl⟩ := (List.eq_nil_or_concat lines).resolve_left hne
  rw [List.concat_eq_append] at hlen ⊢
  intro writes
  have hlength := length_request reqLine (before ++ [last])
  generalize hbytes : (request reqLine (before ++ [last])).length = bytesRead at *
  generalize hrest : 0 :: frame.inBuf.toList.drop (bytesRead + 1) = rest
  generalize hfront : reqLine ++ [carriageReturn, lineFeed] = front
  have hfrontlen : front.length = reqLine.length + 2 := by rw [← hfront, List.length_append]; rfl
  have hbuf : receivedBuf frame (request reqLine (before ++ [last])) =
      front ++ brokenLines (before.map HeaderLine.bytes) ++ last.bytes ++
        carriageReturn :: lineFeed :: carriageReturn :: lineFeed :: rest := by
    rw [receivedBuf, hbytes, hrest, request, hfront]
    simp [brokenLines]
  have hsection : sectionOf (before ++ [last]) =
      brokenLines (before.map HeaderLine.bytes) ++ last.bytes := sectionOf_append before last
  have hsectionlen := congrArg List.length hsection
  rw [List.length_append] at hsectionlen
  have hbroken : (brokenLines ((before ++ [last]).map HeaderLine.bytes)).length =
      (sectionOf (before ++ [last])).length + 2 := by
    rw [hsection]
    simp [brokenLines]
    omega
  have hlastpos : 0 < last.bytes.length := List.length_pos_of_ne_nil last.bytes_ne_nil
  have hfirst : upFrom (fun _ b => b ≠ carriageReturn)
      (receivedBuf frame (request reqLine (before ++ [last]))) 0 = some reqLine.length := by
    refine upFrom_request (r := lineFeed :: (brokenLines (before.map HeaderLine.bytes) ++
      last.bytes ++ carriageReturn :: lineFeed :: carriageReturn :: lineFeed :: rest)) hreq ?_
    rw [hbuf, ← hfront]
    simp
  -- the end of the headers
  have hcount := length_le_brokenLines (before.map HeaderLine.bytes)
  rw [List.length_map] at hcount
  have hread : front.length + (brokenLines (before.map HeaderLine.bytes)).length +
      last.bytes.length ≤ bytesRead := by omega
  have hscan := scanHeaderEnd_lines (before.map HeaderLine.bytes) (bytesRead + 1) (fun x hx => by
      obtain ⟨line, -, rfl⟩ := List.mem_map.mp hx
      exact line.bytes_ne_nil) (fun x hx => by
      obtain ⟨line, -, rfl⟩ := List.mem_map.mp hx
      exact line.no_return) last.no_return last.bytes_ne_nil hbuf hread
    (by rw [List.length_map]; omega)
  rw [hfrontlen] at hscan
  -- the section
  have hdst : headerBufferSize ≤ frame.headerBuffer.toList.length := by simp
  have hparse := httpStrToHeaders_return (l := front)
    (r := lineFeed :: carriageReturn :: lineFeed :: rest) (before ++ [last]) hdst
    (by omega) (.inr (.inr ⟨by omega, by simp⟩))
  rw [hsection, ← List.append_assoc, ← hbuf, ← hsection, hfrontlen] at hparse
  have hsub : reqLine.length + 2 + (brokenLines (before.map HeaderLine.bytes)).length +
      last.bytes.length - (reqLine.length + 2) = (sectionOf (before ++ [last])).length := by omega
  simp only [receivedHeaders, hfirst, hscan, hsub, hparse, Option.bind_eq_bind, Option.bind_some,
    Option.pure_def]
  rfl

end C10K
