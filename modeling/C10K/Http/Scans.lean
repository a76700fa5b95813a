import C10K.Http.Page
import C10K.Lib.Pattern

/-!
# The scans for the header section

`html_answer` scans for the first carriage return, and from two bytes behind it for `"\r\n\r\n"`.
The second scan takes the byte that it stops at for a carriage return, also at the end of the
request, and passes two bytes whenever `"\n\r\n"` does not follow.
-/

namespace C10K

open Scan

variable {l s t unread inBuf : List UInt8} {b : UInt8} {fuel p : ℕ}

/-- The two scans of `html_answer`, with `header_start` and `header_end`. -/
def headerScans (inBuf : List UInt8) (bytesRead : ℕ) : Option (ℕ × ℕ) := do
  let firstReturn ← upFrom (fun _ b => b ≠ carriageReturn) inBuf 0
  let headerStart := firstReturn + 2
  let headerEnd ← scanHeaderEnd inBuf bytesRead (bytesRead + 1) headerStart
  return (headerStart, headerEnd)

/-- The headers are parsed from the section that the scans find. -/
lemma receivedHeaders_eq_bind (frame : AnswerFrame) (inBuf : List UInt8) (bytesRead : ℕ) :
    receivedHeaders frame inBuf bytesRead = (headerScans inBuf bytesRead).bind
      fun (headerStart, headerEnd) =>
        (httpStrToHeaders frame.headerBuffer.toList headerBufferSize inBuf headerStart
          (headerEnd - headerStart)).map fun (headerCount, headerBuffer) =>
            headerBuffer.take headerCount := by
  simp only [receivedHeaders, headerScans, Option.bind_eq_bind, Option.bind_assoc,
    Option.map_eq_bind, Option.pure_def, Option.bind_some]
  rfl

/-! ### The second scan, by the bytes that are left -/

/-- Whether the bytes start with `"\n\r\n"`; `none` where there are less than three. -/
def breakFollows (bytes : List UInt8) : Option Bool := do
  let b₁ ← bytes[0]?
  let b₂ ← bytes[1]?
  let b₃ ← bytes[2]?
  return b₁ = lineFeed ∧ b₂ = carriageReturn ∧ b₃ = lineFeed

/-- How far the scan gets from the first of the bytes of the request that are left. The bytes of
`in_buf` behind the NUL are `unread`. -/
def scanRest (unread : List UInt8) : List UInt8 → Option ℕ
  | [] => (breakFollows unread).map fun found => if found then 0 else 2
  | b :: s =>
    if b = carriageReturn then
      (breakFollows (s ++ 0 :: unread)).bind fun found =>
        if found then some 0
        else if s.drop 1 = [] then some 2
        else (scanRest unread (s.drop 1)).map (· + 2)
    else (scanRest unread s).map (· + 1)
termination_by s => s.length
decreasing_by
  · simp only [List.length_drop, List.length_cons]
    omega
  · exact Nat.lt_succ_self _

/-- One turn of the upward loop. -/
lemma upFrom_turn {α : Type*} (f : ℕ → α → Bool) (l r : List α) (b : α) :
    upFrom f (l ++ b :: r) l.length =
      if f l.length b then upFrom f (l ++ b :: r) (l.length + 1) else some l.length := by
  have hdrop : (l ++ b :: r).drop (l.length + 1) = r := by simp
  rw [upFrom, upFrom, hdrop, List.drop_left, up]

/-- Where the inner loop stops, the three bytes behind decide. -/
lemma scanHeaderEnd_stop {bytesRead e : ℕ} (hlt : e < bytesRead)
    (hscan : upFrom (fun i b => b ≠ carriageReturn ∧ i < bytesRead) (l ++ b :: t) e =
      some l.length) :
    scanHeaderEnd (l ++ b :: t) bytesRead (fuel + 1) e =
      (breakFollows t).bind fun found => if found then some l.length
        else scanHeaderEnd (l ++ b :: t) bytesRead fuel (l.length + 2) := by
  have hget : ∀ k, (l ++ b :: t)[l.length + (k + 1)]? = t[k]? := by
    intro k
    rw [List.getElem?_append_right (Nat.le_add_right ..), Nat.add_sub_cancel_left,
      List.getElem?_cons_succ]
  rw [scanHeaderEnd, if_pos hlt, hscan]
  simp only [breakFollows, hget 0, hget 1, hget 2, Option.bind_eq_bind, Option.bind_some,
    Option.bind_assoc, Option.pure_def, decide_eq_true_eq]

/-- At the end of the request the outer loop returns. -/
lemma scanHeaderEnd_past {bytesRead e : ℕ} (hle : bytesRead ≤ e) :
    scanHeaderEnd inBuf bytesRead (fuel + 1) e = some e := by
  rw [scanHeaderEnd, if_neg (Nat.not_lt.mpr hle)]

/-- The scan, where its inner loop comes to the NUL. -/
lemma scanHeaderEnd_nul {e : ℕ} (hmem : inBuf = l ++ 0 :: unread) (hlt : e < l.length)
    (hscan : upFrom (fun i b => b ≠ carriageReturn ∧ i < l.length) inBuf e =
      upFrom (fun i b => b ≠ carriageReturn ∧ i < l.length) inBuf l.length) :
    scanHeaderEnd inBuf l.length (fuel + 2) e = (scanRest unread []).map (l.length + ·) := by
  have hstop := upFrom_turn (fun i b => b ≠ carriageReturn ∧ i < l.length) l unread 0
  rw [if_neg (by simp), ← hmem] at hstop
  rw [hmem, scanHeaderEnd_stop hlt (by rw [← hmem, hscan, hstop]), ← hmem, scanRest,
    Option.map_map, scanHeaderEnd_past (Nat.le_add_right ..), Option.map_eq_bind]
  congr 1
  funext found
  cases found
  · rfl
  · rfl

/-- The scan, where its inner loop passes the bytes up to those that are left. -/
lemma scanHeaderEnd_eq {bytesRead : ℕ} (l s : List UInt8) (fuel e : ℕ)
    (hread : bytesRead = l.length + s.length) (hmem : inBuf = l ++ s ++ 0 :: unread)
    (hlt : e < bytesRead) (hfuel : s.length < fuel)
    (hscan : upFrom (fun i b => b ≠ carriageReturn ∧ i < bytesRead) inBuf e =
      upFrom (fun i b => b ≠ carriageReturn ∧ i < bytesRead) inBuf l.length) :
    scanHeaderEnd inBuf bytesRead (fuel + 1) e = (scanRest unread s).map (l.length + ·) := by
  induction hn : s.length using Nat.strong_induction_on generalizing s l fuel e with
  | _ n ih =>
    subst hn
    obtain ⟨fuel, rfl⟩ : ∃ n, fuel = n + 1 := ⟨fuel - 1, by omega⟩
    rcases s with _ | ⟨b, s⟩
    · subst hread
      exact scanHeaderEnd_nul (by simpa using hmem) hlt hscan
    · have hmem : inBuf = l ++ b :: (s ++ 0 :: unread) := by simpa using hmem
      simp only [List.length_cons] at hread hfuel
      have hturn := upFrom_turn (fun i b => b ≠ carriageReturn ∧ i < bytesRead) l
        (s ++ 0 :: unread) b
      rw [← hmem] at hturn
      by_cases hb : b = carriageReturn
      · rw [if_neg (by simp [hb])] at hturn
        rw [hmem, scanHeaderEnd_stop hlt (by rw [← hmem, hscan, hturn]), ← hmem, scanRest,
          if_pos hb, Option.map_bind]
        congr 1
        funext found
        cases found
        -- without a match, one or two bytes of the request are passed
        · rcases s with _ | ⟨x, _ | ⟨y, s⟩⟩
          · exact scanHeaderEnd_past (by rw [hread]; simp)
          · exact scanHeaderEnd_past (by rw [hread]; simp)
          · simp only [List.length_cons] at hread hfuel
            have hrest := ih (y :: s).length (by simp) (l ++ [b, x]) (y :: s) fuel (l.length + 2)
              (by simp only [List.length_append, List.length_cons, List.length_nil]; omega)
              (by simp [hmem]) (by omega) (by rw [List.length_cons]; omega) (by simp) rfl
            refine hrest.trans ?_
            simp [Function.comp_def, Nat.add_assoc, Nat.add_comm 2]
        · rfl
      · rw [if_pos (by simp [hb]; omega)] at hturn
        have hrest := ih s.length (by simp) (l ++ [b]) s (fuel + 1) e
          (by simp only [List.length_append, List.length_cons, List.length_nil]; omega)
          (by simp [hmem]) hlt (by omega) (by simpa using hscan.trans hturn) rfl
        rw [hrest, scanRest, if_neg hb, Option.map_map]
        congr 1
        funext k
        simp [Nat.add_assoc, Nat.add_comm 1]

/-! ### Where the second scan stops -/

/-- What follows the carriage return of a line break and an empty line. -/
def breakRest : List UInt8 := [lineFeed, carriageReturn, lineFeed]

lemma breakFollows_eq (bytes : List UInt8) : breakFollows bytes =
    if 3 ≤ bytes.length then some (decide (breakRest <+: bytes)) else none := by
  rcases bytes with _ | ⟨b₁, _ | ⟨b₂, _ | ⟨b₃, bytes⟩⟩⟩
  · rfl
  · rfl
  · rfl
  · simp [breakFollows, breakRest, eq_comm]

/-- A match does not reach the NUL. -/
lemma breakRest_prefix_append : breakRest <+: s ++ 0 :: t ↔ breakRest <+: s := by
  rcases s with _ | ⟨b₁, _ | ⟨b₂, _ | ⟨b₃, s⟩⟩⟩
  · simp [breakRest, lineFeed]
  · simp [breakRest, carriageReturn]
  · simp [breakRest, lineFeed]
  · simp [breakRest]

lemma emptyLine_prefix_cons : emptyLine <+: carriageReturn :: s ↔ breakRest <+: s := by
  simp [emptyLine, breakRest]

lemma scanRest_pass (hb : b ≠ carriageReturn) :
    scanRest unread (b :: s) = (scanRest unread s).map (· + 1) := by
  rw [scanRest, if_neg hb]

lemma scanRest_found (h : breakRest <+: s) : scanRest unread (carriageReturn :: s) = some 0 := by
  have hlen : 3 ≤ (s ++ 0 :: unread).length := by
    have := h.length_le
    simp only [breakRest, List.length_cons, List.length_nil, List.length_append] at this ⊢
    omega
  rw [scanRest, if_pos rfl, breakFollows_eq, if_pos hlen,
    decide_eq_true (breakRest_prefix_append.mpr h)]
  rfl

/-- Without a match, the scan goes on two bytes behind. -/
lemma scanRest_jump (h : ¬ breakRest <+: s) : scanRest unread (carriageReturn :: s) =
    if 3 ≤ (s ++ 0 :: unread).length then
      if s.drop 1 = [] then some 2 else (scanRest unread (s.drop 1)).map (· + 2)
    else none := by
  rw [scanRest, if_pos rfl, breakFollows_eq, decide_eq_false (mt breakRest_prefix_append.mp h)]
  by_cases hlen : 3 ≤ (s ++ 0 :: unread).length
  · rw [if_pos hlen, if_pos hlen]
    rfl
  · rw [if_neg hlen, if_neg hlen]
    rfl

/-- Induction along the scan, which passes one byte, or two from a carriage return on. -/
lemma scan_induction {P : List UInt8 → Prop} (nil : P []) (single : ∀ b, P [b])
    (pair : ∀ x, P [carriageReturn, x])
    (pass : ∀ b x s, b ≠ carriageReturn → P (x :: s) → P (b :: x :: s))
    (jump : ∀ x y s, P (y :: s) → P (carriageReturn :: x :: y :: s)) (s : List UInt8) : P s := by
  induction hn : s.length using Nat.strong_induction_on generalizing s with
  | _ n ih =>
    subst hn
    rcases s with _ | ⟨b, _ | ⟨x, s⟩⟩
    · exact nil
    · exact single b
    · by_cases hb : b = carriageReturn
      · subst hb
        rcases s with _ | ⟨y, s⟩
        · exact pair x
        · exact jump x y s (ih (y :: s).length (by simp) (y :: s) rfl)
      · exact pass b x s hb (ih (x :: s).length (by simp) (x :: s) rfl)

/-- The byte is a carriage return. -/
def isReturn (b : UInt8) : Bool := b = carriageReturn

lemma isReturn_self : isReturn carriageReturn = true := rfl

lemma isReturn_eq_false (h : b ≠ carriageReturn) : isReturn b = false := decide_eq_false h

/-- Two bytes are passed, where there are more. -/
lemma scanRest_jump_cons {x y : UInt8} (h : ¬ breakRest <+: x :: y :: s) :
    scanRest unread (carriageReturn :: x :: y :: s) = (scanRest unread (y :: s)).map (· + 2) := by
  rw [scanRest_jump h, if_pos (by simp only [List.length_append, List.length_cons]; omega)]
  exact if_neg (List.cons_ne_nil y s)

lemma add_four_le (h : FirstAt emptyLine s p) : p + 4 ≤ s.length :=
  h.add_length_le (List.cons_ne_nil _ _)

/-- The scan finds the first match if it comes with an even number of carriage returns before. -/
lemma scanRest_eq_some_iff (h : FirstAt emptyLine s p) :
    scanRest unread s = some p ↔ Even (trailing isReturn (s.take p)) := by
  induction s using scan_induction generalizing p with
  | nil => exact absurd (add_four_le h) (by simp)
  | single b => exact absurd (add_four_le h) (by simp)
  | pair x => exact absurd (add_four_le h) (by simp)
  | pass b x s hb ih =>
    obtain ⟨j, rfl, hj⟩ := (firstAt_cons_of_ne hb).mp h
    rw [scanRest_pass hb, List.take_succ_cons, trailing_cons_of_neg (isReturn_eq_false hb), ← ih hj]
    simp
  | jump x y s ih =>
    rcases p with _ | _ | p
    · rw [firstAt_zero, emptyLine_prefix_cons] at h
      rw [scanRest_found h]
      simp
    · obtain ⟨hnot, -⟩ := firstAt_cons_succ.mp h
      rw [emptyLine_prefix_cons] at hnot
      rw [scanRest_jump_cons hnot]
      simp [trailing_cons, isReturn]
    · obtain ⟨hnot, h⟩ := firstAt_cons_succ.mp h
      obtain ⟨-, h⟩ := firstAt_cons_succ.mp h
      rw [emptyLine_prefix_cons] at hnot
      rw [scanRest_jump_cons hnot, List.take_succ_cons, List.take_succ_cons,
        even_trailing_cons_cons isReturn_self, ← ih h]
      simp

/-- The scan stops at once in front of a match, and nowhere else. -/
lemma scanRest_eq_zero_iff (hne : s ≠ []) : scanRest unread s = some 0 ↔ emptyLine <+: s := by
  obtain ⟨b, s, rfl⟩ := List.exists_cons_of_ne_nil hne
  by_cases hb : b = carriageReturn
  · subst hb
    rw [emptyLine_prefix_cons]
    refine ⟨fun h => ?_, scanRest_found⟩
    by_contra hnot
    rw [scanRest_jump hnot] at h
    split_ifs at h
    · cases h
    · simp at h
  · rw [scanRest_pass hb]
    refine iff_of_false ?_ (not_prefix_cons hb)
    simp

lemma exists_le_map_add {n c : ℕ} {o : Option ℕ} :
    (∃ k ≤ n + c, o.map (· + c) = some k) ↔ ∃ k ≤ n, o = some k := by
  constructor
  · rintro ⟨k, hk, h⟩
    obtain ⟨j, rfl, rfl⟩ := Option.map_eq_some_iff.mp h
    exact ⟨j, Nat.le_of_add_le_add_right hk, rfl⟩
  · rintro ⟨k, hk, rfl⟩
    exact ⟨k + c, Nat.add_le_add_right hk c, rfl⟩

/-- At the NUL, the scan stops in the request if `"\n\r\n"` is behind it. -/
lemma scanRest_nil_le_iff : (∃ k ≤ 0, scanRest unread [] = some k) ↔ breakRest <+: unread := by
  rw [scanRest, breakFollows_eq]
  constructor
  · rintro ⟨k, hk, h⟩
    by_contra hnot
    obtain ⟨found, hfound, rfl⟩ := Option.map_eq_some_iff.mp h
    split_ifs at hfound
    · cases hfound
      simp [hnot] at hk
  · intro h
    have hlen : 3 ≤ unread.length := h.length_le
    exact ⟨0, le_rfl, by simp [hlen, h]⟩

/-- Without a match in the request, the scan stops in it if it comes to the byte before the last and
that is a carriage return, or if it comes to the NUL and `"\n\r\n"` follows. -/
lemma scanRest_le_iff (hne : s ≠ []) (hnot : ∀ i, ¬ emptyLine <+: s.drop i) :
    (∃ k ≤ s.length, scanRest unread s = some k) ↔
      Odd (trailing isReturn s.dropLast) ∧ unread ≠ [] ∨
        Even (trailing isReturn s.dropLast) ∧ s.getLast? ≠ some carriageReturn ∧
          breakRest <+: unread := by
  induction s using scan_induction with
  | nil => exact absurd rfl hne
  | single b =>
    by_cases hb : b = carriageReturn
    · subst hb
      have hjump : scanRest unread [carriageReturn] = _ := scanRest_jump (by decide)
      rw [hjump]
      refine iff_of_false ?_ (by simp)
      rintro ⟨k, hk, hstop⟩
      simp only [List.length_cons, List.length_nil] at hk
      split_ifs at hstop with hlen hdrop
      · cases hstop
        omega
      · exact hdrop rfl
    · rw [scanRest_pass hb, List.length_singleton, ← Nat.zero_add 1, exists_le_map_add,
        scanRest_nil_le_iff]
      simp [hb]
  | pair x =>
    have hpair : ¬ breakRest <+: [x] := fun h => absurd h.length_le (by simp [breakRest])
    rw [scanRest_jump hpair]
    cases unread with
    | nil => simp [breakRest]
    | cons b unread => simp [trailing_cons, isReturn]
  | pass b x s hb ih =>
    have hrest := ih (List.cons_ne_nil x s) fun i => hnot (i + 1)
    rw [scanRest_pass hb, List.dropLast_cons_of_ne_nil (List.cons_ne_nil x s),
      trailing_cons_of_neg (isReturn_eq_false hb), List.getLast?_cons_cons, ← hrest]
    exact exists_le_map_add
  | jump x y s ih =>
    have hrest := ih (List.cons_ne_nil y s) fun i => hnot (i + 2)
    have hbreak : ¬ breakRest <+: x :: y :: s := emptyLine_prefix_cons.not.mp (hnot 0)
    rw [scanRest_jump_cons hbreak, List.dropLast_cons_of_ne_nil (List.cons_ne_nil x _),
      List.dropLast_cons_of_ne_nil (List.cons_ne_nil y s), ← Nat.not_even_iff_odd,
      even_trailing_cons_cons isReturn_self, Nat.not_even_iff_odd, List.getLast?_cons_cons,
      List.getLast?_cons_cons, ← hrest]
    exact exists_le_map_add (n := (y :: s).length) (c := 2)

/-! ### The two scans on a request -/

variable {frame : AnswerFrame} {received reqLine : List UInt8} {x : UInt8} {q : ℕ}

/-- A line break. -/
def lineBreak : List UInt8 := [carriageReturn, lineFeed]

/-- The bytes of `in_buf` behind the request and its NUL, which nothing wrote. -/
def unreadBytes (frame : AnswerFrame) (received : List UInt8) : List UInt8 :=
  frame.inBuf.toList.drop (received.length + 1)

/-- The scans stop in the request. If it holds an empty line, the bytes between the two indices are
those behind the first line break and before the first empty line; there are none if the first line
break is the start of the empty line. -/
def ScansRight (frame : AnswerFrame) (received : List UInt8) : Prop :=
  ∃ headerStart headerEnd,
    headerScans (receivedBuf frame received) received.length = some (headerStart, headerEnd) ∧
      headerStart ≤ received.length ∧ headerEnd ≤ received.length ∧
      ∀ p q, FirstAt emptyLine received p → FirstAt lineBreak received q →
        Set.Ico headerStart headerEnd = Set.Ico (q + 2) p

/-- The first carriage return is that of the first line break, and the first empty line comes with
an even number of carriage returns before; where the two are one, an empty line stands two bytes
behind the first carriage return. -/
def FindsSection (received : List UInt8) : Prop :=
  ∀ p q, FirstAt emptyLine received p → FirstAt lineBreak received q →
    (q < p → FirstAt [carriageReturn] received q ∧
      Even (trailing isReturn (received.take p))) ∧
    (q = p → ∃ r, FirstAt [carriageReturn] received r ∧ emptyLine <+: received.drop (r + 2))

/-- An odd number of carriage returns stands before the last byte, and a byte behind the NUL unless
they are the first one; or an even number, another byte than a carriage return is the last, and
`"\n\r\n"` is behind the NUL. -/
def StaysInside (frame : AnswerFrame) (received : List UInt8) : Prop :=
  Odd (trailing isReturn received.dropLast) ∧
      (received.length < 4095 ∨ FirstAt [carriageReturn] received (received.length - 2)) ∨
    Even (trailing isReturn received.dropLast) ∧ carriageReturn ∈ received.dropLast ∧
      received.getLast? ≠ some carriageReturn ∧ breakRest <+: unreadBytes frame received

lemma receivedBuf_eq (frame : AnswerFrame) (received : List UInt8) :
    receivedBuf frame received = received ++ 0 :: unreadBytes frame received := rfl

/-- Without a carriage return before the last byte, the first scan leaves the request. -/
lemma lt_of_headerScans {headerStart headerEnd : ℕ} (hcr : carriageReturn ∉ received.dropLast)
    (h : headerScans (receivedBuf frame received) received.length =
      some (headerStart, headerEnd)) : received.length < headerStart := by
  simp only [headerScans, bind, Option.bind_eq_some_iff, pure, Option.some.injEq,
    Prod.mk.injEq] at h
  obtain ⟨r, hr, -, -, rfl, -⟩ := h
  obtain ⟨m, b, rest, hmem, rfl, hb, -⟩ := up_eq_some hr
  have hb : b = carriageReturn := by simpa using hb
  subst hb
  by_contra hle
  apply hcr
  have hlt : m.length < received.length - 1 := by omega
  have hget : (receivedBuf frame received)[m.length]? = some carriageReturn := by
    rw [List.drop_zero] at hmem
    rw [hmem]
    simp
  apply List.mem_of_getElem? (i := m.length)
  rw [List.getElem?_dropLast, if_pos hlt, ← hget, receivedBuf,
    List.getElem?_append_left (by omega)]

/-- Without a carriage return before the last byte, there is no empty line. -/
lemma not_emptyLine_of_not_mem (hcr : carriageReturn ∉ received.dropLast) (i : ℕ) :
    ¬ emptyLine <+: received.drop i := by
  rintro ⟨t, ht⟩
  apply hcr
  have hlength := congrArg List.length ht
  simp only [emptyLine, List.length_append, List.length_cons, List.length_nil,
    List.length_drop] at hlength
  apply List.mem_of_getElem? (i := i)
  rw [List.getElem?_dropLast, if_pos (by omega), ← List.head?_drop, ← ht]
  rfl

lemma not_staysInside (hcr : carriageReturn ∉ received.dropLast) :
    ¬ StaysInside frame received := by
  rintro (⟨hodd, -⟩ | ⟨-, hmem, -⟩)
  · have hzero := trailing_append_right (l := []) (r := received.dropLast) (p := isReturn)
      fun b hb => isReturn_eq_false fun heq => hcr (heq ▸ hb)
    rw [List.append_nil] at hzero
    rw [hzero] at hodd
    exact Nat.not_odd_zero hodd
  · exact hcr hmem

/-- The bytes before the first carriage return, if it is not the last byte. -/
lemma exists_first_return (hcr : carriageReturn ∈ received.dropLast) :
    ∃ reqLine x s, carriageReturn ∉ reqLine ∧ received = reqLine ++ carriageReturn :: x :: s := by
  obtain ⟨reqLine, rest, hdrop, ha⟩ := List.eq_append_cons_of_mem hcr
  have hne : received ≠ [] := by
    rintro rfl
    cases hcr
  obtain ⟨x, s, hxs⟩ := List.exists_cons_of_ne_nil
    (show rest ++ [received.getLast hne] ≠ [] by simp)
  refine ⟨reqLine, x, s, ha, ?_⟩
  rw [← hxs, ← List.cons_append, ← List.append_assoc, ← hdrop, List.dropLast_append_getLast]

/-- At least one byte stands between the first line break and an empty line behind it. -/
lemma two_lt_of_firstAt (hp : FirstAt emptyLine received p) (hq : FirstAt lineBreak received q)
    (hlt : q < p) : q + 2 < p := by
  obtain ⟨t, ht⟩ := hq.1
  have hdrop : ∀ k, received.drop (q + k) = (lineBreak ++ t).drop k := fun k => by
    rw [← List.drop_drop, ht]
  by_contra hle
  rcases (show p = q + 1 ∨ p = q + 2 by omega) with rfl | rfl
  · have hempty := hp.1
    rw [hdrop 1] at hempty
    exact not_prefix_cons (by decide : lineFeed ≠ carriageReturn) hempty
  · have hempty := hp.1
    rw [hdrop 2] at hempty
    obtain ⟨t', ht'⟩ := hempty
    apply hp.2 q hlt
    rw [← ht]
    exact ⟨lineBreak ++ t', congrArg (lineBreak ++ ·) ht'⟩

section FirstReturn

variable (hreceived : received = reqLine ++ carriageReturn :: x :: s)
include hreceived

lemma length_received : received.length = reqLine.length + 2 + s.length := by
  simp only [hreceived, List.length_append, List.length_cons]
  omega

lemma drop_received : received.drop (reqLine.length + 2) = s := by
  rw [hreceived, List.drop_append, List.drop_eq_nil_of_le (Nat.le_add_right ..),
    Nat.add_sub_cancel_left]
  rfl

lemma dropLast_received (hs : s ≠ []) :
    received.dropLast = reqLine ++ carriageReturn :: x :: s.dropLast := by
  rw [hreceived, List.dropLast_append_of_ne_nil (List.cons_ne_nil _ _),
    List.dropLast_cons_of_ne_nil (List.cons_ne_nil _ _), List.dropLast_cons_of_ne_nil hs]

lemma getLast?_received (hs : s ≠ []) : received.getLast? = s.getLast? := by
  obtain ⟨b, s, rfl⟩ := List.exists_cons_of_ne_nil hs
  rw [hreceived, List.getLast?_append_of_ne_nil _ (List.cons_ne_nil _ _),
    List.getLast?_cons_cons, List.getLast?_cons_cons]

/-- The number of carriage returns before an empty line does not reach beyond the first line
feed. -/
lemma trailing_take_received (hx : x ≠ carriageReturn) (j : ℕ) :
    trailing isReturn (received.take (reqLine.length + 2 + j)) = trailing isReturn (s.take j) := by
  have htake : received.take (reqLine.length + 2 + j) =
      (reqLine ++ [carriageReturn]) ++ x :: s.take j := by
    rw [hreceived, List.take_append, List.take_of_length_le (by omega), Nat.add_assoc,
      Nat.add_sub_cancel_left, Nat.add_comm 2]
    simp
  rw [htake, trailing_append_of_neg (isReturn_eq_false hx)]

variable (ha : carriageReturn ∉ reqLine)
include ha

/-- Two bytes more leave the parity as it is. -/
lemma even_trailing_received (hs : s ≠ []) :
    Even (trailing isReturn received.dropLast) ↔ Even (trailing isReturn s.dropLast) := by
  have hfalse : ∀ b ∈ reqLine, isReturn b = false := fun b hb =>
    isReturn_eq_false fun heq => ha (heq ▸ hb)
  rw [dropLast_received hreceived hs, trailing_append_right hfalse,
    even_trailing_cons_cons isReturn_self]

lemma firstAt_return_iff {r : ℕ} : FirstAt [carriageReturn] received r ↔ r = reqLine.length := by
  rw [hreceived]
  exact firstAt_singleton ha

/-- The scans, by the bytes behind the first carriage return. -/
lemma headerScans_eq (frame : AnswerFrame) :
    headerScans (receivedBuf frame received) received.length =
      if s = [] then some (reqLine.length + 2, reqLine.length + 2)
      else (scanRest (unreadBytes frame received) s).map
        fun k => (reqLine.length + 2, reqLine.length + 2 + k) := by
  have hlength := length_received hreceived
  have hfirst : upFrom (fun _ b => b ≠ carriageReturn) (receivedBuf frame received) 0 =
      some reqLine.length := by
    apply upFrom_request ha (r := x :: s ++ 0 :: unreadBytes frame received)
    rw [receivedBuf_eq]
    simp [hreceived]
  rw [headerScans, hfirst]
  by_cases hs : s = []
  · subst hs
    rw [if_pos rfl]
    have hend : scanHeaderEnd (receivedBuf frame received) received.length (received.length + 1)
        (reqLine.length + 2) = some (reqLine.length + 2) := by
      apply scanHeaderEnd_past
      simp [hlength]
    simp only [Option.bind_eq_bind, Option.bind_some, hend, Option.pure_def]
  · have hpos := List.length_pos_of_ne_nil hs
    have hmem : receivedBuf frame received =
        reqLine ++ [carriageReturn, x] ++ s ++ 0 :: unreadBytes frame received := by
      rw [receivedBuf_eq]
      simp [hreceived]
    have hread : received.length = (reqLine ++ [carriageReturn, x]).length + s.length := by
      simp [hlength]
    have hend := scanHeaderEnd_eq (reqLine ++ [carriageReturn, x]) s received.length
      (reqLine.length + 2) hread hmem (by omega) (by omega) (by simp)
    rw [if_neg hs]
    simp only [Option.bind_eq_bind, Option.bind_some, hend, Option.pure_def]
    simp [Option.map_eq_bind, Option.bind_assoc]

lemma scansRight_iff (hs : s ≠ []) : ScansRight frame received ↔ ∃ k ≤ s.length,
    scanRest (unreadBytes frame received) s = some k ∧
    ∀ p q, FirstAt emptyLine received p → FirstAt lineBreak received q →
      Set.Ico (reqLine.length + 2) (reqLine.length + 2 + k) = Set.Ico (q + 2) p := by
  have hlength := length_received hreceived
  have hscans := headerScans_eq hreceived ha frame
  rw [if_neg hs] at hscans
  constructor
  · rintro ⟨headerStart, headerEnd, h, -, hend, hsection⟩
    obtain ⟨k, hk, heq⟩ := Option.map_eq_some_iff.mp (hscans.symm.trans h)
    cases heq
    exact ⟨k, by omega, hk, hsection⟩
  · rintro ⟨k, hle, hk, hsection⟩
    refine ⟨_, _, hscans.trans (congrArg _ hk), ?_, ?_, hsection⟩
    · omega
    · omega

/-- Without an empty line in the request. -/
lemma scansRight_open (hnot : ∀ i, ¬ emptyLine <+: received.drop i) :
    ScansRight frame received ↔ StaysInside frame received := by
  by_cases hs : s = []
  · subst hs
    have hlength : received.length = reqLine.length + 2 := length_received hreceived
    have hscans := headerScans_eq hreceived ha frame
    rw [if_pos rfl] at hscans
    refine iff_of_true ⟨_, _, hscans, hlength.ge, hlength.ge, ?_⟩ (.inl ⟨?_, .inr ?_⟩)
    · exact fun p q hp => absurd hp.1 (hnot p)
    · have hdrop : received.dropLast = reqLine ++ [carriageReturn] := by simp [hreceived]
      have hfalse : ∀ b ∈ reqLine, isReturn b = false := fun b hb =>
        isReturn_eq_false fun heq => ha (heq ▸ hb)
      rw [hdrop, trailing_append_right hfalse]
      decide
    · rw [hlength, Nat.add_sub_cancel]
      exact (firstAt_return_iff hreceived ha).mpr rfl
  · have hlength := length_received hreceived
    have hpos := List.length_pos_of_ne_nil hs
    have hparity := even_trailing_received hreceived ha hs
    have hodd : Odd (trailing isReturn received.dropLast) ↔ Odd (trailing isReturn s.dropLast) := by
      rw [← Nat.not_even_iff_odd, ← Nat.not_even_iff_odd, hparity]
    have hmem : carriageReturn ∈ received.dropLast := by simp [dropLast_received hreceived hs]
    have hunread : unreadBytes frame received ≠ [] ↔ received.length < 4095 := by
      rw [unreadBytes, Ne, List.drop_eq_nil_iff, Vector.length_toList, bufferSize]
      omega
    have hfirst : ¬ FirstAt [carriageReturn] received (received.length - 2) := by
      rw [firstAt_return_iff hreceived ha]
      omega
    have hnots : ∀ i, ¬ emptyLine <+: s.drop i := by
      intro i
      have hdrop := hnot (reqLine.length + 2 + i)
      rwa [← List.drop_drop, drop_received hreceived] at hdrop
    have hvacuous : ∀ k, (∀ p q, FirstAt emptyLine received p → FirstAt lineBreak received q →
        Set.Ico (reqLine.length + 2) (reqLine.length + 2 + k) = Set.Ico (q + 2) p) ↔ True :=
      fun k => iff_true_intro fun p q hp => absurd hp.1 (hnot p)
    rw [scansRight_iff hreceived ha hs, StaysInside]
    simp only [hvacuous, and_true]
    rw [scanRest_le_iff hs hnots, ← hunread, getLast?_received hreceived hs, hparity, hodd]
    simp [hmem, hfirst]

/-- An empty line needs more than the two bytes from the first carriage return on. -/
lemma ne_nil_of_firstAt (hp : FirstAt emptyLine received p) : s ≠ [] := by
  rintro rfl
  have hle := add_four_le hp
  rw [hreceived, emptyLine, firstAt_append ha] at hp
  obtain ⟨j, rfl, -⟩ := hp
  simp only [hreceived, List.length_append, List.length_cons, List.length_nil] at hle
  omega

/-- The first line break is the start of the first empty line. -/
lemma scansRight_blank (hp : FirstAt emptyLine received p) (hq : FirstAt lineBreak received p) :
    ScansRight frame received ↔
      ∃ r, FirstAt [carriageReturn] received r ∧ emptyLine <+: received.drop (r + 2) := by
  have hs := ne_nil_of_firstAt hreceived ha hp
  rw [scansRight_iff hreceived ha hs]
  simp only [firstAt_return_iff hreceived ha, exists_eq_left, drop_received hreceived]
  have hstop : scanRest (unreadBytes frame received) s = some 0 ↔ emptyLine <+: s :=
    scanRest_eq_zero_iff hs
  rw [← hstop]
  constructor
  · rintro ⟨k, -, hk, hsection⟩
    have hempty := (hsection p p hp hq).trans (Set.Ico_eq_empty (by omega))
    rw [Set.Ico_eq_empty_iff] at hempty
    obtain rfl : k = 0 := by omega
    exact hk
  · intro hzero
    refine ⟨0, Nat.zero_le _, hzero, fun p' q' hp' hq' => ?_⟩
    rw [hp'.unique hp, hq'.unique hq, Set.Ico_eq_empty (by omega), Set.Ico_eq_empty (by omega)]

/-- The first line break stands before the first empty line. -/
lemma scansRight_lines (hp : FirstAt emptyLine received p) (hq : FirstAt lineBreak received q)
    (hlt : q < p) : ScansRight frame received ↔ FirstAt [carriageReturn] received q ∧
      Even (trailing isReturn (received.take p)) := by
  have hs := ne_nil_of_firstAt hreceived ha hp
  have hle : reqLine.length ≤ q := by
    have hq := hreceived ▸ hq
    obtain ⟨i, rfl, -⟩ := (firstAt_append ha).mp hq
    exact Nat.le_add_right ..
  have hfar := two_lt_of_firstAt hp hq hlt
  -- the empty line stands behind the two bytes from the first carriage return on
  obtain ⟨j, rfl, hj⟩ : ∃ j, p = reqLine.length + 2 + j ∧ FirstAt emptyLine s j := by
    have hp := hreceived ▸ hp
    obtain ⟨i, rfl, hi⟩ := (firstAt_append ha).mp hp
    obtain ⟨j, rfl⟩ : ∃ j, i = j + 2 := ⟨i - 2, by omega⟩
    exact ⟨j, by omega, (firstAt_cons_succ.mp (firstAt_cons_succ.mp hi).2).2⟩
  have hj_le : j ≤ s.length := by
    have := add_four_le hj
    omega
  have hparity : q = reqLine.length → trailing isReturn (received.take (reqLine.length + 2 + j)) =
      trailing isReturn (s.take j) := by
    rintro rfl
    apply trailing_take_received hreceived
    have hbreak := hq.1
    rw [hreceived, List.drop_left] at hbreak
    obtain rfl : lineFeed = x := by simpa [lineBreak] using hbreak
    decide
  rw [scansRight_iff hreceived ha hs, firstAt_return_iff hreceived ha]
  constructor
  · rintro ⟨k, -, hk, hsection⟩
    obtain ⟨hstart, hend⟩ := (Set.Ico_eq_Ico_iff (.inr hfar)).mp (hsection _ q hp hq)
    obtain rfl : k = j := by omega
    have hqr : q = reqLine.length := by omega
    rw [hparity hqr]
    exact ⟨hqr, (scanRest_eq_some_iff hj).mp hk⟩
  · rintro ⟨hqr, heven⟩
    rw [hparity hqr] at heven
    refine ⟨j, hj_le, (scanRest_eq_some_iff hj).mpr heven, fun p' q' hp' hq' => ?_⟩
    rw [hp'.unique hp, hq'.unique hq, hqr]

/-- With an empty line in the request. -/
lemma scansRight_closed {i : ℕ} (hi : emptyLine <+: received.drop i) :
    ScansRight frame received ↔ FindsSection received := by
  obtain ⟨p, hp⟩ := exists_firstAt hi
  have hbreak : lineBreak <+: received.drop p := List.IsPrefix.trans ⟨lineBreak, rfl⟩ hp.1
  obtain ⟨q, hq⟩ := exists_firstAt hbreak
  have hle : q ≤ p := by
    by_contra hlt
    exact hq.2 p (Nat.lt_of_not_le hlt) hbreak
  rcases hle.lt_or_eq with hlt | rfl
  · rw [scansRight_lines hreceived ha hp hq hlt]
    constructor
    · intro h p' q' hp' hq'
      rw [hp'.unique hp, hq'.unique hq]
      exact ⟨fun _ => h, fun heq => absurd heq hlt.ne⟩
    · intro h
      exact (h p q hp hq).1 hlt
  · rw [scansRight_blank hreceived ha hp hq]
    constructor
    · intro h p' q' hp' hq'
      rw [hp'.unique hp, hq'.unique hq]
      exact ⟨fun hlt => absurd hlt (lt_irrefl q), fun _ => h⟩
    · intro h
      exact (h q q hp hq).2 rfl

end FirstReturn

/-- For every request, whatever the unread rest of `in_buf` holds: the scans stop in the request and
find its header section exactly if the request and the rest meet the two conditions. -/
theorem header_scans_find_iff (frame : AnswerFrame) (received : List UInt8) :
    ScansRight frame received ↔ FindsSection received ∧
      ((∀ i, ¬ emptyLine <+: received.drop i) → StaysInside frame received) := by
  by_cases hcr : carriageReturn ∈ received.dropLast
  · obtain ⟨reqLine, x, s, ha, hreceived⟩ := exists_first_return hcr
    by_cases hex : ∃ i, emptyLine <+: received.drop i
    · obtain ⟨i, hi⟩ := hex
      rw [scansRight_closed hreceived ha hi, iff_self_and]
      intro _ hnot
      exact absurd hi (hnot i)
    · have hnot : ∀ i, ¬ emptyLine <+: received.drop i := not_exists.mp hex
      rw [scansRight_open hreceived ha hnot]
      constructor
      · intro h
        exact ⟨fun p q hp => absurd hp.1 (hnot p), fun _ => h⟩
      · rintro ⟨-, h⟩
        exact h hnot
  · apply iff_of_false
    · rintro ⟨headerStart, headerEnd, h, hle, -⟩
      exact absurd (lt_of_headerScans hcr h) (Nat.not_lt.mpr hle)
    · rintro ⟨-, hinside⟩
      exact not_staysInside hcr (hinside (not_emptyLine_of_not_mem hcr))

/-- For `GET / HTTP/1.1` without headers, the section that is found is the empty line. -/
theorem header_scans_pass_empty_line : ¬ ∀ (frame : AnswerFrame) (received : List UInt8),
    6 ≤ received.length → received.length ≤ 4095 → received[5]? = some space →
      ScansRight frame received := by
  intro hall
  have hcr : carriageReturn ∉ getLine := by
    rw [getLine, bytesOf_ofList]
    decide
  have hright := hall zeroFrame (getLine ++ emptyLine) (by decide +kernel) (by decide +kernel)
    (by decide +kernel)
  have hp : FirstAt emptyLine (getLine ++ emptyLine) getLine.length :=
    (firstAt_append hcr).mpr ⟨0, rfl, firstAt_zero.mpr List.prefix_rfl⟩
  have hq : FirstAt lineBreak (getLine ++ emptyLine) getLine.length :=
    (firstAt_append hcr).mpr ⟨0, rfl, firstAt_zero.mpr ⟨lineBreak, rfl⟩⟩
  obtain ⟨r, hr, hempty⟩ := (scansRight_blank (s := lineBreak) rfl hcr hp hq).mp hright
  obtain rfl := (firstAt_singleton (r := breakRest) hcr).mp hr
  have hle := hempty.length_le
  simp [emptyLine, lineBreak] at hle

end C10K
