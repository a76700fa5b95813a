import C10K.Calc.Request

/-!
# The value of a term

Nothing between the parser and the `switch` restricts the two numbers, so that the client chooses
whether the value exists. Where it does, it is the exact one, and where it does not, the behaviour
is undefined.
-/

namespace C10K

open Scanf

variable {message numBuf1 numBuf2 sent : List UInt8} {command operator : UInt8} {size : ℕ}
variable {number1 number2 result : ℤ}

/-! ### The `switch` -/

/-- The byte is one of the four operators. -/
def IsOperator (operator : UInt8) : Prop := operator ∈ [plus, minus, times, slash]

/-- The exact value of a term; the quotient is truncated towards zero. -/
def exactValue (operator : UInt8) (number1 number2 : ℤ) : Option ℤ :=
  if operator = plus then some (number1 + number2)
  else if operator = minus then some (number1 - number2)
  else if operator = times then some (number1 * number2)
  else if operator = slash then (if number2 = 0 then none else some (number1.tdiv number2))
  else none

/-- An `int` holds the sum, the difference or the product; nothing is divided by 0, and the least
`int` not by -1. -/
def HasValue (operator : UInt8) (number1 number2 : ℤ) : Prop :=
  (operator = plus → intMin ≤ number1 + number2 ∧ number1 + number2 ≤ intMax) ∧
    (operator = minus → intMin ≤ number1 - number2 ∧ number1 - number2 ≤ intMax) ∧
    (operator = times → intMin ≤ number1 * number2 ∧ number1 * number2 ≤ intMax) ∧
    (operator = slash → number2 ≠ 0 ∧ ¬ (number1 = intMin ∧ number2 = -1))

/-- The four operators and the others. -/
lemma operator_cases {P : UInt8 → Prop} (hplus : P plus) (hminus : P minus) (htimes : P times)
    (hslash : P slash) (hother : ∀ operator, ¬ IsOperator operator → P operator)
    (operator : UInt8) : P operator := by
  by_cases h : IsOperator operator
  · simp only [IsOperator, List.mem_cons, List.not_mem_nil, or_false] at h
    rcases h with rfl | rfl | rfl | rfl
    · exact hplus
    · exact hminus
    · exact htimes
    · exact hslash
  · exact hother operator h

lemma ne_of_not_isOperator (h : ¬ IsOperator operator) :
    operator ≠ plus ∧ operator ≠ minus ∧ operator ≠ times ∧ operator ≠ slash := by
  simpa [IsOperator] using h

/-- The `switch` is defined where the term has a value. -/
lemma exists_evaluate_iff (h : intMin ≤ number1 ∧ number1 ≤ intMax) :
    (∃ result, evaluate operator number1 number2 = some result) ↔
      HasValue operator number1 number2 := by
  induction operator using operator_cases with
  | hplus => exact exists_toInt_iff.trans (by simp [HasValue, plus, minus, times, slash])
  | hminus => exact exists_toInt_iff.trans (by simp [HasValue, plus, minus, times, slash])
  | htimes => exact exists_toInt_iff.trans (by simp [HasValue, plus, minus, times, slash])
  | hslash => exact (exists_intDiv_iff h).trans (by simp [HasValue, plus, minus, times, slash])
  | hother operator hother =>
    have hne := ne_of_not_isOperator hother
    simp [evaluate, HasValue, hne]

/-- What the `switch` computes is an `int`, and the exact value of the term. -/
lemma evaluate_spec (h : evaluate operator number1 number2 = some result) :
    (intMin ≤ result ∧ result ≤ intMax) ∧
      (IsOperator operator → exactValue operator number1 number2 = some result) := by
  induction operator using operator_cases with
  | hplus =>
    obtain ⟨rfl, hrange⟩ := toInt_eq_some_iff.mp h
    exact ⟨hrange, fun _ => rfl⟩
  | hminus =>
    obtain ⟨rfl, hrange⟩ := toInt_eq_some_iff.mp h
    exact ⟨hrange, fun _ => rfl⟩
  | htimes =>
    obtain ⟨rfl, hrange⟩ := toInt_eq_some_iff.mp h
    exact ⟨hrange, fun _ => rfl⟩
  | hslash =>
    have h : intDiv number1 number2 = some result := h
    rw [intDiv] at h
    split_ifs at h with hzero
    obtain ⟨rfl, hrange⟩ := toInt_eq_some_iff.mp h
    exact ⟨hrange, fun _ => if_neg hzero⟩
  | hother operator hother =>
    have hne := ne_of_not_isOperator hother
    have hzero : evaluate operator number1 number2 = some 0 := by simp [evaluate, hne]
    cases hzero.symm.trans h
    exact ⟨by decide, fun hoperator => absurd hoperator hother⟩

/-! ### The answer -/

/-- One of the texts that tell the client that its message is no term. -/
def IsErrorMessage (sent : List UInt8) : Prop :=
  sent = requestTooLong ∨ (∃ command, sent = unknownCommand command) ∨ sent = failedFormat

/-- An error message, or for the four operators the term with its exact value. -/
def AnswersExactly (operator : UInt8) (number1 number2 : ℤ) (sent : List UInt8) : Prop :=
  IsErrorMessage sent ∨ (IsOperator operator → ∃ result,
    exactValue operator number1 number2 = some result ∧
      sent = termText number1 operator number2 result)

/-- A message of 1 to 126 bytes that starts with `c` and from which `sscanf` reads four fields with
two `int`s. -/
structure IsTerm (message : List UInt8) (operator : UInt8) (number1 number2 : ℤ) : Prop where
  length_le : message.length ≤ 126
  first : message[0]? = some calcCommand
  reads : ∃ command numBuf1 numBuf2, sscanf calcFormat (message ++ [0]) =
      [.char command, .string numBuf1, .char operator, .string numBuf2] ∧
    atoi numBuf1 = some number1 ∧ atoi numBuf2 = some number2

/-- Such a message is answered by the term with the value that the `switch` computes. -/
lemma IsTerm.calcMessage_eq (h : IsTerm message operator number1 number2)
    (hsize : REQ_SIZE_MAX ≤ size) : calcMessage size message =
      (evaluate operator number1 number2).map (termText number1 operator number2) := by
  obtain ⟨command, numBuf1, numBuf2, hread, h₁, h₂⟩ := h.reads
  have hlen := h.length_le
  have hfits : ∀ field ∈ sscanf calcFormat (message ++ [0]), field.Fits REQ_SIZE_MAX := by
    intro field hfield
    have hle := length_bytes_le hfield
    cases field with
    | char b => trivial
    | string bytes =>
      simp only [Field.bytes, List.length_append, List.length_singleton] at hle
      simp only [Field.Fits, REQ_SIZE_MAX]
      omega
  have hoperator : operator ≠ 0 := by
    have hmem : Field.char operator ∈ sscanf calcFormat (message ++ [0]) := by
      rw [hread]
      simp
    rintro rfl
    exact nul_not_mem_bytes hmem (List.mem_singleton_self 0)
  have hroom : message.length < size := by
    simp only [REQ_SIZE_MAX] at hsize
    omega
  simp only [calcMessage, h.first, Option.bind_eq_bind, Option.bind_some, ne_eq, not_true_eq_false,
    if_false, if_pos hroom, if_pos hfits]
  rw [hread]
  simp only [h₁, h₂, Option.bind_some]
  cases hresult : evaluate operator number1 number2 with
  | none => rfl
  | some result =>
    exact sendText_termText (range_of_atoi h₁) (range_of_atoi h₂) (evaluate_spec hresult).1
      hoperator hsize

/-- Neither function does anything but calculate and answer. -/
lemma IsTerm.calcRequest_eq (h : IsTerm message operator number1 number2) (w : World)
    (clientFd : Fd) :
    let sent := (evaluate operator number1 number2).map (termText number1 operator number2)
    CalcSrv.calcRequest w clientFd (some message) = sent.map (fun sent => (some sent, w)) ∧
      CalcUdpSrv.calcRequest (some message) = sent.map (fun sent => (some sent, 0)) := by
  have hlen := h.length_le
  have hpos : 0 < message.length := (List.getElem?_eq_some_iff.mp h.first).1
  have hlong : ¬ 127 ≤ message.length := by omega
  constructor
  · rw [CalcSrv.calcRequest, if_neg hlong, if_neg hpos.ne', h.calcMessage_eq le_rfl]
  · rw [CalcUdpSrv.calcRequest, if_neg hlong, if_neg hpos.ne', h.calcMessage_eq (by decide)]

/-- An answer is sent if the term has a value, and then it is exact. -/
lemma exists_answersExactly_iff {σ : Type*} {s : σ}
    (h : intMin ≤ number1 ∧ number1 ≤ intMax) :
    (∃ sent, ((evaluate operator number1 number2).map (termText number1 operator number2)).map
        (fun sent => (some sent, s)) = some (some sent, s) ∧
      AnswersExactly operator number1 number2 sent) ↔ HasValue operator number1 number2 := by
  rw [← exists_evaluate_iff h]
  constructor
  · rintro ⟨sent, hsent, -⟩
    obtain ⟨text, htext, -⟩ := Option.map_eq_some_iff.mp hsent
    obtain ⟨result, hresult, -⟩ := Option.map_eq_some_iff.mp htext
    exact ⟨result, hresult⟩
  · rintro ⟨result, hresult⟩
    refine ⟨termText number1 operator number2 result, ?_, .inr fun hoperator => ?_⟩
    · rw [hresult]
      rfl
    · exact ⟨result, (evaluate_spec hresult).2 hoperator, rfl⟩

/-- Each of the two functions answers a term, with its exact value for the four operators, if and
only if the term has a value. -/
theorem calc_request_exact_iff (w : World) (clientFd : Fd)
    (h : IsTerm message operator number1 number2) :
    ((∃ sent, CalcSrv.calcRequest w clientFd (some message) = some (some sent, w) ∧
        AnswersExactly operator number1 number2 sent) ↔ HasValue operator number1 number2) ∧
      ((∃ sent, CalcUdpSrv.calcRequest (some message) = some (some sent, 0) ∧
        AnswersExactly operator number1 number2 sent) ↔ HasValue operator number1 number2) := by
  obtain ⟨hsrv, hudp⟩ := h.calcRequest_eq w clientFd
  obtain ⟨command, numBuf1, numBuf2, -, h₁, -⟩ := h.reads
  constructor
  · rw [hsrv]
    exact exists_answersExactly_iff (range_of_atoi h₁)
  · rw [hudp]
    exact exists_answersExactly_iff (range_of_atoi h₁)

/-- An endpoint that `endpoint_create` might have made. -/
def sampleWorld : World := ⟨.initial, 3, 4, 5, 6, boolsetCreate, stackCreate⟩

/-- `c 7 / 2` is answered by `7 / 2 = 3`. -/
theorem calc_request_exact_iff_quotient :
    IsTerm (bytesOf "c 7 / 2") slash 7 2 ∧ HasValue slash 7 2 ∧
      (∃ sent, CalcSrv.calcRequest sampleWorld 7 (some (bytesOf "c 7 / 2")) =
        some (some sent, sampleWorld) ∧ AnswersExactly slash 7 2 sent) ∧
      ∃ sent, CalcUdpSrv.calcRequest (some (bytesOf "c 7 / 2")) = some (some sent, 0) ∧
        AnswersExactly slash 7 2 sent := by
  have h : IsTerm (bytesOf "c 7 / 2") slash 7 2 :=
    ⟨by decide +kernel, by decide +kernel, 99, [55], [50], by decide +kernel, by decide, by decide⟩
  have hvalue : HasValue slash 7 2 := by
    refine ⟨?_, ?_, ?_, ?_⟩
    · exact fun h => absurd h (by decide)
    · exact fun h => absurd h (by decide)
    · exact fun h => absurd h (by decide)
    · exact fun _ => ⟨by decide, fun h => absurd h.2 (by decide)⟩
  obtain ⟨hsrv, hudp⟩ := calc_request_exact_iff sampleWorld 7 h
  exact ⟨h, hvalue, hsrv.mpr hvalue, hudp.mpr hvalue⟩

/-- `c 1 / 0` makes the server divide by zero. -/
theorem calc_request_divides_by_zero : ¬ ∀ (w : World) (clientFd : Fd) (message : List UInt8)
    (operator : UInt8) (number1 number2 : ℤ), IsTerm message operator number1 number2 →
      (∃ sent, CalcSrv.calcRequest w clientFd (some message) = some (some sent, w) ∧
        AnswersExactly operator number1 number2 sent) ∧
      ∃ sent, CalcUdpSrv.calcRequest (some message) = some (some sent, 0) ∧
        AnswersExactly operator number1 number2 sent := by
  intro hall
  have h : IsTerm (bytesOf "c 1 / 0") slash 1 0 :=
    ⟨by decide +kernel, by decide +kernel, 99, [49], [48], by decide +kernel, by decide, by decide⟩
  obtain ⟨sent, hsent, -⟩ := (hall sampleWorld 7 _ _ _ _ h).1
  rw [(h.calcRequest_eq sampleWorld 7).1] at hsent
  cases hsent

end C10K
