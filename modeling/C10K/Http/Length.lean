import C10K.Http.Page

/-!
# The length of the page

`html_answer` prints one byte less behind `Content-Length: ` than the page has that it sends. The
rest of the answer is what it should be.
-/

namespace C10K

open Scan

variable {mem : List UInt8} {str strLen : ℕ} {headers : List HttpHeader} {header : HttpHeader}

/-! ### Parsed headers hold strings -/

lemma mem_of_blitVector {n pos : ℕ} {v v' : Vector UInt8 n} {b : UInt8}
    (h : blitVector v pos [b] = some v') : b ∈ v'.toList := by
  unfold blitVector at h
  split_ifs at h
  cases h
  simp [Vector.toList]

/-- An accepted line leaves a string in either field. -/
lemma terminated_of_httpStrToHeader {dst : HttpHeader}
    (h : httpStrToHeader dst mem str strLen = some (0, header)) : Terminated header := by
  obtain ⟨_, keyStart, keyEnd, valStart, valEnd, hscanned⟩ := exists_scanned h
  rw [hscanned.httpStrToHeader_eq, storeParts] at h
  split_ifs at h
  · cases h
  · simp only [bind, Option.bind_eq_some_iff] at h
    obtain ⟨_, -, _, -, _, -, _, -, key, hkey, value, hvalue, h⟩ := h
    cases h
    exact ⟨mem_of_blitVector hkey, mem_of_blitVector hvalue⟩

/-- The loop over the lines keeps that the headers counted so far hold strings. -/
lemma terminated_of_httpStrToHeadersLoop {dstSize : ℤ} {fuel : ℕ} {dst dst' : List HttpHeader}
    {headerIndex headerStart headerEnd count : ℕ}
    (h : httpStrToHeadersLoop mem str strLen dstSize fuel dst headerIndex headerStart headerEnd =
      some (count, dst'))
    (hdst : ∀ header ∈ dst.take headerIndex, Terminated header) :
    ∀ header ∈ dst'.take count, Terminated header := by
  induction fuel generalizing dst headerIndex headerStart headerEnd with
  | zero => cases h
  | succ fuel ih =>
    rw [httpStrToHeadersLoop] at h
    split_ifs at h
    · simp only [bind, Option.bind_eq_some_iff] at h
      obtain ⟨old, hold, ⟨err, header⟩, hheader, start, -, next, -, h⟩ := h
      apply ih h
      have hlt : headerIndex < dst.length := (List.getElem?_eq_some_iff.mp hold).1
      intro x hx
      by_cases herr : err = 0
      · subst herr
        rw [if_pos rfl, List.take_add_one, List.take_set_of_le le_rfl, List.mem_append] at hx
        rcases hx with hx | hx
        · exact hdst x hx
        · have hxheader : x = header := by simpa [hlt, eq_comm] using hx
          exact hxheader ▸ terminated_of_httpStrToHeader hheader
      · rw [if_neg herr, List.take_set_of_le le_rfl] at hx
        exact hdst x hx
    · cases h
      exact hdst

/-- Every header that is parsed from received bytes holds strings. -/
lemma terminated_of_receivedHeaders {frame : AnswerFrame} {inBuf : List UInt8} {bytesRead : ℕ}
    (h : receivedHeaders frame inBuf bytesRead = some headers) :
    ∀ header ∈ headers, Terminated header := by
  simp only [receivedHeaders, httpStrToHeaders, bind, Option.bind_eq_some_iff, pure,
    Option.some.injEq] at h
  obtain ⟨firstReturn, -, headerEnd, -, ⟨count, dst⟩, ⟨lineEnd, -, hloop⟩, rfl⟩ := h
  apply terminated_of_httpStrToHeadersLoop hloop
  simp

/-! ### The number that is printed -/

/-- The body of the answer. -/
def pageBody (headers : List HttpHeader) : List UInt8 :=
  htmlPageBegin ++ items headers ++ htmlPageEnd

/-- The page for the headers behind a header block that an empty line ends, with the length of the
page behind `Content-Length: `. -/
def IsAnswer (headers : List HttpHeader) (sent : List UInt8) : Prop :=
  ∃ block, sent = block ++ emptyLine ++ pageBody headers ∧
    ∃ before after, block ++ emptyLine = before ++ bytesOf "Content-Length: " ++
      decimal (pageBody headers).length ++ carriageReturn :: after

lemma length_pageBody (headers : List HttpHeader) :
    (pageBody headers).length = (items headers).length + 102 := by
  simp only [pageBody, List.length_append, length_htmlPageBegin, length_htmlPageEnd]
  omega

/-- The answer is a header block with one byte less than the page has, and the page. -/
lemma answer_eq (headers : List HttpHeader) :
    answer headers = statusBlock ((pageBody headers).length - 1) ++ pageBody headers := by
  simp [answer, contentLength, pageBody, Nat.add_assoc]

/-- Text before the first occurrence of an element. -/
lemma left_eq_of_append_cons {α : Type*} {a : α} {l l' r r' : List α} (hl : a ∉ l) (hl' : a ∉ l')
    (h : l ++ a :: r = l' ++ a :: r') : l = l' := by
  classical
  have htake : ∀ {l r : List α}, a ∉ l → (l ++ a :: r).takeWhile (· ≠ a) = l := by
    intro l r hl
    rw [List.takeWhile_append_of_pos]
    · simp
    · intro x hx
      simpa using fun heq : x = a => hl (heq ▸ hx)
  rw [← htake hl, h, htake hl']

lemma not_mem_decimal {b : UInt8} (n : ℕ) (hb : b.toNat < 48 ∨ 57 < b.toNat) : b ∉ decimal n := by
  intro hmem
  have hrange := toNat_of_mem_decimal hmem
  omega

/-- The header block of an answer with some number before the blank line. -/
lemma statusBlock_eq (n : ℕ) : ∃ before after : List UInt8,
    statusBlock n = before ++ 76 :: (bytesOf "ength: " ++ decimal n ++ carriageReturn :: after) ∧
      (76 : UInt8) ∉ before ∧ (76 : UInt8) ∉ after := by
  refine ⟨bytesOf "HTTP/1.1 200 OK\r\nContent-Type: text/html\r\nContent-",
    bytesOf "\nConnection: close\r\n\r\n", ?_, ?_, ?_⟩
  · rw [statusBlock]
    have hfront : bytesOf "HTTP/1.1 200 OK\r\nContent-Type: text/html\r\nContent-Length: " =
        bytesOf "HTTP/1.1 200 OK\r\nContent-Type: text/html\r\nContent-" ++
          76 :: bytesOf "ength: " := by
      rw [bytesOf_ofList, bytesOf_ofList, bytesOf_ofList]
      rfl
    have hback : bytesOf "\r\nConnection: close\r\n\r\n" =
        carriageReturn :: bytesOf "\nConnection: close\r\n\r\n" := by
      rw [bytesOf_ofList, bytesOf_ofList]
      rfl
    rw [hfront, hback]
    simp
  · rw [bytesOf_ofList]
    decide
  · rw [bytesOf_ofList]
    decide

/-- A header block says one length. -/
lemma length_eq_of_statusBlock {m n : ℕ} {before after : List UInt8}
    (h : statusBlock n = before ++ bytesOf "Content-Length: " ++ decimal m ++
      carriageReturn :: after) : m = n := by
  obtain ⟨front, back, hblock, hfront, hback⟩ := statusBlock_eq n
  have hfield : bytesOf "Content-Length: " = bytesOf "Content-" ++ 76 :: bytesOf "ength: " := by
    rw [bytesOf_ofList, bytesOf_ofList, bytesOf_ofList]
    rfl
  have hmiddle : (76 : UInt8) ∉ bytesOf "ength: " ++ decimal n ++ carriageReturn :: back := by
    simp only [List.mem_append, List.mem_cons, not_or]
    refine ⟨⟨?_, not_mem_decimal n (by decide)⟩, by decide, hback⟩
    rw [bytesOf_ofList]
    decide
  have hsplit : front ++ 76 :: (bytesOf "ength: " ++ decimal n ++ carriageReturn :: back) =
      (before ++ bytesOf "Content-") ++
        76 :: (bytesOf "ength: " ++ decimal m ++ carriageReturn :: after) := by
    rw [← hblock, h, hfield]
    simp
  obtain ⟨-, -, hrest⟩ := (List.append_cons_inj_of_notMem hfront hmiddle).mp hsplit
  simp only [List.append_assoc, List.append_cancel_left_eq] at hrest
  have hcr : ∀ n, carriageReturn ∉ decimal n := fun n => not_mem_decimal n (by decide)
  exact decimal_injective (left_eq_of_append_cons (hcr m) (hcr n) hrest.symm)

/-- The answer does not say how long its page is. -/
lemma not_isAnswer (headers : List HttpHeader) : ¬ IsAnswer headers (answer headers) := by
  rintro ⟨block, hblock, before, after, hfield⟩
  rw [answer_eq, List.append_cancel_right_eq] at hblock
  have hlength := length_eq_of_statusBlock (hblock.trans hfield)
  have hbody := length_pageBody headers
  omega

/-- What is sent is the answer for the headers that were parsed. -/
lemma sent_eq_answer {frame : AnswerFrame} {received sent : List UInt8}
    (hlen : received.length ≤ 4095) (hsixth : received[5]? = some space)
    (hheaders : receivedHeaders frame (receivedBuf frame received) received.length = some headers)
    (hsent : htmlAnswer frame (some received) = some (some sent)) : sent = answer headers := by
  rw [htmlAnswer_eq hsixth (Nat.lt_succ_of_le hlen), hheaders, Option.bind_some,
    answerPage_eq (terminated_of_receivedHeaders hheaders)] at hsent
  split_ifs at hsent
  · cases hsent
    rfl
  · cases hsent

/-- Whatever headers are parsed from a request, the answer that is sent to it is a header block and
the page for the headers, and says one byte less than the page has. -/
theorem html_answer_length_wrong {frame : AnswerFrame} {received sent : List UInt8}
    (hlen : received.length ≤ 4095) (hsixth : received[5]? = some space)
    (hheaders : receivedHeaders frame (receivedBuf frame received) received.length = some headers)
    (hsent : htmlAnswer frame (some received) = some (some sent)) :
    sent = statusBlock ((pageBody headers).length - 1) ++ pageBody headers ∧
      ¬ IsAnswer headers sent := by
  obtain rfl := sent_eq_answer hlen hsixth hheaders hsent
  exact ⟨answer_eq headers, not_isAnswer headers⟩

/-- A request with one header. -/
def sampleRequest : List UInt8 := bytesOf "GET / HTTP/1.1\r\nk:v\r\n\r\n"

/-- It is answered. -/
lemma exists_answer : sampleRequest.length ≤ 4095 ∧ sampleRequest[5]? = some space ∧
    ∃ headers sent, receivedHeaders zeroFrame (receivedBuf zeroFrame sampleRequest)
        sampleRequest.length = some headers ∧
      htmlAnswer zeroFrame (some sampleRequest) = some (some sent) := by
  have hrequest : sampleRequest =
      request getLine [keyLine [118] (by decide) (by decide) (by decide)] := by decide +kernel
  have hlen : sampleRequest.length < bufferSize := by decide +kernel
  have hsixth : sampleRequest[5]? = some space := by decide +kernel
  obtain ⟨headers, hheaders, hpage⟩ := answerPage_received zeroFrame (by decide +kernel)
    (List.cons_ne_nil _ _) (hrequest ▸ hlen)
  rw [← hrequest] at hheaders
  obtain ⟨sent, hsent⟩ := hpage.mpr (by decide +kernel)
  refine ⟨Nat.le_of_lt_succ hlen, hsixth, headers, sent, hheaders, ?_⟩
  rw [htmlAnswer_eq hsixth hlen, hheaders, Option.bind_some, hsent, Option.map_some]

/-- The answer to that request. -/
theorem html_answer_length_wrong_one : ∃ headers sent,
    htmlAnswer zeroFrame (some sampleRequest) = some (some sent) ∧
      sent = statusBlock ((pageBody headers).length - 1) ++ pageBody headers ∧
      ¬ IsAnswer headers sent := by
  obtain ⟨hlen, hsixth, headers, sent, hheaders, hsent⟩ := exists_answer
  exact ⟨headers, sent, hsent, html_answer_length_wrong hlen hsixth hheaders hsent⟩

/-- The answer to that request has a page of 115 bytes and says 114. -/
theorem html_answer_length_short : ¬ ∀ (frame : AnswerFrame) (received : List UInt8),
    received.length ≤ 4095 → received[5]? = some space → ∀ headers,
      receivedHeaders frame (receivedBuf frame received) received.length = some headers →
      ∀ sent, htmlAnswer frame (some received) = some (some sent) → IsAnswer headers sent := by
  intro hall
  obtain ⟨hlen, hsixth, headers, sent, hheaders, hsent⟩ := exists_answer
  have hanswer := hall zeroFrame sampleRequest hlen hsixth headers hheaders sent hsent
  rw [sent_eq_answer hlen hsixth hheaders hsent] at hanswer
  exact not_isAnswer headers hanswer

end C10K
