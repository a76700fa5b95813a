import C10K.Http.Request
import C10K.Http.RoundTrip

/-!
# The size of the answer

Nothing checks the running total while the items are collected in `in_buf` and the answer in
`out_buf`. The writes stay inside the buffers exactly when the whole answer, with its NUL, fits
into one of them.
-/

namespace C10K

open Scan

variable {d inBuf outBuf key value l r : List UInt8} {header : HttpHeader}
variable {headers : List HttpHeader} {lines : List HeaderLine} {frame : AnswerFrame}

/-! ### Strings and items -/

/-- The string at the start of some bytes. -/
def cString (bytes : List UInt8) : List UInt8 := bytes.takeWhile (· ≠ 0)

/-- Both fields of the header hold a string. -/
structure Terminated (header : HttpHeader) : Prop where
  key : 0 ∈ header.key.toList
  value : 0 ∈ header.value.toList

lemma isCString_cString {bytes : List UInt8} (h : 0 ∈ bytes) : IsCString bytes (cString bytes) :=
  isCString_takeWhile h

/-- The list item for a header. -/
def item (header : HttpHeader) : List UInt8 :=
  liBegin ++ (cString header.key.toList ++ [colonChar] ++ [space] ++
    cString header.value.toList) ++ liEnd

/-- The list items of a page. -/
def items (headers : List HttpHeader) : List UInt8 := headers.flatMap item

lemma length_liBegin : liBegin.length = 4 := by
  rw [liBegin, bytesOf_ofList]
  rfl

lemma length_liEnd : liEnd.length = 5 := by
  rw [liEnd, bytesOf_ofList]
  rfl

lemma nul_not_mem_liBegin : 0 ∉ liBegin := by
  rw [liBegin, bytesOf_ofList]
  decide

lemma nul_not_mem_liEnd : 0 ∉ liEnd := by
  rw [liEnd, bytesOf_ofList]
  decide

lemma length_item (header : HttpHeader) : (item header).length =
    (cString header.key.toList).length + (cString header.value.toList).length + 11 := by
  simp [item, length_liBegin, length_liEnd]
  omega

lemma nul_not_mem_cString (bytes : List UInt8) : 0 ∉ cString bytes :=
  fun hmem => by simpa using List.mem_takeWhile_imp hmem

lemma nul_not_mem_item (header : HttpHeader) : 0 ∉ item header := by
  simp [item, nul_not_mem_liBegin, nul_not_mem_liEnd, nul_not_mem_cString, colonChar, space]

lemma length_cString_lt {n : ℕ} {v : Vector UInt8 n} (h : 0 ∈ v.toList) :
    (cString v.toList).length < n := by
  simpa using (isCString_cString h).length_lt

/-! ### Collecting the items -/

/-- What `http_header_to_str` prints for the header. -/
def printed (header : HttpHeader) : List UInt8 :=
  cString header.key.toList ++ [colonChar] ++ [space] ++ cString header.value.toList

lemma item_eq (header : HttpHeader) : item header = liBegin ++ printed header ++ liEnd := rfl

lemma length_printed_lt (hheader : Terminated header) : (printed header).length < 129 := by
  have hkey : (cString header.key.toList).length < 64 := length_cString_lt hheader.key
  have hvalue : (cString header.value.toList).length < 64 := length_cString_lt hheader.value
  simp [printed]
  omega

/-- `http_header_to_str(&out_buf[4], ..)` -/
lemma httpHeaderToStr_item (hheader : Terminated header) (hbuf : bufferSize - 4 ≤ l.length) :
    ∃ rest, httpHeaderToStr l header (bufferSize - 4) =
        some (none, printed header ++ 0 :: rest) ∧
      (printed header ++ 0 :: rest).length = l.length := by
  have hlt := length_printed_lt hheader
  have hmax : (cString header.key.toList).length + (cString header.value.toList).length + 3 ≤
      bufferSize - 4 := by
    simp only [printed, List.length_append, List.length_singleton] at hlt
    simp only [bufferSize]
    omega
  have hprint := httpHeaderToStr_spec (isCString_cString hheader.key)
    (isCString_cString hheader.value) hmax hbuf
  rw [List.append_assoc (_ ++ _), List.singleton_append] at hprint
  refine ⟨_, hprint, ?_⟩
  simp only [bufferSize] at hbuf
  simp only [printed, List.length_append, List.length_singleton] at hlt
  simp [printed]
  omega

/-- The three calls that write the item for a header to `out_buf`. -/
lemma addItem_out (hout : outBuf.length = bufferSize) (hheader : Terminated header) :
    ∃ outBuf', IsCString outBuf' (item header) ∧ outBuf'.length = bufferSize ∧
      ∀ inBuf, addItem (inBuf, outBuf) header =
        (strncat inBuf outBuf' (item header).length).map fun inBuf => (inBuf, outBuf') := by
  have hlt := length_printed_lt hheader
  have hsize : bufferSize = 4096 := rfl
  -- `strcpy(out_buf, "<li>")`
  have hstrcpy := strcpy_eq outBuf liBegin
  rw [if_pos (by rw [length_liBegin]; omega)] at hstrcpy
  generalize hrest : outBuf.drop (liBegin.length + 1) = rest at hstrcpy
  have hrestlen : rest.length = bufferSize - 5 := by
    rw [← hrest, List.length_drop, hout, length_liBegin]
  have hdrop : (liBegin ++ 0 :: rest).drop 4 = 0 :: rest := by
    rw [← length_liBegin, List.drop_left]
  have htake : (liBegin ++ 0 :: rest).take 4 = liBegin := by
    rw [← length_liBegin, List.take_left]
  obtain ⟨rest', hprint, hprintlen⟩ := httpHeaderToStr_item (l := 0 :: rest) hheader
    (by rw [List.length_cons, hrestlen]; omega)
  -- `strncat(out_buf, "</li>", 6)`
  have hnul : 0 ∉ liBegin ++ printed header := by
    simp [printed, nul_not_mem_liBegin, nul_not_mem_cString, colonChar, space]
  have hstring : IsCString (liBegin ++ (printed header ++ 0 :: rest'))
      (liBegin ++ printed header) := ⟨hnul, rest', by simp⟩
  have hlen : (liBegin ++ (printed header ++ 0 :: rest')).length = bufferSize := by
    rw [List.length_append, hprintlen, List.length_cons, hrestlen, length_liBegin]
    omega
  obtain ⟨outBuf', hcat, hitem, hlen'⟩ := strncat_holds hstring
    (isCString_append nul_not_mem_liEnd []) (n := 6) (by rw [length_liEnd]; omega)
    (by rw [hlen, List.length_append, length_liBegin, length_liEnd]; omega)
  rw [← item_eq] at hitem
  refine ⟨outBuf', hitem, hlen'.trans hlen, fun inBuf => ?_⟩
  simp only [addItem, hstrcpy, hdrop, htake, hprint, hcat, hitem.strlen_eq, Option.bind_eq_bind,
    Option.bind_some, Option.map_eq_bind]
  rfl

/-- One round of the loop over the headers, on the string `d` in `in_buf`. -/
lemma addItem_eq (hd : IsCString inBuf d) (hout : outBuf.length = bufferSize)
    (hheader : Terminated header) :
    ∃ outBuf', outBuf'.length = bufferSize ∧ addItem (inBuf, outBuf) header =
      if d.length + (item header).length + 1 ≤ inBuf.length then
        some (d ++ item header ++ 0 :: inBuf.drop (d.length + (item header).length + 1), outBuf')
      else none := by
  obtain ⟨outBuf', hitem, hlen, hadd⟩ := addItem_out hout hheader
  refine ⟨outBuf', hlen, ?_⟩
  rw [hadd, strncat_eq hd hitem le_rfl]
  split_ifs
  · rfl
  · rfl

/-- What the loop over the headers leaves: the old string and the items in `in_buf`. -/
structure Collected (d : List UInt8) (bufs : List UInt8 × List UInt8) : Prop where
  string : IsCString bufs.1 d
  inLength : bufs.1.length = bufferSize
  outLength : bufs.2.length = bufferSize

/-- The items are collected if they fit into `in_buf`. -/
lemma foldlM_addItem {bufs : List UInt8 × List UInt8} (h : Collected d bufs)
    (hheaders : ∀ header ∈ headers, Terminated header) :
    if d.length + (items headers).length + 1 ≤ bufferSize then
      ∃ bufs', headers.foldlM addItem bufs = some bufs' ∧ Collected (d ++ items headers) bufs'
    else headers.foldlM addItem bufs = none := by
  induction headers generalizing d bufs with
  | nil =>
    have hlt := h.string.length_lt
    rw [h.inLength] at hlt
    rw [if_pos (by simpa [items] using hlt)]
    exact ⟨bufs, rfl, by simpa [items] using h⟩
  | cons header headers ih =>
    obtain ⟨outBuf', hout, hadd⟩ := addItem_eq h.string h.outLength
      (hheaders header List.mem_cons_self)
    rw [h.inLength] at hadd
    have hitems : (items (header :: headers)).length =
        (item header).length + (items headers).length := by simp [items]
    rw [List.foldlM_cons, hadd]
    by_cases hfits : d.length + (item header).length + 1 ≤ bufferSize
    · rw [if_pos hfits] at hadd ⊢
      have hstep : Collected (d ++ item header) (d ++ item header ++
          0 :: bufs.1.drop (d.length + (item header).length + 1), outBuf') := by
        refine ⟨isCString_append ?_ _, ?_, hout⟩
        · rw [List.mem_append, not_or]
          exact ⟨h.string.1, nul_not_mem_item header⟩
        · simp [h.inLength]
          omega
      have hrest := ih hstep fun x hx => hheaders x (List.mem_cons_of_mem header hx)
      have hd : d ++ item header ++ items headers = d ++ items (header :: headers) := by
        simp [items]
      rw [List.length_append, Nat.add_assoc d.length, ← hitems, hd] at hrest
      exact hrest
    · rw [if_neg hfits, if_neg (by omega)]
      rfl

/-! ### The answer -/

/-- The number behind `Content-Length: `. -/
def contentLength (headers : List HttpHeader) : ℕ :=
  htmlPageBegin.length + (items headers).length + htmlPageEnd.length - 1

/-- The whole answer for some headers. -/
def answer (headers : List HttpHeader) : List UInt8 :=
  statusBlock (contentLength headers) ++ htmlPageBegin ++ items headers ++ htmlPageEnd

lemma length_htmlPageBegin : htmlPageBegin.length = 90 := by
  rw [htmlPageBegin, bytesOf_ofList]
  rfl

lemma length_htmlPageEnd : htmlPageEnd.length = 12 := by
  rw [htmlPageEnd, bytesOf_ofList]
  rfl

lemma nul_not_mem_htmlPageBegin : 0 ∉ htmlPageBegin := by
  rw [htmlPageBegin, bytesOf_ofList]
  decide

lemma nul_not_mem_htmlPageEnd : 0 ∉ htmlPageEnd := by
  rw [htmlPageEnd, bytesOf_ofList]
  decide

lemma nul_not_mem_decimal (n : ℕ) : 0 ∉ decimal n := fun hmem =>
  absurd (toNat_of_mem_decimal hmem).1 (by decide)

lemma nul_not_mem_statusBlock (n : ℕ) : 0 ∉ statusBlock n := by
  rw [statusBlock, bytesOf_ofList, bytesOf_ofList]
  simp only [List.mem_append, nul_not_mem_decimal, or_false]
  decide

lemma length_statusBlock (n : ℕ) : (statusBlock n).length = (decimal n).length + 81 := by
  rw [statusBlock, bytesOf_ofList, bytesOf_ofList, List.length_append, List.length_append]
  simp only [List.length_map, List.length_cons, List.length_nil]
  omega

/-- The status block of a page of at most five digits. -/
lemma length_statusBlock_le {n : ℕ} (h : n < 10 ^ 5) : (statusBlock n).length ≤ 86 := by
  have hdigits := Nat.toDigits_length 10 n 5 (by decide) h
  rw [length_statusBlock, decimal, List.length_map]
  omega

/-- The answer is written if all of it and its NUL fit into `out_buf`. -/
theorem answerPage_eq (hheaders : ∀ header ∈ headers, Terminated header) :
    answerPage frame headers =
      if (answer headers).length + 1 ≤ bufferSize then some (answer headers) else none := by
  have hlength : (answer headers).length = (statusBlock (contentLength headers)).length +
      htmlPageBegin.length + (items headers).length + htmlPageEnd.length := by
    simp only [answer, List.length_append]
  have hzero : Collected [] (List.replicate bufferSize 0, frame.outBuf.toList) :=
    ⟨⟨by simp, _, List.replicate_succ⟩, by simp, by simp⟩
  have hfold := foldlM_addItem hzero hheaders
  simp only [List.length_nil, List.nil_append, Nat.zero_add] at hfold
  by_cases hitems : (items headers).length + 1 ≤ bufferSize
  · rw [if_pos hitems] at hfold
    obtain ⟨⟨inBuf, outBuf⟩, hrun, hin, hinlen, hout⟩ := hfold
    dsimp only at hin hinlen hout
    have hcontent : htmlPageBegin.length + (items headers).length + htmlPageEnd.length - 1 =
        contentLength headers := rfl
    have hsmall : contentLength headers < 10 ^ 5 := by
      simp only [contentLength, length_htmlPageBegin, length_htmlPageEnd]
      simp only [bufferSize] at hitems
      omega
    have hblock := length_statusBlock_le hsmall
    have hnul := nul_not_mem_statusBlock (contentLength headers)
    have hbegin : IsCString (htmlPageBegin ++ [0]) htmlPageBegin :=
      isCString_append nul_not_mem_htmlPageBegin []
    have hend : IsCString (htmlPageEnd ++ [0]) htmlPageEnd :=
      isCString_append nul_not_mem_htmlPageEnd []
    simp only [length_htmlPageBegin, length_htmlPageEnd] at hlength
    obtain ⟨response, hresponse, hblockstring, -⟩ := strcpy_holds frame.response.toList hnul
      (by rw [Vector.length_toList]; simp only [responseSize]; omega)
    obtain ⟨out₁, hout₁, hstring₁, hlen₁⟩ := strcpy_holds outBuf hnul
      (by rw [hout]; simp only [bufferSize]; omega)
    obtain ⟨out₂, hout₂, hstring₂, hlen₂⟩ := strncat_holds hstring₁ hbegin le_rfl
      (by rw [hlen₁, hout, length_htmlPageBegin]; simp only [bufferSize]; omega)
    have hlen₂ : out₂.length = bufferSize := hlen₂.trans (hlen₁.trans hout)
    simp only [answerPage, hrun, Option.bind_eq_bind, Option.bind_some, hin.strlen_eq, hcontent,
      hresponse, hblockstring.strlen_eq, hblockstring.take_eq, hout₁, hout₂]
    -- `strncat(out_buf, in_buf, strlen(in_buf))`
    have hprefix : (statusBlock (contentLength headers) ++ htmlPageBegin).length =
        (statusBlock (contentLength headers)).length + 90 := by
      rw [List.length_append, length_htmlPageBegin]
    by_cases hthird : (statusBlock (contentLength headers) ++ htmlPageBegin).length +
        (items headers).length + 1 ≤ out₂.length
    · obtain ⟨out₃, hout₃, hstring₃, hlen₃⟩ := strncat_holds hstring₂ hin le_rfl hthird
      rw [hout₃, Option.bind_some]
      -- `strncat(out_buf, html_page_end, strlen(html_page_end))`
      have hprefix' : (statusBlock (contentLength headers) ++ htmlPageBegin ++
          items headers).length = (statusBlock (contentLength headers) ++ htmlPageBegin).length +
            (items headers).length := List.length_append
      by_cases hfourth : (answer headers).length + 1 ≤ bufferSize
      · obtain ⟨out₄, hout₄, hstring₄, -⟩ := strncat_holds hstring₃ hend le_rfl
          (by rw [length_htmlPageEnd]; omega)
        rw [if_pos hfourth, hout₄, Option.bind_some, hstring₄.strlen_eq, Option.bind_some,
          hstring₄.take_eq]
        rfl
      · rw [if_neg hfourth, strncat_eq_none hstring₃ hend le_rfl
          (by rw [length_htmlPageEnd]; omega), Option.bind_none]
    · rw [if_neg (by omega), strncat_eq_none hstring₂ hin le_rfl (by omega), Option.bind_none]
  · rw [if_neg hitems] at hfold
    rw [if_neg (by omega)]
    simp [answerPage, hfold]

/-! ### The answer to a request -/

/-- The lengths of the items for the lines that fit, as many as the array of headers takes. -/
def itemsLength (lines : List HeaderLine) : ℕ :=
  (((lines.filter fun line => line.Fits).take headerBufferSize).map fun line =>
    (cString line.key).length + (cString line.value).length + 11).sum

/-- The length of the answer to a request with these lines. -/
def answerLength (lines : List HeaderLine) : ℕ :=
  (statusBlock (htmlPageBegin.length + itemsLength lines + htmlPageEnd.length - 1)).length +
    htmlPageBegin.length + itemsLength lines + htmlPageEnd.length

lemma cString_append (s rest : List UInt8) : cString (s ++ 0 :: rest) = cString s := by
  induction s with
  | nil => simp [cString]
  | cons b s ih =>
    by_cases hb : b = 0
    · simp [cString, hb]
    · simpa [cString, hb] using ih

/-- The items of headers that hold some lines. -/
lemma length_items_of_storedIn (h : List.Forall₂ HeaderLine.StoredIn lines headers) :
    (items headers).length = (lines.map fun line =>
        (cString line.key).length + (cString line.value).length + 11).sum ∧
      ∀ header ∈ headers, Terminated header := by
  induction h with
  | nil => exact ⟨rfl, nofun⟩
  | cons hstored _ ih =>
    obtain ⟨hlength, hterminated⟩ := ih
    obtain ⟨⟨keyRest, hkey⟩, valRest, hval⟩ := hstored
    constructor
    · have hitem := length_item ‹HttpHeader›
      rw [hkey, hval, cString_append, cString_append] at hitem
      rw [items, List.flatMap_cons, List.length_append, hitem, List.map_cons, List.sum_cons]
      rw [← hlength, items]
    · intro header hmem
      rcases List.mem_cons.mp hmem with rfl | hmem
      · exact ⟨by simp [hkey], by simp [hval]⟩
      · exact hterminated header hmem

variable {reqLine : List UInt8}

/-- The page for the headers of a request is written if the answer and its NUL fit. -/
lemma answerPage_received (frame : AnswerFrame) (hcr : carriageReturn ∉ reqLine) (hne : lines ≠ [])
    (hlen : (request reqLine lines).length < bufferSize) :
    ∃ headers, receivedHeaders frame (receivedBuf frame (request reqLine lines))
        (request reqLine lines).length = some headers ∧
      ((∃ sent, answerPage frame headers = some sent) ↔ answerLength lines < bufferSize) := by
  simp only [bufferSize] at hlen
  have hdst : headerBufferSize ≤ frame.headerBuffer.toList.length := by simp
  obtain ⟨-, hstored, -⟩ := storedIn_storing lines hdst
  obtain ⟨hlength, hterminated⟩ := length_items_of_storedIn hstored
  refine ⟨_, receivedHeaders_eq hcr hne (by omega), ?_⟩
  rw [answerPage_eq hterminated]
  have hanswer : (answer ((writeHeaders ((storing lines).take headerBufferSize)
      frame.headerBuffer.toList).take ((storing lines).take headerBufferSize).length)).length =
        answerLength lines := by
    simp only [answer, contentLength, List.length_append, hlength]
    rfl
  rw [hanswer]
  constructor
  · rintro ⟨sent, hsent⟩
    by_contra hlong
    rw [if_neg (show ¬ answerLength lines + 1 ≤ bufferSize from hlong)] at hsent
    cases hsent
  · intro hfits
    exact ⟨_, if_pos hfits⟩

/-- After the bytes are received and the sixth of them is a space. -/
lemma htmlAnswer_eq {received : List UInt8} (hsixth : received[5]? = some space)
    (hlen : received.length < bufferSize) :
    htmlAnswer frame (some received) =
      (receivedHeaders frame (receivedBuf frame received) received.length).bind fun headers =>
        (answerPage frame headers).map some := by
  have hblit : blit frame.inBuf.toList 0 received =
      some (received ++ frame.inBuf.toList.drop received.length) := by
    rw [blit, if_pos (by simpa using hlen.le)]
    simp
  have hnul : blit (received ++ frame.inBuf.toList.drop received.length) received.length [0] =
      some (receivedBuf frame received) := by
    rw [blit, if_pos (by simp; omega)]
    simp [receivedBuf, List.drop_append]
  have hpos : 5 < received.length := (List.getElem?_eq_some_iff.mp hsixth).1
  have hget : (receivedBuf frame received)[5]? = some space := by
    rw [receivedBuf, List.getElem?_append_left hpos, hsixth]
  simp only [htmlAnswer, Option.bind_eq_bind, Option.bind_some, hblit, hnul, hget,
    if_neg (show received.length ≠ 0 by omega), if_neg (not_not_intro (Eq.refl space)),
    Option.map_eq_bind]
  rfl

/-- `GET / HTTP/1.1`. -/
def getLine : List UInt8 := bytesOf "GET / HTTP/1.1"

/-- Local arrays that hold zeros. -/
def zeroFrame : AnswerFrame :=
  let header : HttpHeader := ⟨Vector.replicate _ 0, Vector.replicate _ 0⟩
  ⟨Vector.replicate _ 0, Vector.replicate _ 0, Vector.replicate _ header, Vector.replicate _ 0⟩

end C10K
