import C10K.Http.Section
import C10K.Lib.CString
import C10K.Lib.Text

/-!
# The page server: `html_answer`

The request is received into `in_buf`, its headers are parsed, and each of them becomes an item of
the list on the page that is sent back. The items are collected in `in_buf` and the answer in
`out_buf`. A result is `none` where the C code reads or writes outside one of its arrays.
-/

namespace C10K

open Scan

def bufferSize : ℕ := 4096
def headerBufferSize : ℕ := 48
def responseSize : ℕ := 128

/-- The local arrays of `html_answer`, with whatever they hold when it is called. -/
structure AnswerFrame where
  inBuf : Vector UInt8 bufferSize
  outBuf : Vector UInt8 bufferSize
  headerBuffer : Vector HttpHeader headerBufferSize
  response : Vector UInt8 responseSize

def notFound : List UInt8 := bytesOf "HTTP/1.1 404 Not Found\r\nConnection: close"

def htmlPageBegin : List UInt8 := bytesOf
  "<!DOCTYPE html><html><h1>Welcome Sverre!</h1><p>These are the headers you sent me:</p><ul>"

def htmlPageEnd : List UInt8 := bytesOf "</ul></html>"

/-- The status line and the headers of the answer. -/
def statusBlock (contentLength : ℕ) : List UInt8 :=
  bytesOf "HTTP/1.1 200 OK\r\nContent-Type: text/html\r\nContent-Length: " ++
    decimal contentLength ++ bytesOf "\r\nConnection: close\r\n\r\n"

def liBegin : List UInt8 := bytesOf "<li>"
def liEnd : List UInt8 := bytesOf "</li>"

/-! ### The request -/

/-- The loop that scans to the end of the headers. Each round but the last one passes a byte of
the request, so that `bytes_read + 1` rounds are enough. -/
def scanHeaderEnd (inBuf : List UInt8) (bytesRead : ℕ) : ℕ → ℕ → Option ℕ
  | 0, _ => none
  | fuel + 1, headerEnd =>
    if headerEnd < bytesRead then do
      let headerEnd ← upFrom (fun i b => b ≠ carriageReturn ∧ i < bytesRead) inBuf headerEnd
      let b₁ ← inBuf[headerEnd + 1]?
      let b₂ ← inBuf[headerEnd + 2]?
      let b₃ ← inBuf[headerEnd + 3]?
      if b₁ = lineFeed ∧ b₂ = carriageReturn ∧ b₃ = lineFeed then return headerEnd
      scanHeaderEnd inBuf bytesRead fuel (headerEnd + 2)
    else some headerEnd

/-- The headers that are parsed from the received bytes. -/
def receivedHeaders (frame : AnswerFrame) (inBuf : List UInt8) (bytesRead : ℕ) :
    Option (List HttpHeader) := do
  let firstReturn ← upFrom (fun _ b => b ≠ carriageReturn) inBuf 0
  let headerStart := firstReturn + 2
  let headerEnd ← scanHeaderEnd inBuf bytesRead (bytesRead + 1) headerStart
  let (headerCount, headerBuffer) ← httpStrToHeaders frame.headerBuffer.toList headerBufferSize
    inBuf headerStart (headerEnd - headerStart)
  return headerBuffer.take headerCount

/-! ### The answer -/

/-- One round of the loop over the headers: an item is written to `out_buf` and appended to
`in_buf`. -/
def addItem (bufs : List UInt8 × List UInt8) (header : HttpHeader) :
    Option (List UInt8 × List UInt8) := do
  let outBuf ← strcpy bufs.2 liBegin
  let (_, rest) ← httpHeaderToStr (outBuf.drop 4) header (bufferSize - 4)
  let outBuf ← strncat (outBuf.take 4 ++ rest) (liEnd ++ [0]) 6
  let len ← strlen outBuf
  let inBuf ← strncat bufs.1 outBuf len
  return (inBuf, outBuf)

/-- The bytes that are sent for some headers. -/
def answerPage (frame : AnswerFrame) (headers : List HttpHeader) : Option (List UInt8) := do
  -- `memset(in_buf, 0, BUFFER_SIZE)`
  let (inBuf, outBuf) ← headers.foldlM addItem
    (List.replicate bufferSize 0, frame.outBuf.toList)
  let htmlPageHeadersLen ← strlen inBuf
  let response ← strcpy frame.response.toList
    (statusBlock (htmlPageBegin.length + htmlPageHeadersLen + htmlPageEnd.length - 1))
  let responseLen ← strlen response
  let outBuf ← strcpy outBuf (response.take responseLen)
  let outBuf ← strncat outBuf (htmlPageBegin ++ [0]) htmlPageBegin.length
  let outBuf ← strncat outBuf inBuf htmlPageHeadersLen
  let outBuf ← strncat outBuf (htmlPageEnd ++ [0]) htmlPageEnd.length
  let len ← strlen outBuf
  return outBuf.take len

/-- What `html_answer` sends, if anything, when `recv` returns these bytes, or an error. -/
def htmlAnswer (frame : AnswerFrame) (received : Option (List UInt8)) :
    Option (Option (List UInt8)) := do
  -- on an error, `in_buf[-1]` is written
  let request ← received
  let inBuf ← blit frame.inBuf.toList 0 request
  let inBuf ← blit inBuf request.length [0]
  if request.length = 0 then return none
  let sixth ← inBuf[5]?
  if sixth ≠ space then
    let outBuf ← strcpy frame.outBuf.toList notFound
    let len ← strlen outBuf
    return some (outBuf.take len)
  let headers ← receivedHeaders frame inBuf request.length
  let sent ← answerPage frame headers
  return some sent

end C10K
