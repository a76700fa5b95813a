import C10K.Endpoint.Basic
import C10K.Lib.Scanf
import C10K.Lib.Text

/-!
# The calculators: `calc_request`

A client sends `c` and a term of two numbers, and gets the term back with its value. The function
over TCP and the one over UDP treat a message alike; `calcMessage` is the part that they share. A
result is `none` where an operation on `int`s is undefined, or where a text does not fit into the
array that it is written to.
-/

namespace C10K

open Scanf

def REQ_SIZE_MAX : ℕ := 128
def MAX_UDP_PAYLOAD_SIZE : ℕ := 508

/-- The byte `'c'`. -/
def calcCommand : UInt8 := 99

/-- The operators `'+'`, `'-'`, `'*'` and `'/'`. -/
def plus : UInt8 := 43
def minus : UInt8 := 45
def times : UInt8 := 42
def slash : UInt8 := 47

/-! ### The texts -/

/-- What `%d` prints. -/
def printInt (z : ℤ) : List UInt8 := if z < 0 then minus :: decimal z.natAbs else decimal z.natAbs

def requestTooLong : List UInt8 := bytesOf "Request too long. Goodbye\n"

def unknownCommand (command : UInt8) : List UInt8 :=
  bytesOf "Unknown command: " ++ [command] ++ bytesOf "\n"

def failedFormat : List UInt8 := bytesOf "Failed to read input format.\n"

/-- `"%d %c %d = %d\n"` -/
def termText (number1 : ℤ) (operator : UInt8) (number2 result : ℤ) : List UInt8 :=
  printInt number1 ++ bytesOf " " ++ [operator] ++ bytesOf " " ++ printInt number2 ++
    bytesOf " = " ++ printInt result ++ bytesOf "\n"

/-- Print a text and a NUL into a buffer of some size, and send the string that the buffer holds. -/
def sendText (size : ℕ) (text : List UInt8) : Option (List UInt8) :=
  if text.length < size then some (text.takeWhile (· ≠ 0)) else none

/-! ### The functions -/

/-- `"%c %s %c %s"` -/
def calcFormat : List Directive := [.char, .blank, .string, .blank, .char, .blank, .string]

/-- The `switch` over the operator. -/
def evaluate (operator : UInt8) (number1 number2 : ℤ) : Option ℤ :=
  if operator = plus then toInt (number1 + number2)
  else if operator = minus then toInt (number1 - number2)
  else if operator = times then toInt (number1 * number2)
  else if operator = slash then intDiv number1 number2
  else some 0

/-- What is sent for a message of 1 to 126 bytes, where `buffer` has the given size. -/
def calcMessage (size : ℕ) (message : List UInt8) : Option (List UInt8) := do
  let command ← message[0]?
  if command ≠ calcCommand then sendText size (unknownCommand command)
  -- `buffer[bytes_received] = '\0'`
  else if message.length < size then
    let read := sscanf calcFormat (message ++ [0])
    -- `num_buf_1` and `num_buf_2`
    if ∀ field ∈ read, field.Fits REQ_SIZE_MAX then
      match read with
      | [.char _, .string numBuf1, .char operator, .string numBuf2] => do
        let number1 ← atoi numBuf1
        let number2 ← atoi numBuf2
        let result ← evaluate operator number1 number2
        sendText size (termText number1 operator number2 result)
      | _ => sendText size failedFormat
    else none
  else none

/-- `calc_request` over TCP, where `recv` returns these bytes or an error: what it sends, if
anything, and the world with the global endpoint. -/
def CalcSrv.calcRequest (w : World) (clientFd : Fd) (received : Option (List UInt8)) :
    Option (Option (List UInt8) × World) :=
  match received with
  | none => some (none, w)
  | some message =>
    if 127 ≤ message.length then
      (sendText REQ_SIZE_MAX requestTooLong).map fun sent =>
        (some sent, endpointDisconnectClient w clientFd)
    else if message.length = 0 then some (none, w)
    else (calcMessage REQ_SIZE_MAX message).map fun sent => (some sent, w)

/-- `calc_request` over UDP, where `recvfrom` returns these bytes or an error: what it sends, if
anything, and what it returns. -/
def CalcUdpSrv.calcRequest (received : Option (List UInt8)) : Option (Option (List UInt8) × ℤ) :=
  match received with
  | none => some (none, -1)
  | some message =>
    if 127 ≤ message.length then
      (sendText MAX_UDP_PAYLOAD_SIZE requestTooLong).map fun sent => (some sent, 0)
    else if message.length = 0 then some (none, 0)
    else (calcMessage MAX_UDP_PAYLOAD_SIZE message).map fun sent => (some sent, 0)

/-! ### Texts fit and hold no NUL -/

variable {operator : UInt8} {number1 number2 result : ℤ} {size : ℕ}

lemma length_printInt_le {z : ℤ} (h : intMin ≤ z ∧ z ≤ intMax) : (printInt z).length ≤ 11 := by
  simp only [intMin, intMax] at h
  have hdigits := Nat.toDigits_length 10 z.natAbs 10 (by decide) (by omega)
  have hdecimal : (decimal z.natAbs).length ≤ 10 := by rwa [decimal, List.length_map]
  rw [printInt]
  split_ifs
  · exact Nat.succ_le_succ hdecimal
  · exact hdecimal.trans (Nat.le_succ 10)

lemma nul_not_mem_printInt (z : ℤ) : 0 ∉ printInt z := by
  have hdecimal : 0 ∉ decimal z.natAbs := fun hmem =>
    absurd (toNat_of_mem_decimal hmem).1 (by decide)
  rw [printInt]
  split_ifs
  · exact List.not_mem_cons_of_ne_of_not_mem (by decide) hdecimal
  · exact hdecimal

/-- A term of `int`s is sent as it is printed. -/
lemma sendText_termText (h₁ : intMin ≤ number1 ∧ number1 ≤ intMax)
    (h₂ : intMin ≤ number2 ∧ number2 ≤ intMax) (h : intMin ≤ result ∧ result ≤ intMax)
    (hoperator : operator ≠ 0) (hsize : REQ_SIZE_MAX ≤ size) :
    sendText size (termText number1 operator number2 result) =
      some (termText number1 operator number2 result) := by
  have hlen₁ := length_printInt_le h₁
  have hlen₂ := length_printInt_le h₂
  have hlen := length_printInt_le h
  have hnul : 0 ∉ termText number1 operator number2 result := by
    rw [termText, bytesOf_ofList, bytesOf_ofList, bytesOf_ofList]
    simp [nul_not_mem_printInt, hoperator.symm]
  have hlength : (termText number1 operator number2 result).length =
      (printInt number1).length + (printInt number2).length + (printInt result).length + 7 := by
    rw [termText, bytesOf_ofList, bytesOf_ofList, bytesOf_ofList]
    simp
    omega
  simp only [REQ_SIZE_MAX] at hsize
  rw [sendText, if_pos (by omega), List.takeWhile_eq_self_iff.mpr]
  intro b hb
  simpa using fun heq : b = 0 => hnul (heq ▸ hb)

end C10K
