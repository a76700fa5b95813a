import C10K.Calc.Exact

/-!
# The calculator over UDP

`srv_proc` calls `calc_request` until `recvfrom` fails. The buffer of the function over UDP is
larger than that of the function over TCP, but what is sent does not depend on it: the loop gives
each client the answer that it would have got over TCP.
-/

namespace C10K

open Scanf

variable {A : Type} {message text : List UInt8} {number1 number2 result : ℤ} {operator : UInt8}
variable {size : ℕ}

/-- The loop of `srv_proc` over the results of `recvfrom`, each with the address that it stored:
what is sent to which address, and whether the thread returned. -/
def CalcUdpSrv.srvProc : List (Option (A × List UInt8)) → Option (List (A × List UInt8) × Bool)
  | []                   => some ([], false)
  | received :: receives => do
    let (sent, status) ← calcRequest (received.map Prod.snd)
    let answer := (received.bind fun (client, _) => sent.map fun text => (client, text)).toList
    if status = -1 then return (answer, true)
    else do
      let (answers, returned) ← srvProc receives
      return (answer ++ answers, returned)

/-! ### The size of the buffer -/

/-- A text that fits into the smaller buffer is sent from a larger one as well. -/
lemma sendText_eq (htext : text.length < REQ_SIZE_MAX) (hsize : REQ_SIZE_MAX ≤ size) :
    sendText size text = sendText REQ_SIZE_MAX text := by
  rw [sendText, if_pos (htext.trans_le hsize), sendText, if_pos htext]

lemma length_termText_lt (h₁ : intMin ≤ number1 ∧ number1 ≤ intMax)
    (h₂ : intMin ≤ number2 ∧ number2 ≤ intMax) (h : intMin ≤ result ∧ result ≤ intMax) :
    (termText number1 operator number2 result).length < REQ_SIZE_MAX := by
  have hlen₁ := length_printInt_le h₁
  have hlen₂ := length_printInt_le h₂
  have hlen := length_printInt_le h
  have htext : (termText number1 operator number2 result).length =
      (printInt number1).length + (printInt number2).length + (printInt result).length + 7 := by
    rw [termText, bytesOf_ofList, bytesOf_ofList, bytesOf_ofList]
    simp
    omega
  rw [htext, REQ_SIZE_MAX]
  omega

/-- Only texts that fit into the smaller buffer are sent. -/
lemma calcMessage_eq (hlen : message.length ≤ 126) (hsize : REQ_SIZE_MAX ≤ size) :
    calcMessage size message = calcMessage REQ_SIZE_MAX message := by
  have hroom : message.length < REQ_SIZE_MAX := by
    rw [REQ_SIZE_MAX]
    omega
  unfold calcMessage
  cases message[0]? with
  | none => rfl
  | some command =>
    simp only [Option.bind_eq_bind, Option.bind_some, if_pos hroom, if_pos (hroom.trans_le hsize)]
    split_ifs
    · exact sendText_eq (by simp [unknownCommand, bytesOf, REQ_SIZE_MAX]) hsize
    · split
      · rename_i numBuf1 operator numBuf2 _
        cases h₁ : atoi numBuf1 with
        | none => rfl
        | some number1 =>
          cases h₂ : atoi numBuf2 with
          | none => rfl
          | some number2 =>
            simp only [Option.bind_some]
            cases hresult : evaluate operator number1 number2 with
            | none => rfl
            | some result =>
              exact sendText_eq (length_termText_lt (range_of_atoi h₁) (range_of_atoi h₂)
                (evaluate_spec hresult).1) hsize
      · exact sendText_eq (by decide) hsize
    · rfl

/-- A message is answered over UDP as over TCP. -/
lemma CalcUdpSrv.calcRequest_eq (w : World) (clientFd : Fd) (message : List UInt8) :
    calcRequest (some message) =
      (CalcSrv.calcRequest w clientFd (some message)).map fun (sent, _) => (sent, 0) := by
  simp only [calcRequest, CalcSrv.calcRequest]
  split_ifs with hlong hempty
  · rw [sendText_eq (by decide) (by decide), Option.map_map]
    rfl
  · rfl
  · rw [calcMessage_eq (by omega) (by decide), Option.map_map]
    rfl

/-- The answer over TCP to the message of a client. -/
def CalcSrv.answerTo (w : World) (clientFd : Fd) (received : A × List UInt8) :
    Option (List (A × List UInt8)) :=
  (calcRequest w clientFd (some received.2)).map fun (sent, _) =>
    (sent.map fun text => (received.1, text)).toList

/-- Whatever arrives and from wherever: the loop answers the datagrams that come before the first
error of `recvfrom`, in their order, and returns at the error. Each is answered to its sender, with
what the server over TCP sends for the same message; the loop is undefined where that is undefined
for one of them. -/
theorem udp_server_answers_as_tcp (w : World) (clientFd : Fd)
    (receives : List (Option (A × List UInt8))) : CalcUdpSrv.srvProc receives =
      ((receives.takeWhile Option.isSome).reduceOption.mapM (CalcSrv.answerTo w clientFd)).map
        fun answers => (answers.flatten, receives.any Option.isNone) := by
  induction receives with
  | nil => rfl
  | cons received receives ih =>
    cases received with
    | none => rfl
    | some datagram =>
      obtain ⟨client, message⟩ := datagram
      rw [CalcUdpSrv.srvProc, Option.map_some, CalcUdpSrv.calcRequest_eq w clientFd, ih]
      rw [List.takeWhile_cons_of_pos rfl, List.reduceOption_cons_of_some, List.mapM_cons,
        CalcSrv.answerTo]
      cases CalcSrv.calcRequest w clientFd (some message) with
      | none => rfl
      | some answer =>
        cases (receives.takeWhile Option.isSome).reduceOption.mapM
          (CalcSrv.answerTo w clientFd) with
        | none => rfl
        | some answers => rfl

end C10K
