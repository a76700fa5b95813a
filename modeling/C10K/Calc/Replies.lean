import C10K.Calc.Server

/-!
# What the calculator answers

A worker keeps what it received until it sends the answer, and meanwhile other threads close
connections and accept new ones under the same numbers. What it sends is right for the message in
every run, and it goes to the connection of the message as long as this one is open.
-/

namespace C10K

variable {Q : Type} {n : ℕ}

lemma Server.keeps_of_rule {s s' : Server Q n} (h : s.Rule s') :
    s.world.kernel.Keeps s'.world.kernel := by
  cases h with
  | accept _ hk => exact .accept hk
  | lost _ hk =>
    obtain ⟨-, -, -, -, -, -, hfiles, -⟩ := Kernel.lose_spec hk
    exact .of_eq hfiles (Kernel.closed_lose hk)
  | acceptProc hrule =>
    cases hrule with
    | close => exact .close
    | epollAdd => exact .of_eq Kernel.files_epollAdd Kernel.closed_epollAdd
    | _ => exact .of_eq rfl rfl
  | other hworld =>
    rw [hworld]
    exact .of_eq rfl rfl
  | _ => exact .of_eq rfl rfl

/-! ### The answers -/

/-- The request that a worker is about to answer. -/
def RequestPc.pending : RequestPc → Option Request
  | .answer r | .goodbye r => some r
  | .outside | .deregister _ | .epollDel _ | .shutdown _ | .close _ => none

/-- `calc_request` sends this text for the message, whatever the endpoint is. -/
def Request.SentFor (r : Request) (text : List UInt8) : Prop :=
  ∀ w, (CalcSrv.calcRequest w r.fd (some r.message)).map Prod.fst = some (some text)

lemma Request.eq_of_pending_next {r r' : Request} (h : r.next.pending = some r') : r' = r := by
  unfold Request.next at h
  split_ifs at h
  · exact (Option.some.inj h).symm
  · cases h
  · exact (Option.some.inj h).symm

lemma Request.sentFor_answer {r : Request} {text : List UInt8} (hnext : r.next = .answer r)
    (htext : calcMessage REQ_SIZE_MAX r.message = some text) : r.SentFor text := by
  intro w
  unfold Request.next tooLong at hnext
  split_ifs at hnext with hlong hempty
  rw [decide_eq_true_iff] at hlong
  rw [CalcSrv.calcRequest, if_neg hlong, if_neg hempty, htext]
  rfl

lemma Request.sentFor_goodbye {r : Request} {text : List UInt8} (hnext : r.next = .goodbye r)
    (htext : sendText REQ_SIZE_MAX requestTooLong = some text) : r.SentFor text := by
  intro w
  unfold Request.next tooLong at hnext
  split_ifs at hnext with hlong
  rw [CalcSrv.calcRequest, if_pos (of_decide_eq_true hlong), htext]
  rfl

namespace CalcServer

variable {s s' : CalcServer Q n} {r : Request}

/-- The connection that the request came from is still under its number, or was closed. -/
def Traced (s : CalcServer Q n) (r : Request) : Prop :=
  ∃ c, r.file = some (.conn c) ∧
    (s.world.kernel.files r.fd = some (.conn c) ∨ c ∈ s.world.kernel.closedConns)

/-- The report with the ticket of the request was about its descriptor. -/
def Reported (s : CalcServer Q n) (r : Request) : Prop :=
  ∃ report, s.posted[r.ticket]? = some report ∧ report.client = r.fd

/-- A reply is what `calc_request` sends for the message, and it was sent to the connection that the
message came from unless this one was closed. -/
structure Right (s : CalcServer Q n) (reply : Reply) : Prop where
  reported : s.Reported reply.request
  traced : ∃ c, reply.request.file = some (.conn c) ∧
    (reply.file = some (.conn c) ∨ c ∈ s.world.kernel.closedConns)
  text : reply.request.SentFor reply.text

/-- What holds of the requests that the workers have, and of the replies. -/
structure Answers (s : CalcServer Q n) : Prop where
  pending : ∀ i r, (s.request i).pending = some r →
    s.request i = r.next ∧ s.Traced r ∧ s.Reported r
  replies : ∀ reply ∈ s.replies, s.Right reply

lemma Traced.keeps (h : s.Traced r) (hk : s.world.kernel.Keeps s'.world.kernel) : s'.Traced r := by
  obtain ⟨c, hc, hfd | hclosed⟩ := h
  · exact ⟨c, hc, hk.opened _ c hfd⟩
  · exact ⟨c, hc, .inr (hk.closed c hclosed)⟩

lemma Reported.grows (h : s.Reported r) (hposted : s.posted <+: s'.posted) : s'.Reported r := by
  obtain ⟨report, hreport, hclient⟩ := h
  obtain ⟨l, hl⟩ := hposted
  refine ⟨report, ?_, hclient⟩
  rw [← hl, List.getElem?_append_left (List.getElem?_eq_some_iff.mp hreport).1, hreport]

lemma Right.keeps {reply : Reply} (h : s.Right reply) (hk : s.world.kernel.Keeps s'.world.kernel)
    (hposted : s.posted <+: s'.posted) : s'.Right reply where
  reported := h.reported.grows hposted
  traced := by
    obtain ⟨c, hc, hfile⟩ := h.traced
    exact ⟨c, hc, hfile.imp id (hk.closed c)⟩
  text := h.text

/-- A request that a worker has is an old one or is new, and so is a reply. -/
lemma Answers.frame (h : s.Answers) (hk : s.world.kernel.Keeps s'.world.kernel)
    (hposted : s.posted <+: s'.posted)
    (hrequest : ∀ i r, (s'.request i).pending = some r → s'.request i = s.request i ∨
      s'.request i = r.next ∧ s'.Traced r ∧ s'.Reported r)
    (hreplies : ∀ reply ∈ s'.replies, reply ∈ s.replies ∨ s'.Right reply) : s'.Answers where
  pending i r hr := by
    rcases hrequest i r hr with heq | hnew
    · obtain ⟨hnext, htraced, hreported⟩ := h.pending i r (heq ▸ hr)
      exact ⟨heq.trans hnext, htraced.keeps hk, hreported.grows hposted⟩
    · exact hnew
  replies reply hreply := by
    rcases hreplies reply hreply with hold | hright
    · exact (h.replies reply hold).keeps hk hposted
    · exact hright

@[simp] lemma request_goTo {i j : Fin n} {pc : RequestPc} :
    (s.goTo i pc).request j = if j = i then pc else s.request j := by
  simp [goTo, Function.update_apply]

/-- A worker that moves on without a request leaves the requests of the others alone. -/
lemma request_goTo_of_pending {i j : Fin n} {pc : RequestPc} (hpc : pc.pending = none)
    (hr : ((s.goTo i pc).request j).pending = some r) :
    (s.goTo i pc).request j = s.request j := by
  rw [request_goTo] at hr ⊢
  by_cases hj : j = i
  · rw [if_pos hj, hpc] at hr
    cases hr
  · rw [if_neg hj]

/-- A worker answers the request that it has. -/
lemma Answers.sent (h : s.Answers) {i : Fin n} {pc : RequestPc} {text : List UInt8}
    (hpending : (s.request i).pending = some r) (hpc : pc.pending = none) (htext : r.SentFor text) :
    Answers { s.goTo i pc with
      replies := s.replies ++ [⟨r, s.world.kernel.files r.fd, text⟩] } := by
  obtain ⟨-, htraced, hreported⟩ := h.pending i r hpending
  refine h.frame (.of_eq rfl rfl) List.prefix_rfl
    (fun _ _ hr => .inl (request_goTo_of_pending hpc hr)) ?_
  intro reply hreply
  rcases List.mem_append.mp hreply with hold | hnew
  · exact .inl hold
  · obtain rfl := List.mem_singleton.mp hnew
    exact .inr ⟨hreported, htraced, htext⟩

/-- `calc_request` adds no entry. -/
lemma RequestRule.entry {i : Fin n} (h : s.RequestRule i s') (fd : Fd) (e : EpollEvent Fd)
    (he : s'.world.kernel.interest s'.world.endpoint.epSelector fd = some e) :
    s.world.kernel.interest s.world.endpoint.epSelector fd = some e := by
  cases h with
  | epollDel =>
    have he := Kernel.interest_epollDel.symm.trans he
    split_ifs at he
    exact he
  | close =>
    have he := Kernel.interest_close.symm.trans he
    split_ifs at he
    exact he
  | answer | goodbye | deregister | shutdown => exact he

/-- `calc_request` leaves the other threads where they are. -/
lemma RequestRule.frame {i : Fin n} (h : s.RequestRule i s') :
    ∃ world request replies, s' = { s with world, request, replies } := by
  cases h with
  | _ => exact ⟨_, _, _, rfl⟩

variable [FifoQueue Q Pointer] {k : Kernel Fd}

lemma keeps_of_rule (h : s.Rule s') : s.world.kernel.Keeps s'.world.kernel := by
  cases h with
  | server h => exact Server.keeps_of_rule (Server.Rule.of_step h)
  | request h =>
    cases h with
    | close => exact .close
    | _ => exact .of_eq rfl rfl
  | _ => exact .of_eq rfl rfl

lemma Answers.initial {w : World} : (initial w : CalcServer Q n).Answers where
  pending _ _ hr := by cases hr
  replies _ hreply := by cases hreply

/-! ### What the other threads keep -/

lemma posted_prefix (h : s.Rule s') : s.posted <+: s'.posted := by
  cases h with
  | server h =>
    cases Server.Turn.of_step h with
    | acceptProc h =>
      cases h with
      | _ => exact List.prefix_rfl
    | clientEventProcessor h =>
      cases h with
      | callPost => exact List.prefix_append ..
      | _ => exact List.prefix_rfl
    | _ => exact List.prefix_rfl
  | request h =>
    cases h with
    | _ => exact List.prefix_rfl
  | _ => exact List.prefix_rfl

/-- What holds at the start and after every rule holds until `main` returns. -/
lemma reachable_induct {P : CalcServer Q n → Prop} (h : (calcServerSystem Q n k).Reachable s)
    (hrun : s.returned = false)
    (hinit : k.Fresh → ∀ srvFd epListener epSelector shutdownFd w,
      endpointCreate k srvFd epListener epSelector shutdownFd = some w → P (initial w))
    (hstep : ∀ s s', (calcServerSystem Q n k).Reachable s → s.returned = false → P s →
      s.Rule s' → P s') : P s := by
  have hboth : (calcServerSystem Q n k).Reachable s ∧ (s.returned = false → P s) := by
    apply h.invariant (I := fun s => (calcServerSystem Q n k).Reachable s ∧
      (s.returned = false → P s))
    · rintro s ⟨hk, srvFd, epListener, epSelector, shutdownFd, w, hw, rfl⟩
      refine ⟨⟨_, [], ⟨hk, srvFd, epListener, epSelector, shutdownFd, w, hw, rfl⟩, .nil⟩, ?_⟩
      exact fun _ => hinit hk srvFd epListener epSelector shutdownFd w hw
    · rintro s a s' ⟨hs, hP⟩ ha
      refine ⟨hs.snoc ha, fun hrun => ?_⟩
      obtain ⟨hbefore, hrule⟩ := Rule.of_step ha hrun
      exact hstep s s' hs hbefore (hP hbefore) hrule
  exact hboth.2 hrun

/-- The labels, taken from the start in a new process, lead to a state of the calculator. -/
lemma reachable_of_exec {P : CalcServer Q n → Prop} [DecidablePred P]
    (acts : List (CalcServerAct n)) (h : ((endpointCreate .initial 3 4 5 6).bind fun w =>
      (calcServerSystem Q n .initial).exec (.initial w) acts).any (P ·) = true) :
    ∃ s, (calcServerSystem Q n .initial).Reachable s ∧ P s := by
  obtain ⟨s, hs, hP⟩ := (Option.any_eq_true ..).mp h
  obtain ⟨w, hw, hs⟩ := Option.bind_eq_some_iff.mp hs
  exact ⟨s, ⟨_, acts, ⟨⟨rfl, rfl⟩, 3, 4, 5, 6, w, hw, rfl⟩, LTS.run_of_exec hs⟩,
    of_decide_eq_true hP⟩

/-- The threads start, a client connects as 7, and a worker is called for its first message. -/
def serveFirst (i : Fin n) (events : BitVec 32) : List (CalcServerAct n) :=
  let accepts : List (ServerAct n) :=
    [.acceptProc, .acceptProc, .acceptProc, .arrive, .acceptWait EPOLLIN, .accept 0 (some 7),
      .acceptProc, .acceptProc, .eventWait (.event 7 events)]
  let enqueues : List (ServerAct n) :=
    if events &&& EPOLLRDHUP ≠ 0 then [.clientEventProcessor] else []
  let posts : List (ServerAct n) :=
    [.clientEventProcessor, .clientEventProcessor, .pool (.post (.client ())),
      .pool (.post (.client ())), .pool (.post (.client ())), .pool (.post (.client ())),
      .pool (.postSignal (.client ()) none)]
  let works : List (ServerAct n) := List.replicate 7 (.pool (.work i))
  let calls : List (ServerAct n) := [.pool (.workSignal i none), .pool (.work i)]
  (accepts ++ enqueues ++ posts ++ works ++ calls).map .server

variable [LawfulFifoQueue Q Pointer] {t : EventLoop Q n}

/-- The event loop follows every step. -/
lemma follows_of_rule (hF : s.toServer.Follows t) (h : s.Rule s') :
    s'.toServer.Follows t ∨ ∃ b t', t.step b = some t' ∧ s'.toServer.Follows t' := by
  cases h with
  | server h => exact hF.step h
  | test _ hpc =>
    left
    refine hF.stay (hF.nonneg.frame rfl rfl ?_) rfl rfl rfl rfl hF.pc
    intro fd hfd
    rcases hpc with rfl | rfl
    · rcases hfd with hfd | hfd <;> cases hfd
    · rcases hfd with hfd | hfd <;> cases hfd
  | recvNothing | recv =>
    exact .inl (hF.stay (hF.nonneg.frame rfl rfl fun _ => id) rfl rfl rfl rfl hF.pc)
  | request h =>
    left
    have hentry := h.entry
    obtain ⟨world, request, replies, rfl⟩ := h.frame
    refine hF.stay ⟨?_, hF.nonneg.registering⟩ rfl rfl rfl rfl hF.pc
    intro fd e he
    exact hF.nonneg.entry fd e (hentry fd e he)

/-- Until `main` returns, the run is one of the event loop, on the same pool. -/
lemma exists_follows (h : (calcServerSystem Q n k).Reachable s) (hrun : s.returned = false) :
    ∃ t, (eventLoopSystem Q n).Reachable t ∧ s.toServer.Follows t := by
  apply reachable_induct (P := fun s => ∃ t, (eventLoopSystem Q n).Reachable t ∧
    s.toServer.Follows t) h hrun
  · intro _ srvFd epListener epSelector shutdownFd w hw
    have hnonneg : (Server.initial w : Server Q n).Nonneg := Server.Nonneg.initial hw
    refine ⟨.initial, ⟨_, [], rfl, .nil⟩, ?_, rfl, rfl, rfl, rfl, .epollWait, fun _ => rfl, rfl⟩
    refine hnonneg.frame rfl rfl ?_
    intro fd hfd
    have hpc : AcceptPc.lockQueue = .register fd ∨ AcceptPc.lockQueue = .epollAdd fd := hfd
    rcases hpc with hpc | hpc
    · cases hpc
    · cases hpc
  · rintro s s' - - ⟨t, ht, hF⟩ hrule
    rcases follows_of_rule hF hrule with hF' | ⟨b, t', hstep', hF'⟩
    · exact ⟨t, ht, hF'⟩
    · exact ⟨t', ht.snoc hstep', hF'⟩

lemma pool_of_reachable (h : (calcServerSystem Q n k).Reachable s)
    (hrun : s.returned = false) :
    s.pool.Inv ∧ s.pool.SinglePoster (s.posted.map Report.pair) := by
  obtain ⟨t, ht, hF⟩ := exists_follows h hrun
  obtain ⟨sent, hI⟩ := EventLoop.Inv.of_reachable ht
  exact ⟨hF.pool ▸ hI.pool, hF.poster⟩

/-- A worker in `client_event` has the descriptor of the report with the ticket of its job. -/
lemma reported_of_running (hpool : s.pool.Inv)
    (hposter : s.pool.SinglePoster (s.posted.map Report.pair)) {i : Fin n} {p : Plucked Pointer}
    {args : BitVec 64} (hworker : s.pool.worker i = .running p) (hargs : p.args = .data args) :
    ∃ report, s.posted[p.ticket]? = some report ∧ report.client = clientOf args := by
  have hposted := hpool.running_posted hposter hworker
  rw [List.getElem?_map, Option.map_eq_some_iff] at hposted
  obtain ⟨report, hreport, hpair⟩ := hposted
  refine ⟨report, hreport, ?_⟩
  have hdata : Pointer.data (packArg report.client report.eventFlag) = .data args :=
    ((Prod.mk.inj hpair).2).trans hargs
  rw [← Pointer.data.inj hdata, clientOf_packArg]

/-! ### The replies -/

theorem Answers.step (h : s.Answers) (hpool : s.pool.Inv)
    (hposter : s.pool.SinglePoster (s.posted.map Report.pair)) (hrule : s.Rule s') :
    s'.Answers := by
  have hk := keeps_of_rule hrule
  have hposted := posted_prefix hrule
  cases hrule with
  | server | test | recvNothing =>
    exact h.frame hk hposted (fun _ _ _ => .inl rfl) fun _ => .inl
  | @recv i p args r c hpc hworker hargs hticket hfd hfile hconn =>
    refine h.frame hk hposted ?_ fun _ => .inl
    intro j r' hr'
    change ((s.goTo i r.next).request j).pending = some r' at hr'
    rw [request_goTo] at hr'
    by_cases hj : j = i
    · rw [if_pos hj] at hr'
      obtain rfl := Request.eq_of_pending_next hr'
      obtain ⟨report, hreport, hclient⟩ := reported_of_running hpool hposter hworker hargs
      refine .inr ⟨request_goTo.trans (if_pos hj), ⟨c, hconn, .inl ?_⟩, ⟨report, ?_, ?_⟩⟩
      · exact hfile.symm.trans hconn
      · rw [hticket]
        exact hreport
      · rw [hfd]
        exact hclient
    · exact .inl (request_goTo.trans (if_neg hj))
  | @request i _ hrequest =>
    cases hrequest with
    | @answer r text hpc htext =>
      have hpending : (s.request i).pending = some r := by rw [hpc]; rfl
      obtain ⟨hnext, -⟩ := h.pending i r hpending
      exact h.sent hpending rfl (Request.sentFor_answer (hnext.symm.trans hpc) htext)
    | @goodbye r text hpc htext =>
      have hpending : (s.request i).pending = some r := by rw [hpc]; rfl
      obtain ⟨hnext, -⟩ := h.pending i r hpending
      exact h.sent hpending rfl (Request.sentFor_goodbye (hnext.symm.trans hpc) htext)
    | deregister | epollDel | shutdown | close =>
      exact h.frame hk hposted (fun _ _ hr => .inl (request_goTo_of_pending rfl hr)) fun _ => .inl

lemma answers_of_reachable (h : (calcServerSystem Q n k).Reachable s)
    (hrun : s.returned = false) : s.Answers := by
  apply reachable_induct (P := Answers) h hrun
  · intro _ _ _ _ _ w _
    exact Answers.initial
  · intro s s' hs hrun hA hrule
    obtain ⟨hpool, hposter⟩ := pool_of_reachable hs hrun
    exact hA.step hpool hposter hrule

end CalcServer

variable [FifoQueue Q Pointer] {k : Kernel Fd}

open CalcServer in
/-- In every run of the calculator: a worker sends what `calc_request` sends for the message that it
received from the descriptor of its report, and it sends it to the connection that the message came
from, unless this connection was closed in the meantime. -/
theorem calc_server_answers [LawfulFifoQueue Q Pointer] {k : Kernel Fd} {s : CalcServer Q n}
    (h : (calcServerSystem Q n k).Reachable s) (hrun : s.returned = false) :
    ∀ reply ∈ s.replies, reply.request.SentFor reply.text ∧
      (∃ report, s.posted[reply.request.ticket]? = some report ∧
        report.client = reply.request.fd) ∧
      ∃ c, reply.request.file = some (.conn c) ∧
        (reply.file = some (.conn c) ∨ c ∈ s.world.kernel.closedConns) := by
  intro reply hreply
  obtain ⟨hreported, htraced, htext⟩ := (answers_of_reachable h hrun).replies reply hreply
  exact ⟨htext, hreported, htraced⟩

/-- `c 6 * 7` is answered. -/
theorem calc_server_answers_product : ∃ s : CalcServer (RingQueue Pointer) 1, ∃ reply ∈ s.replies,
    reply.request.message = bytesOf "c 6 * 7" ∧
      reply.request.SentFor (bytesOf "6 * 7 = 42\n") := by
  obtain ⟨s, hs, hrun, hreplies⟩ := CalcServer.reachable_of_exec
    (Q := RingQueue Pointer) (n := 1) (P := fun s => s.returned = false ∧
      s.replies = [⟨⟨0, 7, some (.conn 0), bytesOf "c 6 * 7"⟩, some (.conn 0),
        bytesOf "6 * 7 = 42\n"⟩])
    (CalcServer.serveFirst 0 EPOLLIN ++ [.recv 0 (some (bytesOf "c 6 * 7")), .calcRequest 0])
    (by decide +kernel)
  have hall := calc_server_answers hs hrun
  rw [hreplies] at hall
  refine ⟨s, _, hreplies ▸ List.mem_cons_self, rfl, ?_⟩
  exact (hall _ List.mem_cons_self).1

end C10K
