import C10K.Server.Reports

/-!
# The event loop of the servers

`client_event_processor` packs each event into one 64-bit argument of `client_event`, which a worker
unpacks. Here `endpoint_wait_event` may return anything for an event: any descriptor that is not
negative and any event mask. A mask with the top bit set is a negative `int64_t` when it is shifted;
the shift is the one of two's complement. `Run_calc_srv.c` has the same loop and unpacks in the same
way.
-/

namespace C10K

/-- What `endpoint_wait_event` returns when it is asked for one event. The variables `client` and
`event_flag` are written for an event only. -/
inductive WaitResult where
  | error
  | timeout
  | event (client : Fd) (eventFlag : BitVec 32)
  deriving DecidableEq

def WaitResult.count : WaitResult → ℤ
  | .error    => -1
  | .timeout  => 0
  | .event .. => 1

/-- Where the event thread stands; each name says what it does next. -/
inductive LoopPc where
  | waitEvent
  | test (result : WaitResult)        -- `while (count > -1 && !stop)`
  | callPost
  | posting                           -- inside `w_post`
  | returned
  deriving DecidableEq

/-- The event thread and the pool that it posts to. Nothing in the program reads `tested`, the
results that the loop condition was evaluated for, each with `stop` at that moment. -/
structure EventLoop (Q : Type) (n : ℕ) where
  pool : Pool Q Pointer n Unit
  stop : Bool
  pc : LoopPc
  client : Fd
  eventFlag : BitVec 32
  tested : List (WaitResult × Bool)

/-- The next step of a thread. -/
inductive EventLoopAct (n : ℕ) where
  | setStop
  | waitEvent (result : WaitResult)
  | clientEventProcessor
  | pool (a : PoolAct Pointer n Unit)

namespace EventLoop

variable {Q : Type} [FifoQueue Q Pointer] {n : ℕ}

/-- The loop starts on a new pool. -/
def initial : EventLoop Q n where
  pool := .initial
  stop := false
  pc := .waitEvent
  client := -1
  eventFlag := -1
  tested := []

/-- The return of `endpoint_wait_event`. -/
def waitEvent (s : EventLoop Q n) (result : WaitResult) : Option (EventLoop Q n) :=
  if s.pc = .waitEvent then
    match result with
    | .event client eventFlag =>
      if 0 ≤ client.toInt then some { s with client, eventFlag, pc := .test result } else none
    | .error | .timeout => some { s with pc := .test result }
  else none

/-- The other steps of `client_event_processor`. -/
def clientEventProcessor (s : EventLoop Q n) : Option (EventLoop Q n) :=
  match s.pc with
  | .test result =>
    some { s with
      pc := if result.count > -1 ∧ s.stop = false then
        (if result.count > 0 then .callPost else .waitEvent) else .returned
      tested := s.tested ++ [(result, s.stop)] }
  -- w_post(w, client_event, arg)
  | .callPost => do
    let arg := packArg s.client s.eventFlag
    let pool ← s.pool.step (.callPost (.client ()) .clientEvent (.data arg))
    return { s with pool, pc := .posting }
  | .posting =>
    if (s.pool.post (.client ())).isNone then some { s with pc := .waitEvent } else none
  | .waitEvent | .returned => none

/-- The event thread is the only one that posts. -/
def step (s : EventLoop Q n) : EventLoopAct n → Option (EventLoop Q n)
  | .setStop => some { s with stop := true }
  | .waitEvent result => s.waitEvent result
  | .clientEventProcessor => s.clientEventProcessor
  | .pool (.callPost _ _ _) => none
  | .pool a => do
    let pool ← s.pool.step a
    return { s with pool }

end EventLoop

/-- The event loop under every schedule, with every sequence of results. -/
def eventLoopSystem (Q : Type) [FifoQueue Q Pointer] (n : ℕ) :
    LTS (EventLoop Q n) (EventLoopAct n) where
  init s := s = .initial
  step := EventLoop.step

/-! ### Packing -/

/-- `client` and `event_flag` of `client_event`. -/
def clientEventArgs : Pointer → Option (Fd × BitVec 32)
  | .data args   => some (clientOf args, eventFlagOf args)
  | .clientEvent => none

lemma eventFlagOf_packArg {client : Fd} (h : 0 ≤ client.toInt) (eventFlag : BitVec 32) :
    eventFlagOf (packArg client eventFlag) = eventFlag := by
  have hmsb : client.msb = false := by
    rw [BitVec.msb_eq_toInt, decide_eq_false (Int.not_lt.mpr h)]
  ext j hj
  have hlt : 32 + j < 64 := by omega
  have hj' : j < 64 := by omega
  have hclient : (client.signExtend 64).getLsbD (32 + j) = false := by
    rw [BitVec.getLsbD_signExtend, decide_eq_true hlt, if_neg (by omega), hmsb, Bool.and_false]
  have hflag : (eventFlag.signExtend 64 <<< 32).getLsbD (32 + j) = eventFlag[j] := by
    rw [BitVec.getLsbD_shiftLeft, decide_eq_true hlt, decide_eq_false (by omega),
      Nat.add_sub_cancel_left, BitVec.getLsbD_signExtend, decide_eq_true hj', if_pos hj]
    exact BitVec.getLsbD_eq_getElem hj
  rw [eventFlagOf, BitVec.getElem_setWidth, BitVec.getLsbD_sshiftRight, decide_eq_false (by omega),
    if_pos hlt, packArg, BitVec.getLsbD_or, hclient, hflag]
  rfl

/-- Unpacking gives back the descriptor and all bits of the mask. -/
lemma clientEventArgs_packArg {client : Fd} (h : 0 ≤ client.toInt) (eventFlag : BitVec 32) :
    clientEventArgs (.data (packArg client eventFlag)) = some (client, eventFlag) := by
  rw [clientEventArgs, clientOf_packArg, eventFlagOf_packArg h]

/-! ### What is posted -/

def WaitResult.event? : WaitResult → Option (Fd × BitVec 32)
  | .event client eventFlag => some (client, eventFlag)
  | .error | .timeout       => none

/-- The loop condition `count > -1 && !stop`. -/
def goesOn : WaitResult × Bool → Bool
  | (result, stop) => result.count > -1 ∧ stop = false

/-- What `w_post` is called with for an event. -/
def eventPair (event : Fd × BitVec 32) : Pointer × Pointer :=
  (.clientEvent, .data (packArg event.1 event.2))

namespace EventLoop

variable {Q : Type} {n : ℕ} {s s' : EventLoop Q n}

/-- The events among the results that the loop saw before it stopped, in order. -/
def events (s : EventLoop Q n) : List (Fd × BitVec 32) :=
  (s.tested.takeWhile goesOn).filterMap fun (result, _) => result.event?

/-- The pairs that `w_post` was called with, in order. -/
def posted (s : EventLoop Q n) : List (Pointer × Pointer) := s.pool.hist.pushed ++ s.pool.pending

/-- What `client_event` unpacks from the posted arguments, in the order in which they were
posted. -/
def unpacked (s : EventLoop Q n) : List (Option (Fd × BitVec 32)) :=
  s.posted.map fun (_, args) => clientEventArgs args

/-- The event that the loop is about to post. -/
def inHand (s : EventLoop Q n) : List (Fd × BitVec 32) :=
  match s.pc with
  | .callPost => [(s.client, s.eventFlag)]
  | _         => []

/-- The loop condition: the events that the loop saw are those before, and the one of this result if
the loop goes on. -/
lemma events_test {pc : LoopPc} {result : WaitResult} (hgoesOn : ∀ x ∈ s.tested, goesOn x = true) :
    events { s with pc, tested := s.tested ++ [(result, s.stop)] } =
      s.events ++ if goesOn (result, s.stop) then result.event?.toList else [] := by
  rw [events, events, List.takeWhile_append_of_pos hgoesOn, List.takeWhile_eq_self_iff.mpr hgoesOn,
    List.filterMap_append, List.takeWhile_cons]
  cases goesOn (result, s.stop) with
  | false => rfl
  | true =>
    cases result with
    | error | timeout => rfl
    | event client eventFlag => rfl

variable [FifoQueue Q Pointer] [LawfulFifoQueue Q Pointer]

/-- The events in `sent` are posted, and with the one in hand they are those that the loop saw. -/
structure Inv (s : EventLoop Q n) (sent : List (Fd × BitVec 32)) : Prop where
  pool : s.pool.Inv
  poster : s.pool.SinglePoster (sent.map eventPair)
  events_eq : sent ++ s.inHand = s.events
  nonneg : ∀ event ∈ s.events, 0 ≤ event.1.toInt
  goesOn : s.pc ≠ .returned → ∀ x ∈ s.tested, goesOn x = true
  stored : ∀ client eventFlag, s.pc = .test (.event client eventFlag) →
    s.client = client ∧ s.eventFlag = eventFlag ∧ 0 ≤ client.toInt

lemma Inv.initial : (initial : EventLoop Q n).Inv [] where
  pool := Pool.Inv.initial
  poster := ⟨fun _ => rfl, rfl⟩
  events_eq := rfl
  nonneg := nofun
  goesOn _ := nofun
  stored := nofun

variable {sent : List (Fd × BitVec 32)}

/-- A step outside the loop condition and outside `w_post`. -/
lemma Inv.frame (hI : s.Inv sent) (hpool : s'.pool = s.pool) (htested : s'.tested = s.tested)
    (hinHand : s'.inHand = s.inHand) (hpc : s'.pc ≠ .returned → s.pc ≠ .returned)
    (hstored : ∀ client eventFlag, s'.pc = .test (.event client eventFlag) →
      s'.client = client ∧ s'.eventFlag = eventFlag ∧ 0 ≤ client.toInt) : s'.Inv sent := by
  have hevents : s'.events = s.events := by rw [events, htested, events]
  constructor
  · rw [hpool]
    exact hI.pool
  · rw [hpool]
    exact hI.poster
  · rw [hinHand, hevents]
    exact hI.events_eq
  · rw [hevents]
    exact hI.nonneg
  · intro h
    rw [htested]
    exact hI.goesOn (hpc h)
  · exact hstored

/-- `endpoint_wait_event` returns. -/
lemma Inv.waitEvent (hI : s.Inv sent) {result : WaitResult} (h : s.waitEvent result = some s') :
    s'.Inv sent := by
  obtain ⟨hpc, h⟩ := Option.ite_none_right_eq_some.mp h
  have hreturned : s.pc ≠ .returned := by
    rw [hpc]
    exact nofun
  cases result with
  | error | timeout =>
    cases h
    exact hI.frame rfl rfl (by simp only [inHand, hpc]) (fun _ => hreturned) nofun
  | event client eventFlag =>
    obtain ⟨hclient, h⟩ := Option.ite_none_right_eq_some.mp h
    cases h
    refine hI.frame rfl rfl (by simp only [inHand, hpc]) (fun _ => hreturned) ?_
    intro client' eventFlag' heq
    cases heq
    exact ⟨rfl, rfl, hclient⟩

/-- The loop condition is evaluated, and the thread goes to `pc`. -/
lemma Inv.tested (hI : s.Inv sent) {pc : LoopPc} {result : WaitResult} (hpc : s.pc = .test result)
    (hinHand : inHand { s with pc, tested := s.tested ++ [(result, s.stop)] } =
      if C10K.goesOn (result, s.stop) then result.event?.toList else [])
    (hreturned : pc ≠ .returned → C10K.goesOn (result, s.stop) = true)
    (htest : ∀ result, pc ≠ .test result) :
    Inv { s with pc, tested := s.tested ++ [(result, s.stop)] } sent := by
  have hgoesOn : ∀ x ∈ s.tested, C10K.goesOn x = true := by
    apply hI.goesOn
    rw [hpc]
    exact nofun
  have hsent : sent = s.events := by simpa only [inHand, hpc, List.append_nil] using hI.events_eq
  refine ⟨hI.pool, hI.poster, ?_, ?_, ?_, ?_⟩
  · rw [hinHand, events_test hgoesOn, hsent]
  · rw [events_test hgoesOn]
    intro event hevent
    rcases List.mem_append.mp hevent with hevent | hevent
    · exact hI.nonneg event hevent
    · split_ifs at hevent
      · cases result with
        | error | timeout => cases hevent
        | event client eventFlag =>
          obtain ⟨-, -, hclient⟩ := hI.stored client eventFlag hpc
          rw [List.mem_singleton.mp hevent]
          exact hclient
      · cases hevent
  · intro hne x hx
    rcases List.mem_append.mp hx with hx | hx
    · exact hgoesOn x hx
    · rw [List.mem_singleton.mp hx]
      exact hreturned hne
  · intro client eventFlag h
    exact absurd h (htest _)

lemma Inv.test (hI : s.Inv sent) {result : WaitResult} (hpc : s.pc = .test result)
    (h : s.clientEventProcessor = some s') : s'.Inv sent := by
  simp only [EventLoop.clientEventProcessor, hpc, Option.some.injEq] at h
  subst h
  by_cases hgo : result.count > -1 ∧ s.stop = false
  · have hpass : C10K.goesOn (result, s.stop) = true := decide_eq_true hgo
    rw [if_pos hgo]
    cases result with
    | error => exact absurd hgo.1 (by decide)
    | timeout =>
      apply hI.tested hpc
      · rw [if_pos hpass]
        rfl
      · exact fun _ => hpass
      · exact nofun
    | event client eventFlag =>
      obtain ⟨hclient, hflag, -⟩ := hI.stored client eventFlag hpc
      apply hI.tested hpc
      · rw [if_pos hpass, ← hclient, ← hflag]
        rfl
      · exact fun _ => hpass
      · exact nofun
  · have hpass : ¬ C10K.goesOn (result, s.stop) = true := by
      rw [C10K.goesOn, decide_eq_true_iff]
      exact hgo
    rw [if_neg hgo]
    apply hI.tested hpc
    · rw [if_neg hpass]
      rfl
    · intro hne
      exact absurd rfl hne
    · exact nofun

/-- The event in hand is posted. -/
lemma Inv.callPost (hI : s.Inv sent) (hpc : s.pc = .callPost)
    (h : s.clientEventProcessor = some s') : s'.Inv (sent ++ [(s.client, s.eventFlag)]) := by
  simp only [EventLoop.clientEventProcessor, hpc, bind, Option.bind_eq_some_iff, pure,
    Option.some.injEq] at h
  obtain ⟨pool, hpool, rfl⟩ := h
  have hinHand : s.inHand = [(s.client, s.eventFlag)] := by simp only [inHand, hpc]
  refine ⟨hI.pool.step hpool, ?_, ?_, hI.nonneg, fun _ => hI.goesOn ?_, nofun⟩
  · rw [List.map_append]
    exact hI.poster.callPost hpool
  · rw [← hinHand, hI.events_eq]
    exact List.append_nil _
  · rw [hpc]
    exact nofun

lemma Inv.clientEventProcessor (hI : s.Inv sent) (h : s.clientEventProcessor = some s') :
    ∃ sent', s'.Inv sent' := by
  cases hpc : s.pc with
  | waitEvent | returned => simp [EventLoop.clientEventProcessor, hpc] at h
  | test result => exact ⟨sent, hI.test hpc h⟩
  | callPost => exact ⟨_, hI.callPost hpc h⟩
  | posting =>
    simp only [EventLoop.clientEventProcessor, hpc, Option.ite_none_right_eq_some,
      Option.some.injEq] at h
    obtain ⟨-, rfl⟩ := h
    refine ⟨sent, hI.frame rfl rfl ?_ ?_ nofun⟩
    · simp only [inHand, hpc]
    · intro _
      rw [hpc]
      exact nofun

variable {a : EventLoopAct n}

omit [LawfulFifoQueue Q Pointer] in
lemma step_pool_iff {a : PoolAct Pointer n Unit} : s.step (.pool a) = some s' ↔
    (∀ t job args, a ≠ .callPost t job args) ∧
      ∃ pool, s.pool.step a = some pool ∧ s' = { s with pool } := by
  cases a with
  | callPost t job args => exact iff_of_false nofun fun h => h.1 t job args rfl
  | _ =>
    constructor
    · intro h
      obtain ⟨pool, hpool, h⟩ := Option.bind_eq_some_iff.mp h
      cases h
      exact ⟨nofun, pool, hpool, rfl⟩
    · rintro ⟨-, pool, hpool, rfl⟩
      exact Option.bind_eq_some_iff.mpr ⟨pool, hpool, rfl⟩

/-- Every step keeps the invariant, for more events if it posts one. -/
theorem Inv.step (hI : s.Inv sent) (hstep : s.step a = some s') : ∃ sent', s'.Inv sent' := by
  cases a with
  | setStop =>
    cases hstep
    exact ⟨sent, hI.frame rfl rfl rfl id hI.stored⟩
  | waitEvent result => exact ⟨sent, hI.waitEvent hstep⟩
  | clientEventProcessor => exact hI.clientEventProcessor hstep
  | pool a =>
    obtain ⟨hpost, pool, hpool, rfl⟩ := step_pool_iff.mp hstep
    exact ⟨sent, hI.pool.step hpool, hI.poster.step hpool hpost, hI.events_eq, hI.nonneg,
      hI.goesOn, hI.stored⟩

lemma Inv.of_reachable (h : (eventLoopSystem Q n).Reachable s) : ∃ sent, s.Inv sent := by
  apply h.invariant (I := fun s => ∃ sent, s.Inv sent)
  · rintro s rfl
    exact ⟨[], Inv.initial⟩
  · rintro s a s' ⟨sent, hI⟩ hstep
    exact hI.step hstep

/-- Unpacking what was posted gives the events that were sent. -/
lemma Inv.unpacked_eq (hI : s.Inv sent) : s.unpacked = sent.map some := by
  rw [unpacked, posted, hI.poster.pairs_eq, List.map_map]
  apply List.map_congr_left
  intro event hevent
  apply clientEventArgs_packArg
  apply hI.nonneg
  rw [← hI.events_eq]
  exact List.mem_append_left _ hevent

/-- A call of a worker is for one of the events that were sent. -/
lemma Inv.exists_of_called (hI : s.Inv sent) {p : Plucked Pointer} (hp : p ∈ s.pool.hist.called) :
    ∃ event, s.events[p.ticket]? = some event ∧ eventPair event = (p.functionP, p.args) := by
  have hposted := hI.pool.called_posted hI.poster hp
  rw [List.getElem?_map, Option.map_eq_some_iff] at hposted
  obtain ⟨event, hevent, hpair⟩ := hposted
  refine ⟨event, ?_, hpair⟩
  rw [← hI.events_eq, List.getElem?_append_left (List.getElem?_eq_some_iff.mp hevent).1, hevent]

/-- Whatever `endpoint_wait_event` returns and whenever the server is stopped: what `client_event`
unpacks from the posted arguments, in the order in which they were posted, are the events that the
loop saw before it stopped, except for the last one while the loop is about to post it. Every call
of a worker is a call of `client_event` for one of them, no two calls are for the same one, and no
bit of a descriptor or a mask is lost. -/
theorem client_event_unpacks_results (h : (eventLoopSystem Q n).Reachable s) :
    (s.pc ≠ .callPost → s.unpacked = s.events.map some) ∧
      (s.pc = .callPost → s.unpacked ++ [some (s.client, s.eventFlag)] = s.events.map some) ∧
      (∀ p ∈ s.pool.hist.called, p.functionP = .clientEvent ∧
        ∃ event, s.events[p.ticket]? = some event ∧ clientEventArgs p.args = some event) ∧
      (s.pool.hist.called.map Plucked.ticket).Nodup ∧
      ∀ (client : Fd) (eventFlag : BitVec 32), 0 ≤ client.toInt →
        clientEventArgs (.data (packArg client eventFlag)) = some (client, eventFlag) := by
  obtain ⟨sent, hI⟩ := Inv.of_reachable h
  have hevents := hI.events_eq
  refine ⟨fun hpc => ?_, fun hpc => ?_, fun p hp => ?_, hI.pool.called_nodup, ?_⟩
  · have hinHand : s.inHand = [] := by
      unfold inHand
      split
      · contradiction
      · rfl
    rw [hinHand, List.append_nil] at hevents
    rw [hI.unpacked_eq, hevents]
  · have hinHand : s.inHand = [(s.client, s.eventFlag)] := by simp only [inHand, hpc]
    rw [hI.unpacked_eq, ← hevents, hinHand, List.map_append, List.map_singleton]
  · obtain ⟨event, hevent, hpair⟩ := hI.exists_of_called hp
    obtain ⟨hfunction, hargs⟩ := Prod.mk.inj hpair
    have hnonneg := hI.nonneg event (List.mem_of_getElem? hevent)
    exact ⟨hfunction.symm, event, hevent, hargs ▸ clientEventArgs_packArg hnonneg event.2⟩
  · intro client eventFlag hclient
    exact clientEventArgs_packArg hclient eventFlag

end EventLoop

/-- A timeout, an event for 7 with all bits but one in its mask, and an event for 8 after `stop` was
set: the first event is posted and a worker is called for it. -/
theorem client_event_unpacks_results_one : ∃ s : EventLoop (RingQueue Pointer) 1,
    s.tested = [(.timeout, false), (.event 7 0xfffffffe, false), (.event 8 1, true)] ∧
      s.unpacked = [some (7, 0xfffffffe)] ∧ s.pool.hist.called.length = 1 ∧
      ∀ p ∈ s.pool.hist.called, p.functionP = .clientEvent ∧
        ∃ event, s.events[p.ticket]? = some event ∧ clientEventArgs p.args = some event := by
  let acts : List (EventLoopAct 1) :=
    [.waitEvent .timeout, .clientEventProcessor, .waitEvent (.event 7 0xfffffffe),
      .clientEventProcessor, .clientEventProcessor, .pool (.post (.client ())),
      .pool (.post (.client ())), .pool (.post (.client ())), .pool (.post (.client ())),
      .pool (.postSignal (.client ()) none), .clientEventProcessor, .waitEvent (.event 8 1),
      .setStop, .clientEventProcessor, .pool (.work 0), .pool (.work 0), .pool (.work 0),
      .pool (.work 0), .pool (.work 0), .pool (.work 0), .pool (.work 0),
      .pool (.workSignal 0 none), .pool (.work 0)]
  have hrun : ((eventLoopSystem (RingQueue Pointer) 1).exec .initial acts).map
      (fun s => (s.tested, s.pc, s.pool.hist.called.length)) =
      some ([(.timeout, false), (.event 7 0xfffffffe, false), (.event 8 1, true)],
        .returned, 1) := by decide +kernel
  obtain ⟨s, hs, hval⟩ := Option.map_eq_some_iff.mp hrun
  simp only [Prod.mk.injEq] at hval
  obtain ⟨htested, hpc, hcalled⟩ := hval
  obtain ⟨hunpacked, -, hcalls, -⟩ :=
    EventLoop.client_event_unpacks_results ⟨_, acts, rfl, LTS.run_of_exec hs⟩
  refine ⟨s, htested, ?_, hcalled, hcalls⟩
  rw [hunpacked (by rw [hpc]; exact nofun), EventLoop.events, htested]
  rfl

end C10K
