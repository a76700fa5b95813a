import C10K.Endpoint.Registry

/-!
# `endpoint_accept`

The loop takes a connection inside its own condition and records it in three places. The call gives
up where `ep_event` holds `EPOLLHUP`; `epoll_wait` writes that variable only when it delivers an
event. The first `accept` reads `client_address_len`, which nothing wrote, and `EPOLL_CTL_ADD`
refuses `EPOLLEXCLUSIVE` together with `EPOLLRDHUP`.
-/

namespace C10K

variable {w w' : World} {fd : Fd} {answers newFds newFds' : List Fd} {newFdsSize : ℤ} {count : ℕ}
variable {eventsFlags prior prior' clientAddressLen : BitVec 32} {event : Option (BitVec 32)}

/-! ### One turn of the loop -/

namespace World

/-- What the acceptance of some descriptors, in this order, does to the world. -/
structure Accepts (w : World) (eventsFlags : BitVec 32) (answers : List Fd) (w' : World) :
    Prop where
  taken : List.Forall₂ (fun fd c => w'.kernel.files fd = some (.conn c)) answers
    (w.kernel.backlog.take answers.length)
  waiting : w'.kernel.backlog = w.kernel.backlog.drop answers.length
  others : ∀ fd ∉ answers, w'.kernel.files fd = w.kernel.files fd
  unregistered : ∀ fd ∈ answers, w.endpoint.connectedClientsFds.bit (fdToWord fd) = false
  registered : ∀ i, w'.endpoint.connectedClientsFds.bit i =
    if i ∈ answers.map fdToWord then true else w.endpoint.connectedClientsFds.bit i
  unlisted : ∀ fd ∈ answers, w.kernel.interest w.endpoint.epSelector fd = none
  listed : ∀ fd, w'.kernel.interest w.endpoint.epSelector fd =
    if fd ∈ answers then some (listedEntry fd eventsFlags)
    else w.kernel.interest w.endpoint.epSelector fd
  endpoint : w'.endpoint =
    { w.endpoint with connectedClientsFds := w'.endpoint.connectedClientsFds }

/-- The kernel can answer the calls of `accept` by these descriptors; with a negative length, the
first call that has a connection fails. -/
structure CanAccept (w : World) (newFdsSize : ℤ) (clientAddressLen : BitVec 32)
    (answers : List Fd) : Prop where
  limit : answers.length ≤ max newFdsSize 0
  waiting : answers.length ≤ w.kernel.backlog.length
  nodup : answers.Nodup
  unused : ∀ fd ∈ answers, 0 ≤ fd.toInt ∧ w.kernel.files fd = none
  length : clientAddressLen.toInt < 0 → answers.length ≤ 1

lemma Accepts.nil : w.Accepts eventsFlags [] w where
  taken := .nil
  waiting := rfl
  others _ _ := rfl
  unregistered := nofun
  registered _ := (if_neg List.not_mem_nil).symm
  unlisted := nofun
  listed _ := (if_neg List.not_mem_nil).symm
  endpoint := rfl

end World

/-- The kernel can accept the connection that waited longest under any unused number. -/
lemma exists_acceptClient (eventsFlags : BitVec 32) (hI : w.Registry)
    (hwait : w.kernel.backlog ≠ []) (hfd : w.kernel.files fd = none) :
    ∃ w', acceptClient w eventsFlags fd = some w' := by
  have haccept : ∃ k, w.kernel.accept w.endpoint.srvFd fd = some k := by
    unfold Kernel.accept
    split
    · exact absurd ‹_› hwait
    · exact ⟨_, dif_pos ⟨hI.srv, hfd⟩⟩
  obtain ⟨k, hk⟩ := haccept
  exact ⟨_, by simp only [acceptClient, hk, bind, Option.bind_some, pure]; rfl⟩

/-- One turn accepts one connection. -/
lemma accepts_acceptClient (hI : w.Registry) (hadd : eventsFlags &&& EPOLLEXCLUSIVE = 0)
    (h : acceptClient w eventsFlags fd = some w') :
    w.kernel.backlog ≠ [] ∧ w.Accepts eventsFlags [fd] w' := by
  obtain ⟨hnone, hendpoint, ⟨c, hbacklog, hfiles⟩, hinterest⟩ := World.acceptClient_spec hI h
  have hclosed : ¬ w.Accepted fd := by
    rintro ⟨c, hc⟩
    rw [hnone] at hc
    cases hc
  refine ⟨by simp [hbacklog], ?_⟩
  constructor
  · rw [hbacklog]
    refine .cons ?_ .nil
    rw [hfiles, Function.update_self]
  · rw [hbacklog]
    rfl
  · intro fd' hfd'
    rw [hfiles, Function.update_of_ne (List.ne_of_not_mem_cons hfd')]
  · intro fd' hfd'
    obtain rfl := List.mem_singleton.mp hfd'
    exact Bool.eq_false_iff.mpr fun hbit => hclosed ((hI.recorded fd').bit.mp hbit)
  · intro i
    rw [hendpoint, List.map_singleton]
    simp only [List.mem_singleton]
    exact bit_boolsetSet ..
  · intro fd' hfd'
    obtain rfl := List.mem_singleton.mp hfd'
    exact w.kernel.interest_eq_none hnone
  · intro fd'
    simp only [List.mem_singleton, hinterest, hadd, and_true]
    split_ifs with heq
    · rw [heq]
    · rfl
  · rw [hendpoint]

/-- One acceptance and then others. -/
lemma World.Accepts.cons {u : World} (h : w.Accepts eventsFlags [fd] u)
    (h' : u.Accepts eventsFlags answers w') (hwait : w.kernel.backlog ≠ [])
    (hfresh : fd ∉ answers) : w.Accepts eventsFlags (fd :: answers) w' := by
  obtain ⟨c, backlog, hbacklog⟩ := List.exists_cons_of_ne_nil hwait
  have hrest : u.kernel.backlog = backlog := by
    rw [h.waiting, hbacklog]
    rfl
  have hopen : u.kernel.files fd = some (.conn c) := by
    have htaken := h.taken
    rw [hbacklog] at htaken
    cases htaken with
    | cons hc _ => exact hc
  have hselector : u.endpoint.epSelector = w.endpoint.epSelector := by rw [h.endpoint]
  constructor
  · rw [hbacklog]
    refine .cons ((h'.others fd hfresh).trans hopen) ?_
    rw [← hrest]
    exact h'.taken
  · rw [h'.waiting, hrest, hbacklog]
    rfl
  · intro fd' hfd'
    rw [List.mem_cons, not_or] at hfd'
    rw [h'.others fd' hfd'.2, h.others fd' (mt List.mem_singleton.mp hfd'.1)]
  · intro fd' hfd'
    rcases List.mem_cons.mp hfd' with rfl | hfd'
    · exact h.unregistered fd' List.mem_cons_self
    · have hbit := h'.unregistered fd' hfd'
      rw [h.registered] at hbit
      split_ifs at hbit
      exact hbit
  · intro i
    rw [h'.registered, h.registered]
    simp only [List.map_cons, List.map_nil, List.mem_cons, List.not_mem_nil, or_false]
    by_cases hi : i ∈ answers.map fdToWord
    · simp [hi]
    · simp [hi]
  · intro fd' hfd'
    rcases List.mem_cons.mp hfd' with rfl | hfd'
    · exact h.unlisted fd' List.mem_cons_self
    · have hentry := h'.unlisted fd' hfd'
      rw [hselector, h.listed] at hentry
      split_ifs at hentry
      exact hentry
  · intro fd'
    have hlisted := h'.listed fd'
    rw [hselector] at hlisted
    rw [hlisted, h.listed]
    by_cases hfd' : fd' ∈ answers
    · simp [hfd']
    · simp [hfd']
  · rw [h'.endpoint, h.endpoint]

/-! ### The loop -/

/-- Once the first answer is taken, the kernel can give the others exactly if it could give all. -/
lemma canAccept_cons_iff {u : World} (hI : w.Registry) (hlen : 0 ≤ clientAddressLen.toInt)
    (hu : acceptClient w eventsFlags fd = some u) :
    w.CanAccept (newFdsSize - count) clientAddressLen (fd :: answers) ↔
      count < newFdsSize ∧ 0 ≤ fd.toInt ∧
        u.CanAccept (newFdsSize - (count + 1 : ℕ)) sizeofSockaddrIn answers := by
  obtain ⟨hnone, -, ⟨c, hbacklog, hfiles⟩, -⟩ := World.acceptClient_spec hI hu
  constructor
  · rintro ⟨hlimit, hwaiting, hnodup, hunused, -⟩
    rw [List.length_cons] at hlimit
    rw [hbacklog, List.length_cons, List.length_cons] at hwaiting
    obtain ⟨hfresh, hnodup⟩ := List.nodup_cons.mp hnodup
    refine ⟨by omega, (hunused fd List.mem_cons_self).1, ?_⟩
    constructor
    · omega
    · exact Nat.le_of_succ_le_succ hwaiting
    · exact hnodup
    · intro fd' hfd'
      rw [hfiles, Function.update_of_ne (ne_of_mem_of_not_mem hfd' hfresh)]
      exact hunused fd' (List.mem_cons_of_mem _ hfd')
    · exact fun hneg => absurd hneg (by decide)
  · rintro ⟨hlt, hpos, hlimit, hwaiting, hnodup, hunused, -⟩
    -- the number is in use from now on
    have hfresh : fd ∉ answers := by
      intro hmem
      have hused := (hunused fd hmem).2
      rw [hfiles, Function.update_self] at hused
      cases hused
    constructor
    · rw [List.length_cons]
      omega
    · rw [hbacklog, List.length_cons, List.length_cons]
      exact Nat.succ_le_succ hwaiting
    · exact List.nodup_cons.mpr ⟨hfresh, hnodup⟩
    · intro fd' hfd'
      rcases List.mem_cons.mp hfd' with rfl | hfd'
      · exact ⟨hpos, hnone⟩
      · obtain ⟨hpos', hnone'⟩ := hunused fd' hfd'
        rw [hfiles, Function.update_of_ne (ne_of_mem_of_not_mem hfd' hfresh)] at hnone'
        exact ⟨hpos', hnone'⟩
    · exact fun hneg => absurd hneg (Int.not_lt.mpr hlen)

/-- With a length that is not negative, the loop takes a connection for every answer and writes the
answers to consecutive cells of the buffer. -/
lemma acceptLoop_count (hI : w.Registry) (hlen : 0 ≤ clientAddressLen.toInt) {n : ℕ}
    (h : acceptLoop eventsFlags newFdsSize answers clientAddressLen count newFds w =
      some (n, newFds', w')) :
    n = count + answers.length ∧
      newFds' = newFds.take count ++ answers ++ newFds.drop (count + answers.length) ∧
      w.CanAccept (newFdsSize - count) clientAddressLen answers ∧
      (eventsFlags &&& EPOLLEXCLUSIVE = 0 → w.Accepts eventsFlags answers w') := by
  induction answers generalizing clientAddressLen count newFds w with
  | nil =>
    cases h
    exact ⟨rfl, by simp, ⟨by simp, by simp, .nil, nofun, fun _ => Nat.zero_le _⟩, fun _ => .nil⟩
  | cons fd answers ih =>
    obtain ⟨⟨hlimit, hpos⟩, ⟨hneg, -⟩ | ⟨-, hcell, u, hu, h⟩⟩ := World.acceptLoop_cons.mp h
    · exact absurd hneg (Int.not_lt.mpr hlen)
    obtain ⟨hn, hnew, hcan, haccepts'⟩ := ih (hI.acceptClient hu) (by decide) h
    have hcan := (canAccept_cons_iff hI hlen hu).mpr ⟨hlimit, hpos, hcan⟩
    have hfresh : fd ∉ answers := (List.nodup_cons.mp hcan.nodup).1
    refine ⟨?_, ?_, hcan, fun hadd => ?_⟩
    · rw [hn, List.length_cons]
      omega
    · have htake : (newFds.set count fd).take (count + 1) = newFds.take count ++ [fd] := by
        rw [List.take_succ_eq_append_getElem (by rwa [List.length_set]), List.getElem_set_self,
          List.take_set_of_le le_rfl]
      rw [hnew, htake, List.drop_set_of_lt (by omega), List.length_cons, List.append_assoc _ [fd],
        List.singleton_append, Nat.add_assoc count 1, Nat.add_comm 1]
    · obtain ⟨hwait, haccepts⟩ := accepts_acceptClient hI hadd hu
      exact haccepts.cons (haccepts' hadd) hwait hfresh

/-- With a negative length, the first connection is lost, and the loop ends. -/
lemma acceptLoop_lose (hlen : clientAddressLen.toInt < 0) {result : ℕ × List Fd × World} :
    acceptLoop eventsFlags newFdsSize (fd :: answers) clientAddressLen count newFds w =
        some result ↔
      (count < newFdsSize ∧ 0 ≤ fd.toInt) ∧ answers = [] ∧
        ∃ k, w.kernel.lose w.endpoint.srvFd fd = some k ∧
          result = (count, newFds, { w with kernel := k }) := by
  rw [World.acceptLoop_cons]
  refine and_congr_right fun _ => ⟨fun h => ?_, fun h => .inl ⟨hlen, h⟩⟩
  exact (h.resolve_right fun hpos => absurd hpos.1 (Int.not_le.mpr hlen)).2

/-- The kernel can lose the connection that waited longest under any unused number. -/
lemma exists_lose (hI : w.Registry) (hwait : w.kernel.backlog ≠ [])
    (hfd : w.kernel.files fd = none) : ∃ k, w.kernel.lose w.endpoint.srvFd fd = some k := by
  unfold Kernel.lose
  split
  · exact absurd ‹_› hwait
  · exact ⟨_, if_pos ⟨hI.srv, hfd⟩⟩

/-- The loop returns for all answers that the kernel can give. -/
lemma exists_acceptLoop (eventsFlags : BitVec 32) (count : ℕ) (hI : w.Registry)
    (hcan : w.CanAccept (newFdsSize - count) clientAddressLen answers)
    (hroom : newFdsSize ≤ newFds.length) :
    ∃ result, acceptLoop eventsFlags newFdsSize answers clientAddressLen count newFds w =
      some result := by
  induction answers generalizing clientAddressLen count newFds w with
  | nil => exact ⟨_, rfl⟩
  | cons fd answers ih =>
    have hwait : w.kernel.backlog ≠ [] :=
      List.ne_nil_of_length_pos (Nat.lt_of_lt_of_le (Nat.succ_pos _) hcan.waiting)
    obtain ⟨hpos, hnone⟩ := hcan.unused fd List.mem_cons_self
    by_cases hlen : clientAddressLen.toInt < 0
    · obtain ⟨k, hk⟩ := exists_lose hI hwait hnone
      have hnil : answers = [] := List.length_eq_zero_iff.mp (by
        have hone := hcan.length hlen
        rw [List.length_cons] at hone
        omega)
      have hlimit := hcan.limit
      rw [List.length_cons] at hlimit
      exact ⟨_, (acceptLoop_lose hlen).mpr ⟨⟨by omega, hpos⟩, hnil, k, hk, rfl⟩⟩
    · have hlen : 0 ≤ clientAddressLen.toInt := Int.not_lt.mp hlen
      obtain ⟨u, hu⟩ := exists_acceptClient eventsFlags hI hwait hnone
      obtain ⟨hlimit, hpos, hcan⟩ := (canAccept_cons_iff hI hlen hu).mp hcan
      obtain ⟨result, hresult⟩ := ih (count + 1) (hI.acceptClient hu) hcan
        (show newFdsSize ≤ (newFds.set count fd).length by rwa [List.length_set])
      refine ⟨result, World.acceptLoop_cons.mpr ⟨⟨hlimit, hpos⟩, .inr ⟨hlen, ?_, u, hu, hresult⟩⟩⟩
      omega

/-- The loop returns for no other answers. -/
lemma canAccept_of_acceptLoop (hI : w.Registry) {result : ℕ × List Fd × World}
    (h : acceptLoop eventsFlags newFdsSize answers clientAddressLen count newFds w = some result) :
    w.CanAccept (newFdsSize - count) clientAddressLen answers := by
  by_cases hlen : clientAddressLen.toInt < 0
  · cases answers with
    | nil => exact ⟨by simp, by simp, .nil, nofun, fun _ => Nat.zero_le _⟩
    | cons fd answers =>
      obtain ⟨⟨hlimit, hpos⟩, rfl, k, hk, -⟩ := (acceptLoop_lose hlen).mp h
      obtain ⟨c, backlog, hbacklog, hnone, -⟩ := Kernel.lose_spec hk
      constructor
      · rw [List.length_singleton]
        omega
      · rw [hbacklog, List.length_singleton, List.length_cons]
        omega
      · exact List.nodup_singleton fd
      · intro fd' hfd'
        obtain rfl := List.mem_singleton.mp hfd'
        exact ⟨hpos, hnone⟩
      · exact fun _ => le_rfl
  · exact (acceptLoop_count hI (Int.not_lt.mp hlen) h).2.2.1

/-! ### The calls -/

lemma endpointAccept_of_hangup (h : event.getD prior &&& EPOLLHUP ≠ 0) :
    endpointAccept w newFds newFdsSize eventsFlags prior clientAddressLen event answers =
      some (-1, newFds, w) :=
  if_pos h

lemma endpointAccept_of_no_hangup (w : World) (newFds : List Fd) (newFdsSize : ℤ)
    (eventsFlags clientAddressLen : BitVec 32) (event : Option (BitVec 32)) (answers : List Fd)
    (h : event.getD prior &&& EPOLLHUP = 0) :
    endpointAccept w newFds newFdsSize eventsFlags prior clientAddressLen event answers =
      (acceptLoop eventsFlags newFdsSize answers clientAddressLen 0 newFds w).map
        fun (count, newFds, w) => (count, newFds, w) :=
  if_neg (not_not_intro h)

/-- A number that is in use keeps its meaning, and the endpoint changes in its bit set only. -/
lemma endpointAccept_keeps {result : ℤ × List Fd × World} (hI : w.Registry)
    (hresult : endpointAccept w newFds newFdsSize eventsFlags prior clientAddressLen event answers =
      some result) :
    (∀ fd, w.kernel.files fd ≠ none → result.2.2.kernel.files fd = w.kernel.files fd) ∧
      result.2.2.endpoint = { w.endpoint with
        connectedClientsFds := result.2.2.endpoint.connectedClientsFds } := by
  have hall := World.endpointAccept_induct (P := fun u => u.Registry ∧
    (∀ fd, w.kernel.files fd ≠ none → u.kernel.files fd = w.kernel.files fd) ∧
      u.endpoint = { w.endpoint with connectedClientsFds := u.endpoint.connectedClientsFds })
    ⟨hI, fun _ _ => rfl, rfl⟩ ?_ ?_ hresult
  · exact hall.2
  · rintro fd - u u' ⟨hu, hfiles, hendpoint⟩ hclient
    obtain ⟨hnone, hset, ⟨c, -, hupdate⟩, -⟩ := World.acceptClient_spec hu hclient
    refine ⟨hu.acceptClient hclient, fun fd' hfd' => ?_, by rw [hset, hendpoint]⟩
    have hne : fd' ≠ fd := by
      rintro rfl
      exact hfd' ((hfiles fd' hfd').symm.trans hnone)
    rw [hupdate, Function.update_of_ne hne, hfiles fd' hfd']
  · rintro fd u k ⟨hu, hfiles, hendpoint⟩ hlose
    obtain ⟨-, -, -, -, -, -, hkept, -⟩ := Kernel.lose_spec hlose
    exact ⟨hu.lose hlose, fun fd' hfd' => (congrFun hkept fd').trans (hfiles fd' hfd'), hendpoint⟩

/-- A count of connections is not -1. -/
lemma endpointAccept_ne_neg_one {result : ℤ × List Fd × World}
    (h : event.getD prior &&& EPOLLHUP = 0)
    (hresult : endpointAccept w newFds newFdsSize eventsFlags prior clientAddressLen event answers =
      some result) : result.1 ≠ -1 := by
  rw [endpointAccept_of_no_hangup _ _ _ _ _ _ _ h] at hresult
  obtain ⟨⟨n, newFds, u⟩, -, rfl⟩ := Option.map_eq_some_iff.mp hresult
  intro hneg
  have hcount : (n : ℤ) = -1 := hneg
  omega

/-- The call returns -1 only if it was delivered an event with `EPOLLHUP`. -/
def GivesUpOnHangup (event : Option (BitVec 32)) (result : Option (ℤ × List Fd × World)) : Prop :=
  ∀ r, result = some r → r.1 = -1 → ∃ events, event = some events ∧ events &&& EPOLLHUP ≠ 0

/-- Two runs of `endpoint_accept` that differ in the prior content of `ep_event` only return -1 only
on a delivered `EPOLLHUP`, and agree in their results and effects, exactly when an event was
delivered, or neither content holds `EPOLLHUP`. -/
theorem endpoint_accept_ignores_prior_iff (w : World) (newFds : List Fd) (newFdsSize : ℤ)
    (eventsFlags prior prior' clientAddressLen : BitVec 32) (event : Option (BitVec 32))
    (answers : List Fd) :
    let result :=
      endpointAccept w newFds newFdsSize eventsFlags prior clientAddressLen event answers
    let result' :=
      endpointAccept w newFds newFdsSize eventsFlags prior' clientAddressLen event answers
    (GivesUpOnHangup event result ∧ GivesUpOnHangup event result' ∧ result = result') ↔
      event.isSome ∨ (prior &&& EPOLLHUP = 0 ∧ prior' &&& EPOLLHUP = 0) := by
  intro result result'
  have hcount : ∀ p, event.getD p &&& EPOLLHUP = 0 → GivesUpOnHangup event
      (endpointAccept w newFds newFdsSize eventsFlags p clientAddressLen event answers) :=
    fun p hp r hr hneg => absurd hneg (endpointAccept_ne_neg_one hp hr)
  cases event with
  | some events =>
    refine iff_of_true ⟨?_, ?_, rfl⟩ (.inl rfl)
    · by_cases hhup : events &&& EPOLLHUP = 0
      · exact hcount prior hhup
      · exact fun r _ _ => ⟨events, rfl, hhup⟩
    · by_cases hhup : events &&& EPOLLHUP = 0
      · exact hcount prior' hhup
      · exact fun r _ _ => ⟨events, rfl, hhup⟩
  | none =>
    have hclean : ∀ p, GivesUpOnHangup none
        (endpointAccept w newFds newFdsSize eventsFlags p clientAddressLen none answers) →
          p &&& EPOLLHUP = 0 := by
      intro p hgives
      by_contra hhup
      obtain ⟨events, hnone, -⟩ := hgives _ (endpointAccept_of_hangup hhup) rfl
      cases hnone
    constructor
    · rintro ⟨hgives, hgives', -⟩
      exact .inr ⟨hclean prior hgives, hclean prior' hgives'⟩
    · rintro (hsome | ⟨hprior, hprior'⟩)
      · cases hsome
      · refine ⟨hcount prior hprior, hcount prior' hprior', ?_⟩
        exact (endpointAccept_of_no_hangup w newFds newFdsSize eventsFlags clientAddressLen none
          answers hprior).trans (endpointAccept_of_no_hangup w newFds newFdsSize eventsFlags
            clientAddressLen none answers hprior').symm

/-- A timeout on a new endpoint, where the stack happens to hold `EPOLLHUP` in one of the runs. -/
theorem endpoint_accept_reads_prior : ¬ ∀ (s : Session) (newFds : List Fd) (newFdsSize : ℤ)
    (eventsFlags prior prior' clientAddressLen : BitVec 32) (event : Option (BitVec 32))
    (answers : List Fd), endpointSystem.Reachable s →
        let result := endpointAccept s.toWorld newFds newFdsSize eventsFlags prior clientAddressLen
          event answers
        let result' := endpointAccept s.toWorld newFds newFdsSize eventsFlags prior'
          clientAddressLen event answers
        GivesUpOnHangup event result ∧ GivesUpOnHangup event result' ∧ result = result' := by
  intro hall
  have hcreate : (endpointCreate .initial 3 4 5 6).isSome = true := by decide +kernel
  obtain ⟨w, hw⟩ := Option.isSome_iff_exists.mp hcreate
  have hreach : endpointSystem.Reachable ⟨w, []⟩ :=
    ⟨⟨w, []⟩, [], ⟨.initial, 3, 4, 5, 6, nofun, hw, rfl⟩, .nil⟩
  obtain ⟨hgives, -⟩ := hall ⟨w, []⟩ [0] 1 EPOLLIN EPOLLHUP 0 16 none [] hreach
  obtain ⟨events, hnone, -⟩ := hgives _ (endpointAccept_of_hangup (by decide)) rfl
  cases hnone

/-- The call takes as many connections from the line as it says, in order: it writes their
descriptors to the front of the buffer and nothing else, registers them and no others, and adds them
and no others to the selector. -/
def World.TakesFromBacklog (w : World) (newFds : List Fd) (newFdsSize : ℤ)
    (eventsFlags : BitVec 32) (result : ℤ × List Fd × World) : Prop :=
  ∃ fds : List Fd, result.1 = fds.length ∧ result.1 ≤ max newFdsSize 0 ∧
    result.2.1 = fds ++ newFds.drop fds.length ∧ w.Accepts eventsFlags fds result.2.2

/-- A connection that is lost has left the line, and none is counted. -/
lemma not_takesFromBacklog_of_lose {k : Kernel Fd}
    (hk : w.kernel.lose w.endpoint.srvFd fd = some k) :
    ¬ w.TakesFromBacklog newFds newFdsSize eventsFlags (0, newFds, { w with kernel := k }) := by
  rintro ⟨fds, hcount, -, -, haccepts⟩
  obtain ⟨c, backlog, hbacklog, -, hrest, -⟩ := Kernel.lose_spec hk
  have hnil : fds = [] := List.length_eq_zero_iff.mp (by
    have hzero : (0 : ℤ) = fds.length := hcount
    omega)
  have hwaiting := haccepts.waiting
  rw [hnil, hbacklog, List.length_nil, List.drop_zero] at hwaiting
  have hlength := congrArg List.length (hrest.symm.trans hwaiting)
  simp at hlength

/-- With `EPOLLEXCLUSIVE`, no descriptor is added to the selector. -/
lemma interest_acceptLoop (hI : w.Registry) (hadd : eventsFlags &&& EPOLLEXCLUSIVE ≠ 0)
    {result : ℕ × List Fd × World}
    (h : acceptLoop eventsFlags newFdsSize answers clientAddressLen count newFds w = some result) :
    ∀ fd, result.2.2.kernel.interest w.endpoint.epSelector fd =
      w.kernel.interest w.endpoint.epSelector fd := by
  have hall := World.acceptLoop_induct (P := fun u => u.Registry ∧
    u.endpoint.epSelector = w.endpoint.epSelector ∧ ∀ fd,
      u.kernel.interest w.endpoint.epSelector fd =
        w.kernel.interest w.endpoint.epSelector fd) ⟨hI, rfl, fun _ => rfl⟩ ?_ ?_ h
  · exact hall.2.2
  · rintro fd - u u' ⟨hu, hselector, hinterest⟩ hclient
    obtain ⟨-, hendpoint, -, hlisted⟩ := World.acceptClient_spec hu hclient
    refine ⟨hu.acceptClient hclient, by rw [hendpoint, hselector], fun fd' => ?_⟩
    rw [← hinterest, ← hselector, hlisted, if_neg fun heq => hadd heq.2]
  · rintro fd u k ⟨hu, hselector, hinterest⟩ hlose
    obtain ⟨-, -, -, -, -, -, -, hkept⟩ := Kernel.lose_spec hlose
    refine ⟨hu.lose hlose, hselector, fun fd' => ?_⟩
    rw [← hinterest, ← hkept]

/-- On an event without `EPOLLHUP`, `endpoint_accept` returns for every way in which the kernel can
answer the calls of `accept`. It takes from the line what it says exactly when no call of `accept`
has a connection, or the prior content of `client_address_len` is not negative and the flags do not
hold `EPOLLEXCLUSIVE`. -/
theorem endpoint_accept_takes_from_backlog_iff {s : Session} {events : BitVec 32}
    (h : endpointSystem.Reachable s) (hhup : events &&& EPOLLHUP = 0)
    (hroom : newFdsSize ≤ newFds.length) :
    ((∃ result, endpointAccept s.toWorld newFds newFdsSize eventsFlags prior clientAddressLen
        (some events) answers = some result) ↔
      s.CanAccept newFdsSize clientAddressLen answers) ∧
      ∀ result, endpointAccept s.toWorld newFds newFdsSize eventsFlags prior clientAddressLen
        (some events) answers = some result →
          (s.TakesFromBacklog newFds newFdsSize eventsFlags result ↔
            answers = [] ∨
              (0 ≤ clientAddressLen.toInt ∧ eventsFlags &&& EPOLLEXCLUSIVE = 0)) := by
  have hI := registry_of_reachable h
  rw [endpointAccept_of_no_hangup s.toWorld newFds newFdsSize eventsFlags clientAddressLen
    (some events) answers hhup]
  constructor
  · constructor
    · rintro ⟨result, hresult⟩
      obtain ⟨_, hloop, -⟩ := Option.map_eq_some_iff.mp hresult
      have hcan := canAccept_of_acceptLoop hI hloop
      rwa [Nat.cast_zero, sub_zero] at hcan
    · intro hcan
      obtain ⟨result, hloop⟩ := exists_acceptLoop eventsFlags 0 hI
        (by rwa [Nat.cast_zero, sub_zero]) hroom
      exact ⟨_, by rw [hloop, Option.map_some]⟩
  · intro result hresult
    obtain ⟨⟨n, newFds', w'⟩, hloop, rfl⟩ := Option.map_eq_some_iff.mp hresult
    have hcan := canAccept_of_acceptLoop hI hloop
    rw [Nat.cast_zero, sub_zero] at hcan
    cases answers with
    | nil =>
      cases hloop
      refine iff_of_true ⟨[], rfl, by simp, rfl, .nil⟩ (.inl rfl)
    | cons fd answers =>
      rw [eq_false (List.cons_ne_nil fd answers), false_or]
      by_cases hlen : clientAddressLen.toInt < 0
      · obtain ⟨-, -, k, hk, heq⟩ := (acceptLoop_lose hlen).mp hloop
        cases heq
        exact iff_of_false (not_takesFromBacklog_of_lose hk) fun hboth => by omega
      · have hlen : 0 ≤ clientAddressLen.toInt := Int.not_lt.mp hlen
        obtain ⟨hn, hnew, -, haccepts⟩ := acceptLoop_count hI hlen hloop
        rw [Nat.zero_add] at hn hnew
        constructor
        · rintro ⟨fds, hcount, -, hfds, htakes⟩
          refine ⟨hlen, ?_⟩
          by_contra hadd
          -- the buffer starts with the answers, so these are the descriptors that were taken
          have hlength : fds.length = (fd :: answers).length := by
            have hcount : (n : ℤ) = fds.length := hcount
            omega
          have hhead : fds = fd :: answers :=
            (List.append_inj (hfds.symm.trans hnew) hlength).1
          have hentry := htakes.listed fd
          rw [hhead, if_pos List.mem_cons_self, interest_acceptLoop hI hadd hloop,
            htakes.unlisted fd (hhead ▸ List.mem_cons_self)] at hentry
          cases hentry
        · rintro ⟨-, hadd⟩
          have hlimit := hcan.limit
          exact ⟨fd :: answers, congrArg Nat.cast hn, by rw [hn]; exact hlimit, hnew,
            haccepts hadd⟩

/-- Two of three connections that wait are accepted, as 7 and 9. -/
theorem endpoint_accept_takes_from_backlog_iff_two : ∃ s : Session, endpointSystem.Reachable s ∧
    s.kernel.backlog = [0, 1, 2] ∧ ∃ w', endpointAccept s.toWorld [0, 0, 0] 2 EPOLLIN 0 16
      (some EPOLLIN) [7, 9] = some (2, [7, 9, 0], w') ∧
        s.TakesFromBacklog [0, 0, 0] 2 EPOLLIN (2, [7, 9, 0], w') := by
  have hrun : ((endpointCreate .initial 3 4 5 6).bind fun w =>
      (endpointSystem.exec ⟨w, []⟩ [.arrive, .arrive, .arrive]).bind fun s =>
      (endpointAccept s.toWorld [0, 0, 0] 2 EPOLLIN 0 16 (some EPOLLIN) [7, 9]).map fun result =>
        (s.kernel.backlog, result.1, result.2.1)) = some ([0, 1, 2], 2, [7, 9, 0]) := by
    decide +kernel
  simp only [Option.bind_eq_some_iff, Option.map_eq_some_iff, Prod.mk.injEq] at hrun
  obtain ⟨w, hw, s, hs, ⟨n, newFds', w'⟩, hresult, hbacklog, rfl, rfl⟩ := hrun
  have hreach : endpointSystem.Reachable s :=
    ⟨⟨w, []⟩, _, ⟨.initial, 3, 4, 5, 6, nofun, hw, rfl⟩, LTS.run_of_exec hs⟩
  have htakes := (endpoint_accept_takes_from_backlog_iff hreach (by decide) (by decide)).2 _ hresult
  exact ⟨s, hreach, hbacklog, w', hresult, htakes.mpr (.inr (by decide))⟩

/-- One connection waits, and `client_address_len` holds -1: the connection is lost. -/
theorem endpoint_accept_loses : ¬ ∀ (s : Session) (newFds : List Fd) (newFdsSize : ℤ)
    (eventsFlags prior clientAddressLen events : BitVec 32) (answers : List Fd)
    (result : ℤ × List Fd × World), endpointSystem.Reachable s → events &&& EPOLLHUP = 0 →
      newFdsSize ≤ newFds.length → endpointAccept s.toWorld newFds newFdsSize eventsFlags prior
        clientAddressLen (some events) answers = some result →
          s.TakesFromBacklog newFds newFdsSize eventsFlags result := by
  intro hall
  have hrun : ((endpointCreate .initial 3 4 5 6).bind fun w =>
      (endpointSystem.exec ⟨w, []⟩ [.arrive]).bind fun s =>
      (endpointAccept s.toWorld [0] 1 EPOLLIN 0 (-1) (some EPOLLIN) [7]).map fun result =>
        (s.kernel.backlog, result.1, result.2.2.kernel.backlog)) = some ([0], 0, []) := by
    decide +kernel
  simp only [Option.bind_eq_some_iff, Option.map_eq_some_iff, Prod.mk.injEq] at hrun
  obtain ⟨w, hw, s, hs, ⟨n, newFds', w'⟩, hresult, hbacklog, rfl, hrest⟩ := hrun
  have hreach : endpointSystem.Reachable s :=
    ⟨⟨w, []⟩, _, ⟨.initial, 3, 4, 5, 6, nofun, hw, rfl⟩, LTS.run_of_exec hs⟩
  obtain ⟨fds, hcount, -, -, haccepts⟩ :=
    hall s [0] 1 EPOLLIN 0 (-1) EPOLLIN [7] _ hreach (by decide) (by decide) hresult
  have hnil : fds = [] := List.length_eq_zero_iff.mp (Int.ofNat_eq_zero.mp hcount.symm)
  have hwaiting := haccepts.waiting
  rw [hnil, hbacklog] at hwaiting
  exact absurd (hrest.symm.trans hwaiting) (by decide)

end C10K
