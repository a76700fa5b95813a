import C10K.Endpoint.Basic

/-!
# The registry of the endpoint

The bit set, the descriptors that denote connections, and the interest list of `_ep_selector` are
three records of one set of clients. `World.Registry` states their agreement; it holds of a created
endpoint and after every complete call, whatever numbers the disconnection queue holds.
-/

namespace C10K

variable {w w' : World} {fd fd' : Fd} {i : BitVec 64} {events eventsFlags : BitVec 32}

lemma wordToFd_fdToWord (fd : Fd) : wordToFd (fdToWord fd) = fd := by
  ext j hj
  have hj' : j < 64 := by omega
  rw [wordToFd, fdToWord, BitVec.getElem_setWidth, BitVec.getLsbD_signExtend, if_pos hj,
    decide_eq_true hj', Bool.true_and]
  exact BitVec.getLsbD_eq_getElem hj

lemma fdToWord_injective : Function.Injective fdToWord := by
  intro fd fd' h
  rw [← wordToFd_fdToWord fd, h, wordToFd_fdToWord]

/-! ### What the functions change -/

@[simp] lemma files_endpointDisconnectClient : (endpointDisconnectClient w fd).kernel.files fd' =
    if fd' = fd then none else w.kernel.files fd' := by
  simp [endpointDisconnectClient, endpointDeregisterClient, World.setClients]

@[simp] lemma interest_endpointDisconnectClient (ep : Fd) :
    (endpointDisconnectClient w fd).kernel.interest ep fd' =
      if ep = fd ∨ fd' = fd then none else w.kernel.interest ep fd' := by
  simp only [endpointDisconnectClient, endpointDeregisterClient, World.setClients,
    Kernel.interest_close, Kernel.interest_shutdown, Kernel.interest_epollDel]
  split_ifs with hclose hdel
  · rfl
  · exact absurd (.inr hdel.2) hclose
  · rfl

@[simp] lemma bit_endpointDisconnectClient :
    (endpointDisconnectClient w fd).endpoint.connectedClientsFds.bit i =
      if i = fdToWord fd then false else w.endpoint.connectedClientsFds.bit i :=
  bit_boolsetSet ..

lemma closed_endpointDisconnectClient (fds : List Fd) :
    (endpointDisconnectClient w fd).kernel.closed ++
        Kernel.closings (endpointDisconnectClient w fd).kernel.files fds =
      w.kernel.closed ++ Kernel.closings w.kernel.files (fd :: fds) :=
  Kernel.closed_append_closings_close fds

/-- The callback on the index of a descriptor disconnects the descriptor. -/
lemma disconnectAllForeach_fdToWord :
    disconnectAllForeach w (fdToWord fd) = endpointDisconnectClient w fd := by
  rw [disconnectAllForeach, endpointDisconnectClient, endpointDeregisterClient, wordToFd_fdToWord]

namespace World

/-- The descriptor denotes a connection: it was accepted and not closed yet. -/
def Accepted (w : World) (fd : Fd) : Prop := ∃ c, w.kernel.files fd = some (.conn c)

/-- The number denotes a connection or nothing. -/
def Loose (w : World) (fd : Fd) : Prop := ∀ file, w.kernel.files fd = some file → file.isConn = true

/-- The bit of a number is set when it denotes a connection, and its entry in the interest list is
one of a connection, or that of the event descriptor, which does not watch `EPOLLRDHUP`. -/
structure Recorded (w : World) (fd : Fd) : Prop where
  bit : w.endpoint.connectedClientsFds.bit (fdToWord fd) = true ↔ w.Accepted fd
  entry : ∀ e, w.kernel.interest w.endpoint.epSelector fd = some e → e.data = fd ∧
    (w.Accepted fd ∨ fd = w.endpoint.shutdownFd ∧ e.events &&& EPOLLRDHUP = 0)

/-- The records of every number are right, and no queued number is one of the endpoint's own. -/
structure Registry (w : World) : Prop where
  srv : w.kernel.files w.endpoint.srvFd = some .listener
  selector : w.kernel.files w.endpoint.epSelector = some .epoll
  shutdown : w.kernel.files w.endpoint.shutdownFd = some .event
  size_le : w.endpoint.connectedClientsFds.size ≤ 2 ^ 58
  range : ∀ i, w.endpoint.connectedClientsFds.bit i = true → ∃ fd, i = fdToWord fd
  recorded : ∀ fd, w.Recorded fd
  queued : ∀ v ∈ w.endpoint.disconnectQueue, w.Loose (wordToFd v)

lemma Accepted.loose (h : w.Accepted fd) : w.Loose fd := by
  obtain ⟨c, hc⟩ := h
  intro file hfile
  cases hc.symm.trans hfile
  rfl

lemma loose_of_none (h : w.kernel.files fd = none) : w.Loose fd := by
  intro file hfile
  rw [h] at hfile
  cases hfile

lemma Loose.ne (h : w.Loose fd) {file : File} (hfile : w.kernel.files fd' = some file)
    (hconn : file.isConn = false) : fd' ≠ fd := by
  rintro rfl
  rw [h file hfile] at hconn
  cases hconn

/-- The records of one loose number change together, and nothing else does. -/
lemma Registry.update (hI : w.Registry) (hloose : w.Loose fd)
    (hsrv : w'.endpoint.srvFd = w.endpoint.srvFd)
    (hselector : w'.endpoint.epSelector = w.endpoint.epSelector)
    (hshutdown : w'.endpoint.shutdownFd = w.endpoint.shutdownFd)
    (hqueue : ∀ v ∈ w'.endpoint.disconnectQueue, v ∈ w.endpoint.disconnectQueue)
    (hsize : w'.endpoint.connectedClientsFds.size ≤ 2 ^ 58)
    (hfiles : ∀ fd' ≠ fd, w'.kernel.files fd' = w.kernel.files fd')
    (hbit : ∀ i ≠ fdToWord fd, w'.endpoint.connectedClientsFds.bit i =
      w.endpoint.connectedClientsFds.bit i)
    (hinterest : ∀ fd' ≠ fd, w'.kernel.interest w.endpoint.epSelector fd' =
      w.kernel.interest w.endpoint.epSelector fd')
    (hloose' : w'.Loose fd) (hrecorded : w'.Recorded fd) : w'.Registry where
  srv := by rw [hsrv, hfiles _ (hloose.ne hI.srv rfl), hI.srv]
  selector := by rw [hselector, hfiles _ (hloose.ne hI.selector rfl), hI.selector]
  shutdown := by rw [hshutdown, hfiles _ (hloose.ne hI.shutdown rfl), hI.shutdown]
  size_le := hsize
  range i hi := by
    by_cases h : i = fdToWord fd
    · exact ⟨fd, h⟩
    · exact hI.range i (hbit i h ▸ hi)
  recorded fd' := by
    by_cases h : fd' = fd
    · exact h ▸ hrecorded
    · have haccepted : w'.Accepted fd' ↔ w.Accepted fd' := by rw [Accepted, hfiles fd' h, Accepted]
      obtain ⟨h₁, h₂⟩ := hI.recorded fd'
      constructor
      · rw [hbit _ (fdToWord_injective.ne h), haccepted, h₁]
      · rw [hselector, hshutdown, hinterest fd' h, haccepted]
        exact h₂
  queued v hv := by
    by_cases h : wordToFd v = fd
    · exact h ▸ hloose'
    · intro file hfile
      rw [hfiles _ h] at hfile
      exact hI.queued v (hqueue v hv) file hfile

/-- Nothing but the queue changes. -/
lemma Registry.setQueue (hI : w.Registry) {queue : Stack (BitVec 64)}
    (hqueue : ∀ v ∈ queue, w.Loose (wordToFd v)) : (w.setQueue queue).Registry where
  srv := hI.srv
  selector := hI.selector
  shutdown := hI.shutdown
  size_le := hI.size_le
  range := hI.range
  recorded fd := ⟨(hI.recorded fd).bit, (hI.recorded fd).entry⟩
  queued := hqueue

/-- The registry is about the table, the interest lists and the endpoint, and holds when the entries
watch less than before. -/
lemma Registry.congr (hI : w.Registry) (hfiles : w'.kernel.files = w.kernel.files)
    (hinterest : ∀ ep fd e, w'.kernel.interest ep fd = some e → ∃ e', w.kernel.interest ep fd =
      some e' ∧ e.data = e'.data ∧ (e'.events &&& EPOLLRDHUP = 0 → e.events &&& EPOLLRDHUP = 0))
    (hendpoint : w'.endpoint = w.endpoint) : w'.Registry := by
  have haccepted : ∀ fd, w'.Accepted fd ↔ w.Accepted fd := by
    intro fd
    rw [Accepted, hfiles, Accepted]
  constructor
  · rw [hfiles, hendpoint, hI.srv]
  · rw [hfiles, hendpoint, hI.selector]
  · rw [hfiles, hendpoint, hI.shutdown]
  · rw [hendpoint]
    exact hI.size_le
  · rw [hendpoint]
    exact hI.range
  · intro fd
    constructor
    · rw [hendpoint, haccepted, (hI.recorded fd).bit]
    · intro e he
      rw [hendpoint] at he ⊢
      obtain ⟨e', he', hdata, hmask⟩ := hinterest _ _ e he
      obtain ⟨hown, howner⟩ := (hI.recorded fd).entry e' he'
      rw [haccepted]
      exact ⟨hdata.trans hown, howner.imp_right (And.imp_right hmask)⟩
  · rw [hendpoint]
    intro v hv file hfile
    exact hI.queued v hv file (hfiles ▸ hfile)

/-- Reported entries keep their data and watch nothing new. -/
lemma Registry.disarm (hI : w.Registry) (fds : List Fd) :
    Registry { w with kernel := w.kernel.disarm w.endpoint.epSelector fds } := by
  refine hI.congr rfl (fun ep fd e he => ?_) rfl
  obtain ⟨e', he', rfl | rfl⟩ := Kernel.entry_disarm he
  · exact ⟨_, he', rfl, id⟩
  · exact ⟨e', he', EpollEvent.data_disarmed, EpollEvent.events_disarmed⟩

/-- A connection that is lost was in none of the records. -/
lemma Registry.lose {k : Kernel Fd} (hI : w.Registry)
    (h : w.kernel.lose w.endpoint.srvFd fd = some k) : Registry { w with kernel := k } := by
  obtain ⟨-, -, -, -, -, -, hfiles, hinterest⟩ := Kernel.lose_spec h
  refine hI.congr hfiles (fun ep fd e he => ⟨e, ?_, rfl, id⟩) rfl
  rw [← hinterest]
  exact he

/-! ### The calls keep the registry -/

/-- Disconnecting takes a number off all three records, also when it denotes nothing. -/
lemma Registry.disconnectClient (hI : w.Registry) (hloose : w.Loose fd) :
    (endpointDisconnectClient w fd).Registry := by
  have hselector : w.endpoint.epSelector ≠ fd := hloose.ne hI.selector rfl
  have hnone : (endpointDisconnectClient w fd).kernel.files fd = none := by simp
  have hclosed : ¬ (endpointDisconnectClient w fd).Accepted fd := by simp [Accepted]
  refine hI.update hloose rfl rfl rfl (fun v => id) (size_boolsetSet_le hI.size_le _ _) ?_ ?_ ?_
    (loose_of_none hnone) ⟨?_, fun e he => ?_⟩
  · intro fd' h
    simp [h]
  · intro i h
    simp [h]
  · intro fd' h
    simp [h, hselector]
  · simpa using hclosed
  · simp at he

/-- Disconnecting a client makes no number denote another file. -/
lemma loose_endpointDisconnectClient (h : w.Loose fd') :
    (endpointDisconnectClient w fd).Loose fd' := by
  intro file hfile
  rw [files_endpointDisconnectClient] at hfile
  split_ifs at hfile
  exact h file hfile

/-- The loop of `endpoint_close_hungups` empties the queue, disconnects the numbers that it held and
leaves the others alone. -/
lemma closeHungupsLoop_spec (queue : Stack (BitVec 64)) (count : ℕ)
    (hqueue : w.endpoint.disconnectQueue = queue) :
    let w' := (closeHungupsLoop queue count w).2
    w'.endpoint.disconnectQueue = [] ∧
      ∀ fd, w'.kernel.files fd = if fd ∈ queue.map wordToFd then none else w.kernel.files fd := by
  induction queue generalizing count w with
  | nil => exact ⟨hqueue, fun _ => rfl⟩
  | cons v queue ih =>
    obtain ⟨hnil, hfiles⟩ := ih (w := endpointDisconnectClient (w.setQueue queue) (wordToFd v))
      (count + 1) rfl
    refine ⟨hnil, fun fd => (hfiles fd).trans ?_⟩
    rw [List.map_cons, files_endpointDisconnectClient]
    by_cases hq : fd ∈ queue.map wordToFd
    · rw [if_pos hq, if_pos (List.mem_cons_of_mem _ hq)]
    · rw [if_neg hq]
      by_cases hv : fd = wordToFd v
      · rw [if_pos hv, if_pos (hv ▸ List.mem_cons_self)]
      · rw [if_neg hv, if_neg (List.not_mem_cons_of_ne_of_not_mem hv hq)]
        rfl

/-- What taking an entry off the queue and disconnecting its number preserve, the loop preserves. -/
lemma closeHungupsLoop_induct {P : World → Prop} {queue : Stack (BitVec 64)} (count : ℕ)
    (hqueue : w.endpoint.disconnectQueue = queue) (hw : P w)
    (hstep : ∀ u v queue, u.endpoint.disconnectQueue = v :: queue → P u →
      P (endpointDisconnectClient (u.setQueue queue) (wordToFd v))) :
    P (closeHungupsLoop queue count w).2 := by
  induction queue generalizing count w with
  | nil => exact hw
  | cons v queue ih => exact ih (count + 1) rfl (hstep w v queue hqueue hw)

/-- The number on top of the queue is loose, and the registry does without it. -/
lemma Registry.pop {v : BitVec 64} {queue : Stack (BitVec 64)} (hI : w.Registry)
    (hqueue : w.endpoint.disconnectQueue = v :: queue) :
    (w.setQueue queue).Registry ∧ (w.setQueue queue).Loose (wordToFd v) := by
  constructor
  · apply hI.setQueue
    intro v' hv'
    exact hI.queued v' (hqueue ▸ List.mem_cons_of_mem _ hv')
  · exact hI.queued v (hqueue ▸ List.mem_cons_self)

lemma Registry.closeHungups (hI : w.Registry) : (endpointCloseHungups w).2.Registry := by
  refine closeHungupsLoop_induct 0 rfl hI fun u v queue hqueue hI => ?_
  obtain ⟨hpop, hloose⟩ := hI.pop hqueue
  exact hpop.disconnectClient hloose

/-- What disconnecting a loose number preserves, the callback preserves on a list of them. -/
lemma foldl_disconnectAllForeach_induct {P : World → Prop} {l : List (BitVec 64)} (hw : P w)
    (hl : ∀ i ∈ l, ∃ fd, i = fdToWord fd ∧ w.Loose fd)
    (hstep : ∀ u fd, u.Loose fd → P u → P (endpointDisconnectClient u fd)) :
    P (l.foldl disconnectAllForeach w) := by
  induction l generalizing w with
  | nil => exact hw
  | cons i l ih =>
    obtain ⟨fd, rfl, hloose⟩ := hl i List.mem_cons_self
    rw [List.foldl_cons, disconnectAllForeach_fdToWord]
    refine ih (hstep w fd hloose hw) fun i hi => ?_
    obtain ⟨fd', rfl, hloose'⟩ := hl i (List.mem_cons_of_mem _ hi)
    exact ⟨fd', rfl, loose_endpointDisconnectClient hloose'⟩

/-- The members of the bit set are the indices of loose numbers. -/
lemma Registry.exists_of_mem_members (hI : w.Registry) {i : BitVec 64}
    (hi : i ∈ w.endpoint.connectedClientsFds.members) : ∃ fd, i = fdToWord fd ∧ w.Loose fd := by
  have hbit := (mem_members hI.size_le).mp hi
  obtain ⟨fd, rfl⟩ := hI.range i hbit
  exact ⟨fd, rfl, ((hI.recorded fd).bit.mp hbit).loose⟩

/-- A call of the callback changes the word of its own index only. -/
lemma keepsOthers_disconnectAllForeach :
    KeepsOthers (fun w : World => w.endpoint.connectedClientsFds) disconnectAllForeach where
  size _ _ hi := (size_boolsetSet ..).trans (max_eq_left hi)
  word _ _ _ hmajor := word_boolsetSet _ _ _ hmajor

/-- `endpoint_disconnect_all_clients` disconnects the members of the bit set, in order, and drops
the queue. -/
lemma endpointDisconnectAllClients_eq (hsize : w.endpoint.connectedClientsFds.size ≤ 2 ^ 58) :
    endpointDisconnectAllClients w =
      some ((w.endpoint.connectedClientsFds.members.foldl disconnectAllForeach w).setQueue []) := by
  rw [endpointDisconnectAllClients, boolsetForeach_eq keepsOthers_disconnectAllForeach hsize,
    Option.map_some, endpointClearDisconnectionQueue, stackDestroy_eq, stackCreate]

lemma Registry.disconnectAllClients (hI : w.Registry)
    (h : endpointDisconnectAllClients w = some w') : w'.Registry := by
  rw [endpointDisconnectAllClients_eq hI.size_le] at h
  cases h
  have hfold := foldl_disconnectAllForeach_induct hI (fun i hi => hI.exists_of_mem_members hi)
    fun u fd hloose hu => hu.disconnectClient hloose
  exact hfold.setQueue (by simp)

/-- The entry of a client can be added, unless the flags hold `EPOLLEXCLUSIVE`. -/
lemma addable_clientEvent :
    (createEpollEvent fd (eventsFlags ||| EPOLLRDHUP)).Addable ↔
      eventsFlags &&& EPOLLEXCLUSIVE = 0 := by
  have hrdhup : EPOLLRDHUP &&& EPOLLEXCLUSIVE = 0#32 := by decide
  have hnot : ¬ (eventsFlags ||| EPOLLRDHUP) &&& ~~~EPOLLEXCLUSIVE_OK_BITS = 0 := by
    intro h
    have hkept : (eventsFlags ||| EPOLLRDHUP) &&& EPOLLRDHUP = 0#32 := not_reported h (by decide)
    rw [or_and_self] at hkept
    exact absurd hkept (by decide)
  rw [EpollEvent.Addable, createEpollEvent, or_and_of_and_eq_zero hrdhup]
  exact or_iff_left hnot

/-- The entry that is listed for a client. -/
def listedEntry (fd : Fd) (eventsFlags : BitVec 32) : EpollEvent Fd :=
  (createEpollEvent fd (eventsFlags ||| EPOLLRDHUP)).watched

lemma rdhup_listedEntry : (listedEntry fd eventsFlags).events &&& EPOLLRDHUP = EPOLLRDHUP :=
  (EpollEvent.events_watched (by decide)).trans (or_and_self ..)

/-- What one turn of the loop of `endpoint_accept` does. -/
lemma acceptClient_spec (hI : w.Registry) (h : acceptClient w eventsFlags fd = some w') :
    w.kernel.files fd = none ∧
      w'.endpoint = { w.endpoint with
        connectedClientsFds := boolsetSet w.endpoint.connectedClientsFds (fdToWord fd) 1 } ∧
      (∃ c, w.kernel.backlog = c :: w'.kernel.backlog ∧
        w'.kernel.files = Function.update w.kernel.files fd (some (.conn c))) ∧
      ∀ fd', w'.kernel.interest w.endpoint.epSelector fd' =
        if fd' = fd ∧ eventsFlags &&& EPOLLEXCLUSIVE = 0 then some (listedEntry fd eventsFlags)
        else w.kernel.interest w.endpoint.epSelector fd' := by
  simp only [acceptClient, bind, Option.bind_eq_some_iff, pure, Option.some.injEq] at h
  obtain ⟨k, hk, rfl⟩ := h
  obtain ⟨c, backlog, hbacklog, hnone, hrest, hfiles, hinterest⟩ := Kernel.accept_spec hk
  have hselector : k.files w.endpoint.epSelector = some .epoll := by
    have hne : w.endpoint.epSelector ≠ fd := (loose_of_none hnone).ne hI.selector rfl
    rw [hfiles, Function.update_of_ne hne, hI.selector]
  have hopen : k.files fd ≠ none := by simp [hfiles]
  have hnew : k.interest w.endpoint.epSelector fd = none := by
    rw [hinterest, w.kernel.interest_eq_none hnone]
  refine ⟨hnone, rfl, ⟨c, ?_, Kernel.files_epollAdd.trans hfiles⟩, fun fd' => ?_⟩
  · rw [hbacklog, ← hrest]
    exact congrArg (c :: ·) Kernel.backlog_epollAdd.symm
  · by_cases hadd : eventsFlags &&& EPOLLEXCLUSIVE = 0
    · refine (Kernel.interest_epollAdd hselector hopen hnew (addable_clientEvent.mpr hadd)).trans ?_
      rw [hinterest]
      simp only [true_and, hadd, and_true]
      rfl
    · rw [if_neg fun heq => hadd heq.2, ← hinterest]
      have hsame : k.epollAdd w.endpoint.epSelector fd
          (createEpollEvent fd (eventsFlags ||| EPOLLRDHUP)) = k :=
        Kernel.epollAdd_of_not_addable (mt addable_clientEvent.mp hadd)
      exact congrArg (fun k => k.interest w.endpoint.epSelector fd') hsame

/-- An accepted descriptor enters the records. -/
lemma Registry.acceptClient (hI : w.Registry) (h : acceptClient w eventsFlags fd = some w') :
    w'.Registry := by
  obtain ⟨hnone, hendpoint, ⟨c, -, hfiles⟩, hinterest⟩ := acceptClient_spec hI h
  have hfd : w'.kernel.files fd = some (.conn c) := by rw [hfiles, Function.update_self]
  have haccepted : w'.Accepted fd := ⟨c, hfd⟩
  have hbit : ∀ i, w'.endpoint.connectedClientsFds.bit i =
      if i = fdToWord fd then true else w.endpoint.connectedClientsFds.bit i := by
    intro i
    rw [hendpoint]
    exact bit_boolsetSet ..
  have hselector : w'.endpoint.epSelector = w.endpoint.epSelector := by rw [hendpoint]
  have hshutdown : w'.endpoint.shutdownFd = w.endpoint.shutdownFd := by rw [hendpoint]
  refine hI.update (loose_of_none hnone) (by rw [hendpoint]) hselector hshutdown
    (fun v hv => by rwa [hendpoint] at hv) ?_ (fun fd' h => ?_) (fun i h => ?_) (fun fd' h => ?_)
    haccepted.loose ⟨?_, fun e he => ⟨?_, .inl haccepted⟩⟩
  · rw [hendpoint]
    exact size_boolsetSet_le hI.size_le _ _
  · rw [hfiles, Function.update_of_ne h]
  · rw [hbit, if_neg h]
  · rw [hinterest, if_neg fun heq => h heq.1]
  · rw [hbit, if_pos rfl]
    exact iff_of_true rfl haccepted
  · rw [hselector, hinterest] at he
    split_ifs at he
    · cases he
      rfl
    · exact ((hI.recorded fd).entry e he).1

/-- A turn of the loop loses a connection and ends, or accepts one and goes on. -/
lemma acceptLoop_cons {newFdsSize : ℤ} {answers newFds : List Fd} {count : ℕ}
    {clientAddressLen : BitVec 32} {result : ℕ × List Fd × World} :
    acceptLoop eventsFlags newFdsSize (fd :: answers) clientAddressLen count newFds w =
        some result ↔
      (count < newFdsSize ∧ 0 ≤ fd.toInt) ∧
        ((clientAddressLen.toInt < 0 ∧ answers = [] ∧
            ∃ k, w.kernel.lose w.endpoint.srvFd fd = some k ∧
              result = (count, newFds, { w with kernel := k })) ∨
          (0 ≤ clientAddressLen.toInt ∧ count < newFds.length ∧
            ∃ u, acceptClient w eventsFlags fd = some u ∧
              acceptLoop eventsFlags newFdsSize answers sizeofSockaddrIn (count + 1)
                (newFds.set count fd) u = some result)) := by
  rw [acceptLoop, Option.ite_none_right_eq_some]
  refine and_congr_right fun _ => ?_
  by_cases hlen : clientAddressLen.toInt < 0
  · have hnot : ¬ 0 ≤ clientAddressLen.toInt := by omega
    simp only [hlen, hnot, if_true, true_and, false_and, or_false, Option.bind_eq_bind,
      Option.bind_eq_some_iff, Option.ite_none_right_eq_some, Option.some.injEq]
    constructor
    · rintro ⟨k, hk, hnil, rfl⟩
      exact ⟨hnil, k, hk, rfl⟩
    · rintro ⟨hnil, k, hk, rfl⟩
      exact ⟨k, hk, hnil, rfl⟩
  · have hpos : 0 ≤ clientAddressLen.toInt := by omega
    simp only [hlen, hpos, if_false, true_and, false_and, false_or, Option.bind_eq_bind,
      Option.bind_eq_some_iff, Option.ite_none_right_eq_some]

/-- What one turn preserves, the loop of `endpoint_accept` preserves. -/
lemma acceptLoop_induct {P : World → Prop} {newFdsSize : ℤ} {answers newFds : List Fd} {count : ℕ}
    {clientAddressLen : BitVec 32} {result : ℕ × List Fd × World} (hw : P w)
    (hstep : ∀ fd ∈ answers, ∀ u u', P u → acceptClient u eventsFlags fd = some u' → P u')
    (hlose : ∀ fd u k, P u → u.kernel.lose u.endpoint.srvFd fd = some k → P { u with kernel := k })
    (h : acceptLoop eventsFlags newFdsSize answers clientAddressLen count newFds w = some result) :
    P result.2.2 := by
  induction answers generalizing clientAddressLen count newFds w with
  | nil =>
    cases h
    exact hw
  | cons fd answers ih =>
    obtain ⟨-, ⟨-, -, k, hk, rfl⟩ | ⟨-, -, u, hu, h⟩⟩ := acceptLoop_cons.mp h
    · exact hlose fd w k hw hk
    · apply ih (hstep fd List.mem_cons_self w u hw hu) _ h
      intro fd' hfd'
      exact hstep fd' (List.mem_cons_of_mem _ hfd')

lemma endpointAccept_induct {P : World → Prop} {newFds answers : List Fd} {newFdsSize : ℤ}
    {prior clientAddressLen : BitVec 32} {event : Option (BitVec 32)}
    {result : ℤ × List Fd × World} (hw : P w)
    (hstep : ∀ fd ∈ answers, ∀ u u', P u → acceptClient u eventsFlags fd = some u' → P u')
    (hlose : ∀ fd u k, P u → u.kernel.lose u.endpoint.srvFd fd = some k → P { u with kernel := k })
    (h : endpointAccept w newFds newFdsSize eventsFlags prior clientAddressLen event answers =
      some result) : P result.2.2 := by
  unfold endpointAccept at h
  split_ifs at h
  · cases h
    exact hw
  · obtain ⟨r, hr, rfl⟩ := Option.map_eq_some_iff.mp h
    exact acceptLoop_induct hw hstep hlose hr

/-- `endpoint_accept` keeps the registry and the queue, and gives a meaning to the descriptors that
`accept` returned only. -/
lemma Registry.accept {newFds answers : List Fd} {newFdsSize : ℤ}
    {prior clientAddressLen : BitVec 32} {event : Option (BitVec 32)}
    {result : ℤ × List Fd × World} (hI : w.Registry)
    (h : endpointAccept w newFds newFdsSize eventsFlags prior clientAddressLen event answers =
      some result) :
    result.2.2.Registry ∧ result.2.2.endpoint.disconnectQueue = w.endpoint.disconnectQueue ∧
      ∀ fd ∉ answers, result.2.2.kernel.files fd = w.kernel.files fd := by
  apply endpointAccept_induct (P := fun u => u.Registry ∧
    u.endpoint.disconnectQueue = w.endpoint.disconnectQueue ∧
      ∀ fd ∉ answers, u.kernel.files fd = w.kernel.files fd) _ _ _ h
  · exact ⟨hI, rfl, fun _ _ => rfl⟩
  · rintro fd hfd u u' ⟨hu, hqueue, hfiles⟩ hclient
    obtain ⟨-, hendpoint, ⟨c, -, hupdate⟩, -⟩ := acceptClient_spec hu hclient
    refine ⟨hu.acceptClient hclient, by rw [hendpoint, hqueue], ?_⟩
    intro fd' hfd'
    rw [hupdate, Function.update_of_ne (ne_of_mem_of_not_mem hfd hfd').symm, hfiles fd' hfd']
  · rintro fd u k ⟨hu, hqueue, hfiles⟩ hlose
    obtain ⟨-, -, -, -, -, -, hkept, -⟩ := Kernel.lose_spec hlose
    refine ⟨hu.lose hlose, hqueue, fun fd' hfd' => ?_⟩
    exact (congrFun hkept fd').trans (hfiles fd' hfd')

/-- With a negative length, no descriptor gets a meaning. -/
lemma files_endpointAccept_of_neg {newFds answers : List Fd} {newFdsSize : ℤ}
    {prior clientAddressLen : BitVec 32} {event : Option (BitVec 32)}
    {result : ℤ × List Fd × World} (hlen : clientAddressLen.toInt < 0)
    (h : endpointAccept w newFds newFdsSize eventsFlags prior clientAddressLen event answers =
      some result) : result.2.2.kernel.files = w.kernel.files := by
  unfold endpointAccept at h
  split_ifs at h
  · cases h
    rfl
  · obtain ⟨r, hr, rfl⟩ := Option.map_eq_some_iff.mp h
    cases answers with
    | nil =>
      cases hr
      rfl
    | cons fd answers =>
      obtain ⟨-, ⟨-, -, k, hk, rfl⟩ | ⟨hpos, -⟩⟩ := acceptLoop_cons.mp hr
      · obtain ⟨-, -, -, -, -, -, hfiles, -⟩ := Kernel.lose_spec hk
        exact hfiles
      · exact absurd hpos (Int.not_le.mpr hlen)

/-- Reports of `EPOLLRDHUP` are about accepted descriptors. -/
lemma Registry.accepted_of_report (hI : w.Registry) {maxevents : ℕ} {k : Kernel Fd}
    {batch : List (Fd × BitVec 32)} {reports : List (EpollEvent Fd)} {report : EpollEvent Fd}
    (h : w.kernel.epollWait w.endpoint.epSelector maxevents batch = some (reports, k))
    (hr : report ∈ reports) (hrdhup : report.events &&& EPOLLRDHUP ≠ 0) :
    (report.data, report.events) ∈ batch ∧ w.Accepted report.data := by
  obtain ⟨fd, e, hbatch, he, hdata, hevents⟩ := Kernel.mem_epollWait h hr
  obtain ⟨hedata, howner⟩ := (hI.recorded fd).entry e he
  rw [hdata, hedata]
  refine ⟨hbatch, howner.resolve_right fun hshutdown => ?_⟩
  exact hrdhup (hevents _ hshutdown.2)

/-- The loop of `endpoint_wait_event` changes the queue only, and puts on it the descriptors whose
event mask holds `EPOLLRDHUP`. -/
lemma waitEventLoop_spec {events : List (EpollEvent Fd)} {n : ℕ} {socketFds : List Fd}
    {eventFlags : List (BitVec 32)} {result : List Fd × List (BitVec 32) × World}
    (h : waitEventLoop events n socketFds eventFlags w = some result) :
    ∃ queue, result.2.2 = w.setQueue queue ∧ ∀ v, v ∈ queue ↔ v ∈ w.endpoint.disconnectQueue ∨
      ∃ event ∈ events, event.events &&& EPOLLRDHUP ≠ 0 ∧ v = fdToWord event.data := by
  induction events generalizing n socketFds eventFlags w with
  | nil =>
    cases h
    exact ⟨_, rfl, by simp⟩
  | cons event events ih =>
    simp only [waitEventLoop] at h
    split_ifs at h with hroom hrdhup
    · obtain ⟨queue, hresult, hqueue⟩ := ih h
      refine ⟨queue, hresult, fun v => (hqueue v).trans ?_⟩
      have hpush : v ∈ (endpointEnqueueClientForDisconnection w event.data).endpoint.disconnectQueue
          ↔ v = fdToWord event.data ∨ v ∈ w.endpoint.disconnectQueue := List.mem_cons
      rw [hpush, List.exists_mem_cons_iff]
      tauto
    · obtain ⟨queue, hresult, hqueue⟩ := ih h
      refine ⟨queue, hresult, fun v => (hqueue v).trans ?_⟩
      rw [List.exists_mem_cons_iff]
      tauto

/-- `endpoint_wait_event` keeps the registry, and what it puts on the queue are accepted
descriptors that the batch reported `EPOLLRDHUP` for. -/
lemma Registry.waitEvent {socketFds : List Fd} {eventFlags : List (BitVec 32)} {maxEvents : ℤ}
    {answer : Option (List (Fd × BitVec 32))} {result : ℤ × List Fd × List (BitVec 32) × World}
    (hI : w.Registry)
    (h : endpointWaitEvent w socketFds eventFlags maxEvents answer = some result) :
    result.2.2.2.Registry ∧ result.2.2.2.kernel =
        w.kernel.disarm w.endpoint.epSelector ((answer.getD []).map Prod.fst) ∧
      ∀ v ∈ result.2.2.2.endpoint.disconnectQueue, v ∈ w.endpoint.disconnectQueue ∨
        ∃ events, (wordToFd v, events) ∈ answer.getD [] ∧ events &&& EPOLLRDHUP ≠ 0 ∧
          w.Accepted (wordToFd v) := by
  unfold endpointWaitEvent at h
  cases answer with
  | none =>
    cases h
    exact ⟨hI, Kernel.disarm_nil.symm, fun v hv => .inl hv⟩
  | some batch =>
    simp only [Option.ite_none_right_eq_some, bind, Option.bind_eq_some_iff, pure,
      Option.some.injEq] at h
    obtain ⟨-, ⟨events, k⟩, hevents, r, hr, rfl⟩ := h
    obtain rfl := Kernel.epollWait_kernel hevents
    obtain ⟨queue, hresult, hqueue⟩ := waitEventLoop_spec hr
    have hnew : ∀ v ∈ queue, v ∈ w.endpoint.disconnectQueue ∨
        ∃ events, (wordToFd v, events) ∈ batch ∧ events &&& EPOLLRDHUP ≠ 0 ∧
          w.Accepted (wordToFd v) := by
      intro v hv
      refine ((hqueue v).mp hv).imp id ?_
      rintro ⟨event, hmem, hrdhup, rfl⟩
      obtain ⟨hbatch, haccepted⟩ := hI.accepted_of_report hevents hmem hrdhup
      rw [wordToFd_fdToWord]
      exact ⟨event.events, hbatch, hrdhup, haccepted⟩
    obtain ⟨socketFds', eventFlags', u⟩ := r
    obtain rfl : u = World.setQueue _ queue := hresult
    refine ⟨(hI.disarm _).setQueue fun v hv => ?_, rfl, hnew⟩
    rcases hnew v hv with hold | ⟨_, -, -, haccepted⟩
    · exact hI.queued v hold
    · exact haccepted.loose

/-! ### Creation -/

lemma openFd_spec {k k' : Kernel Fd} {file : File} (h : openFd k fd file = some k') :
    k.files fd = none ∧ k'.files = Function.update k.files fd (some file) ∧
      k'.interest = k.interest := by
  unfold openFd at h
  split_ifs at h
  obtain ⟨hnone, -, hfiles, hinterest⟩ := Kernel.openFile_spec h
  exact ⟨hnone, hfiles, hinterest⟩

lemma ne_of_openFd {k k' k'' : Kernel Fd} {file file' : File} (h : openFd k fd file = some k')
    (h' : openFd k' fd' file' = some k'') : fd' ≠ fd := by
  intro heq
  obtain ⟨-, hfiles, -⟩ := openFd_spec h
  obtain ⟨hnone, -, -⟩ := openFd_spec h'
  rw [heq, hfiles, Function.update_self] at hnone
  cases hnone

/-- What `endpoint_create` leaves: four new descriptors, and one entry for the event descriptor on
the interest list of the selector. -/
lemma endpointCreate_spec {k : Kernel Fd} {srvFd epListener epSelector shutdownFd : Fd}
    (h : endpointCreate k srvFd epListener epSelector shutdownFd = some w) :
    w.endpoint = ⟨srvFd, epListener, epSelector, shutdownFd, boolsetCreate, stackCreate⟩ ∧
      (∀ fd, w.kernel.files fd = if fd = shutdownFd then some .event
        else if fd = epSelector then some .epoll else if fd = epListener then some .epoll
        else if fd = srvFd then some .listener else k.files fd) ∧
      shutdownFd ≠ epSelector ∧ srvFd ∉ [shutdownFd, epSelector, epListener] ∧
      ∀ fd, w.kernel.interest epSelector fd =
        if fd = shutdownFd then some (createEpollEvent shutdownFd EPOLLIN).watched else none := by
  simp only [endpointCreate, bind, Option.bind_eq_some_iff, pure, Option.some.injEq] at h
  obtain ⟨k₁, h₁, k₂, h₂, k₃, h₃, k₄, h₄, hw⟩ := h
  obtain ⟨-, hf₁, hi₁⟩ := openFd_spec h₁
  obtain ⟨-, hf₂, hi₂⟩ := openFd_spec h₂
  obtain ⟨hn₃, hf₃, hi₃⟩ := openFd_spec h₃
  obtain ⟨hn₄, hf₄, hi₄⟩ := openFd_spec h₄
  have hls : epListener ≠ srvFd := ne_of_openFd h₁ h₂
  have hsl : epSelector ≠ epListener := ne_of_openFd h₂ h₃
  have hts : shutdownFd ≠ epSelector := ne_of_openFd h₃ h₄
  have hss : epSelector ≠ srvFd := by
    rintro rfl
    simp [hf₂, hf₁, hsl] at hn₃
  have htl : shutdownFd ≠ epListener := by
    rintro rfl
    simp [hf₃, hf₂, hts] at hn₄
  have htr : shutdownFd ≠ srvFd := by
    rintro rfl
    simp [hf₃, hf₂, hf₁, hts, htl] at hn₄
  have hfiles : ∀ fd, k₄.files fd = if fd = shutdownFd then some .event
      else if fd = epSelector then some .epoll else if fd = epListener then some .epoll
      else if fd = srvFd then some .listener else k.files fd := by
    intro fd
    simp only [hf₄, hf₃, hf₂, hf₁, Function.update_apply]
  have hnone : ∀ fd, k₄.interest epSelector fd = none := by
    intro fd
    have hnew : k.files epSelector = none := by simpa [hf₂, hf₁, hsl, hss] using hn₃
    rw [hi₄, hi₃, hi₂, hi₁, k.interest_eq_none_of_ne (by simp [hnew])]
  subst hw
  refine ⟨rfl, fun fd => ?_, hts, by simp [htr.symm, hss.symm, hls.symm], fun fd => ?_⟩
  · simp only [Kernel.files_epollAdd, hfiles]
  · rw [Kernel.interest_epollAdd]
    · simp [Kernel.interest_epollAdd_of_ne hsl, hnone]
    · simp [hfiles, hts.symm]
    · simp [hfiles]
    · rw [Kernel.interest_epollAdd_of_ne hsl, Kernel.interest_epollAdd_of_ne hsl, hnone]
    · exact .inl (by decide : EPOLLIN &&& EPOLLEXCLUSIVE = 0)

/-- A created endpoint has no clients. -/
lemma not_accepted_create {k : Kernel Fd} {srvFd epListener epSelector shutdownFd : Fd}
    (hconn : ∀ fd c, k.files fd ≠ some (.conn c))
    (h : endpointCreate k srvFd epListener epSelector shutdownFd = some w) : ¬ w.Accepted fd := by
  obtain ⟨-, hfiles, -⟩ := endpointCreate_spec h
  rintro ⟨c, hc⟩
  rw [hfiles] at hc
  split_ifs at hc
  · cases hc
  · cases hc
  · cases hc
  · cases hc
  · exact hconn fd c hc

lemma Registry.create {k : Kernel Fd} {srvFd epListener epSelector shutdownFd : Fd}
    (hconn : ∀ fd c, k.files fd ≠ some (.conn c))
    (h : endpointCreate k srvFd epListener epSelector shutdownFd = some w) : w.Registry := by
  obtain ⟨hendpoint, hfiles, hts, hsrv, hinterest⟩ := endpointCreate_spec h
  simp only [List.mem_cons, List.not_mem_nil, or_false, not_or] at hsrv
  constructor
  · rw [hendpoint, hfiles, if_neg hsrv.1, if_neg hsrv.2.1, if_neg hsrv.2.2, if_pos rfl]
  · rw [hendpoint, hfiles, if_neg hts.symm, if_pos rfl]
  · rw [hendpoint, hfiles, if_pos rfl]
  · rw [hendpoint]
    exact Nat.one_le_two_pow
  · intro i hi
    rw [hendpoint, bit_boolsetCreate] at hi
    cases hi
  · intro fd
    constructor
    · rw [hendpoint, bit_boolsetCreate]
      exact iff_of_false Bool.false_ne_true (not_accepted_create hconn h)
    · intro e he
      rw [hendpoint, hinterest] at he
      split_ifs at he with hfd
      cases he
      rw [hendpoint]
      refine ⟨hfd.symm, .inr ⟨hfd, (EpollEvent.events_watched (by decide)).trans ?_⟩⟩
      exact (by decide : EPOLLIN &&& EPOLLRDHUP = 0)
  · rw [hendpoint]
    simp [stackCreate]

end World

/-! ### Sequences of calls -/

variable {s s' : Session} {call : EndpointCall}

/-- Every complete call keeps the registry. -/
theorem World.Registry.step (hI : s.Registry) (hstep : s.step call = some s') : s'.Registry := by
  cases call with
  | arrive =>
    cases hstep
    exact hI.congr rfl (fun _ _ e he => ⟨e, he, rfl, id⟩) rfl
  | accept =>
    obtain ⟨result, hresult, rfl⟩ := Option.map_eq_some_iff.mp hstep
    exact (hI.accept hresult).1
  | waitEvent =>
    obtain ⟨result, hresult, rfl⟩ := Option.map_eq_some_iff.mp hstep
    exact (hI.waitEvent hresult).1
  | closeHungups =>
    cases hstep
    exact hI.closeHungups
  | disconnectClient socketFd =>
    simp only [Session.step] at hstep
    split_ifs at hstep with hbit
    cases hstep
    exact hI.disconnectClient ((hI.recorded socketFd).bit.mp hbit).loose
  | disconnectAllClients =>
    obtain ⟨w, hw, rfl⟩ := Option.map_eq_some_iff.mp hstep
    exact hI.disconnectAllClients hw

lemma registry_of_reachable (h : endpointSystem.Reachable s) : s.Registry :=
  h.invariant (fun _ ⟨_, _, _, _, _, hconn, hcreate, _⟩ => World.Registry.create hconn hcreate)
    fun _ _ _ hI hstep => hI.step hstep

end C10K
