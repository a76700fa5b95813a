import Mathlib

/-!
# Descriptors, interest lists and connections of one process

A descriptor is a number that denotes an open file. The kernel hands out numbers that are unused
and takes them back at `close`, so one number may denote many files in the course of a run; a
connection, once accepted, keeps its own identity. Closing a number takes it off every interest
list. Calls on a number that denotes nothing, or on an entry that is not there, change nothing.

An `accept` that cannot write the peer's address fails after it has taken a connection from the
line: the connection is lost. An entry with `EPOLLONESHOT` watches no event once it was reported.

Which unused number the kernel hands out, and what an epoll instance reports, is left open.
-/

def EPOLLIN : BitVec 32 := 0x001
def EPOLLOUT : BitVec 32 := 0x004
def EPOLLERR : BitVec 32 := 0x008
def EPOLLHUP : BitVec 32 := 0x010
def EPOLLRDHUP : BitVec 32 := 0x2000
def EPOLLEXCLUSIVE : BitVec 32 := 0x10000000
def EPOLLWAKEUP : BitVec 32 := 0x20000000
def EPOLLONESHOT : BitVec 32 := 0x40000000
def EPOLLET : BitVec 32 := 0x80000000

/-- The flags of an entry that are no events. -/
def EP_PRIVATE_BITS : BitVec 32 := EPOLLWAKEUP ||| EPOLLONESHOT ||| EPOLLET ||| EPOLLEXCLUSIVE

/-- What an entry with `EPOLLEXCLUSIVE` may hold. -/
def EPOLLEXCLUSIVE_OK_BITS : BitVec 32 :=
  EPOLLIN ||| EPOLLOUT ||| EPOLLERR ||| EPOLLHUP ||| EPOLLWAKEUP ||| EPOLLET ||| EPOLLEXCLUSIVE

lemma or_and_self {n : ℕ} (events mask : BitVec n) : (events ||| mask) &&& mask = mask := by
  ext i hi
  rw [BitVec.getElem_and, BitVec.getElem_or]
  cases events[i] <;> cases mask[i] <;> rfl

/-- Other bits do not matter. -/
lemma or_and_of_and_eq_zero {n : ℕ} {events other mask : BitVec n} (h : other &&& mask = 0#n) :
    (events ||| other) &&& mask = events &&& mask := by
  rw [BitVec.and_or_distrib_right, h, BitVec.or_zero]

/-- An event that is not watched is not reported. -/
lemma not_reported {n : ℕ} {events report mask : BitVec n} (hreport : report &&& ~~~events = 0#n)
    (h : events &&& mask = 0#n) : report &&& mask = 0#n := by
  have hwatched : report = report &&& events := by
    calc report
      _ = report &&& (events ||| ~~~events) := by rw [BitVec.or_not_self, BitVec.and_allOnes]
      _ = report &&& events := by rw [BitVec.and_or_distrib_left, hreport, BitVec.or_zero]
  rw [hwatched, BitVec.and_assoc, h, BitVec.and_zero]

/-- What an open descriptor denotes. -/
inductive File where
  | listener
  | epoll
  | event
  | conn (c : ℕ)
  | other
  deriving DecidableEq

def File.isConn : File → Bool
  | .conn _ => true
  | _       => false

/-- An entry of an interest list, and what is reported for it. -/
structure EpollEvent (F : Type*) where
  events : BitVec 32
  data : F
  deriving DecidableEq

namespace EpollEvent

variable {F : Type*}

/-- The entry can be added: with `EPOLLEXCLUSIVE`, only some other flags are allowed. -/
def Addable (e : EpollEvent F) : Prop :=
  e.events &&& EPOLLEXCLUSIVE = 0 ∨ e.events &&& ~~~EPOLLEXCLUSIVE_OK_BITS = 0

instance (e : EpollEvent F) : Decidable e.Addable := inferInstanceAs (Decidable (_ ∨ _))

/-- The entry as it is listed: errors and hang-ups are always watched. -/
def watched (e : EpollEvent F) : EpollEvent F :=
  { e with events := e.events ||| EPOLLERR ||| EPOLLHUP }

/-- The events that the entry watches. -/
def reportable (e : EpollEvent F) : BitVec 32 := e.events &&& ~~~EP_PRIVATE_BITS

/-- The entry when it was reported: with `EPOLLONESHOT`, no event is watched any more. -/
def disarmed (e : EpollEvent F) : EpollEvent F :=
  if e.events &&& EPOLLONESHOT = 0 then e else { e with events := e.events &&& EP_PRIVATE_BITS }

variable {e : EpollEvent F} {mask : BitVec 32}

@[simp] lemma data_watched : e.watched.data = e.data := rfl

@[simp] lemma data_disarmed : e.disarmed.data = e.data := by
  unfold disarmed
  split_ifs <;> rfl

lemma events_watched (h : (EPOLLERR ||| EPOLLHUP) &&& mask = 0#32) :
    e.watched.events &&& mask = e.events &&& mask := by
  rw [watched, BitVec.or_assoc]
  exact or_and_of_and_eq_zero h

lemma disarmed_of_and_eq_zero (h : e.events &&& EPOLLONESHOT = 0) : e.disarmed = e := if_pos h

/-- No event is watched that was not watched. -/
lemma events_disarmed (h : e.events &&& mask = 0#32) : e.disarmed.events &&& mask = 0#32 := by
  unfold disarmed
  split_ifs
  · exact h
  · rw [BitVec.and_assoc, BitVec.and_comm EP_PRIVATE_BITS, ← BitVec.and_assoc, h, BitVec.zero_and]

lemma disarmed_disarmed : e.disarmed.disarmed = e.disarmed := by
  by_cases h : e.events &&& EPOLLONESHOT = 0
  · rw [disarmed_of_and_eq_zero h, disarmed_of_and_eq_zero h]
  · have hevents : e.disarmed.events = e.events &&& EP_PRIVATE_BITS := by rw [disarmed, if_neg h]
    have hself : (e.events &&& EP_PRIVATE_BITS) &&& EP_PRIVATE_BITS =
        e.events &&& EP_PRIVATE_BITS := by rw [BitVec.and_assoc, BitVec.and_self]
    have hagain : e.disarmed.disarmed.events = e.disarmed.events := by
      rw [disarmed]
      split_ifs
      · rfl
      · rw [hevents, hself]
    have hdata : e.disarmed.disarmed.data = e.disarmed.data := data_disarmed
    exact congrArg₂ EpollEvent.mk hagain hdata

/-- An entry with `EPOLLONESHOT` that was reported watches no event. -/
lemma events_disarmed_of_ne (h : e.events &&& EPOLLONESHOT ≠ 0)
    (hmask : EP_PRIVATE_BITS &&& mask = 0#32) : e.disarmed.events &&& mask = 0#32 := by
  rw [disarmed, if_neg h, BitVec.and_assoc, hmask, BitVec.and_zero]

end EpollEvent

variable {F : Type*} {files : F → Option File} {interest : F → F → Option (EpollEvent F)}
variable {unopened : List ℕ} {arrived : ℕ}

/-- Interest lists hold open numbers only, no connection is open twice or both open and among the
unopened ones, and all of them are connections that came in. -/
structure Kernel.Valid (files : F → Option File) (interest : F → F → Option (EpollEvent F))
    (unopened : List ℕ) (arrived : ℕ) : Prop where
  listed : ∀ {ep fd e}, interest ep fd = some e → files ep = some .epoll ∧ files fd ≠ none
  unique : ∀ {fd fd' c}, files fd = some (.conn c) → files fd' = some (.conn c) → fd = fd'
  known : ∀ {fd c}, files fd = some (.conn c) → c < arrived
  nodup : unopened.Nodup
  waiting : ∀ {c}, c ∈ unopened → c < arrived ∧ ∀ fd, files fd ≠ some (.conn c)

/-- The table of descriptors, the interest list of each epoll instance, the connections that wait to
be accepted, and those that an `accept` took and lost. `arrived` counts the connections that ever
came in; `shut` and `closed` list the numbers that were shut down and closed, each with what it
denoted. -/
structure Kernel (F : Type*) where
  files : F → Option File
  interest : F → F → Option (EpollEvent F)
  backlog : List ℕ
  lost : List ℕ
  arrived : ℕ
  shut : List (F × Option File)
  closed : List (F × Option File)
  valid : Kernel.Valid files interest (backlog ++ lost) arrived

namespace Kernel

/-- The kernel before the process opened anything. -/
def initial : Kernel F where
  files _ := none
  interest _ _ := none
  backlog := []
  lost := []
  arrived := 0
  shut := []
  closed := []
  valid := by constructor <;> simp

/-! ### What the system calls keep -/

variable {ep fd : F} {e : EpollEvent F} {file : File} {c : ℕ}

section Valid

lemma Valid.perm {unopened' : List ℕ} (h : Valid files interest unopened arrived)
    (hperm : unopened'.Perm unopened) : Valid files interest unopened' arrived where
  listed := h.listed
  unique := h.unique
  known := h.known
  nodup := hperm.nodup_iff.mpr h.nodup
  waiting hc := h.waiting (hperm.mem_iff.mp hc)

/-- A new connection is not open. -/
lemma Valid.arrive (h : Valid files interest unopened arrived) :
    Valid files interest (unopened ++ [arrived]) (arrived + 1) where
  listed := h.listed
  unique := h.unique
  known hc := Nat.lt_succ_of_lt (h.known hc)
  nodup := by
    refine List.Nodup.append h.nodup (List.nodup_singleton _) ?_
    intro c hc hc'
    exact absurd (h.waiting hc).1 (by simp [List.mem_singleton.mp hc'])
  waiting {c} hc := by
    rcases List.mem_append.mp hc with hc | hc
    · exact ⟨Nat.lt_succ_of_lt (h.waiting hc).1, (h.waiting hc).2⟩
    · rw [List.mem_singleton.mp hc]
      exact ⟨Nat.lt_succ_self _, fun fd hfd => absurd (h.known hfd) (lt_irrefl _)⟩

/-- The first connection leaves the unopened ones. -/
lemma Valid.tail (h : Valid files interest (c :: unopened) arrived) :
    Valid files interest unopened arrived where
  listed := h.listed
  unique := h.unique
  known := h.known
  nodup := h.nodup.of_cons
  waiting hc := h.waiting (List.mem_cons_of_mem _ hc)

/-- Other entries for open numbers on the lists of epoll instances. -/
lemma Valid.relist {interest' : F → F → Option (EpollEvent F)}
    (h : Valid files interest unopened arrived)
    (h' : ∀ {ep fd e}, interest' ep fd = some e → files ep = some .epoll ∧ files fd ≠ none) :
    Valid files interest' unopened arrived where
  listed := h'
  unique := h.unique
  known := h.known
  nodup := h.nodup
  waiting := h.waiting

variable [DecidableEq F]

/-- An unused number denotes a file that is no open or unopened connection. -/
lemma Valid.assign (h : Valid files interest unopened arrived) (hfd : files fd = none)
    (hfile : ∀ c, file = .conn c → c < arrived ∧ c ∉ unopened ∧ ∀ fd, files fd ≠ some (.conn c)) :
    Valid (Function.update files fd (some file)) interest unopened arrived where
  listed {ep fd' e} he := by
    obtain ⟨hep, hfd'⟩ := h.listed he
    have hne : ep ≠ fd := fun heq => by simp [heq, hfd] at hep
    have hne' : fd' ≠ fd := fun heq => hfd' (heq ▸ hfd)
    rw [Function.update_of_ne hne, Function.update_of_ne hne']
    exact ⟨hep, hfd'⟩
  unique {a b c} ha hb := by
    rw [Function.update_apply] at ha hb
    split_ifs at ha hb with hafd hbfd hbfd
    · exact hafd.trans hbfd.symm
    · exact absurd hb ((hfile c (Option.some.inj ha)).2.2 b)
    · exact absurd ha ((hfile c (Option.some.inj hb)).2.2 a)
    · exact h.unique ha hb
  known {a c} ha := by
    rw [Function.update_apply] at ha
    split_ifs at ha
    · exact (hfile c (Option.some.inj ha)).1
    · exact h.known ha
  nodup := h.nodup
  waiting {c} hc := by
    refine ⟨(h.waiting hc).1, fun a ha => ?_⟩
    rw [Function.update_apply] at ha
    split_ifs at ha
    · exact (hfile c (Option.some.inj ha)).2.1 hc
    · exact (h.waiting hc).2 a ha

/-- The first of the unopened connections gets an unused number. -/
lemma Valid.accept (h : Valid files interest (c :: unopened) arrived) (hfd : files fd = none) :
    Valid (Function.update files fd (some (.conn c))) interest unopened arrived := by
  refine h.tail.assign hfd fun c' hc => ?_
  obtain rfl := File.conn.inj hc
  obtain ⟨hlt, hclosed⟩ := h.waiting List.mem_cons_self
  exact ⟨hlt, (List.nodup_cons.mp h.nodup).1, hclosed⟩

/-- A number denotes nothing any more, and every entry for it or on it is gone. -/
lemma Valid.release (h : Valid files interest unopened arrived) (fd : F) :
    Valid (Function.update files fd none)
      (fun ep fd' => if ep = fd ∨ fd' = fd then none else interest ep fd') unopened arrived where
  listed {ep fd' e} he := by
    split_ifs at he with hne
    rw [not_or] at hne
    rw [Function.update_of_ne hne.1, Function.update_of_ne hne.2]
    exact h.listed he
  unique {a b c} ha hb := by
    rw [Function.update_apply] at ha hb
    split_ifs at ha hb
    exact h.unique ha hb
  known {a c} ha := by
    rw [Function.update_apply] at ha
    split_ifs at ha
    exact h.known ha
  nodup := h.nodup
  waiting {c} hc := by
    refine ⟨(h.waiting hc).1, fun a ha => ?_⟩
    rw [Function.update_apply] at ha
    split_ifs at ha
    exact (h.waiting hc).2 a ha

end Valid

/-! ### System calls -/

/-- A connection comes in. -/
def arrive (k : Kernel F) : Kernel F :=
  { k with
    backlog := k.backlog ++ [k.arrived]
    arrived := k.arrived + 1
    valid := k.valid.arrive.perm <| by
      rw [List.append_assoc, List.append_assoc]
      exact List.perm_append_comm.append_left _ }

/-- `shutdown`: the connection stays open and carries nothing any more. -/
def shutdown (k : Kernel F) (fd : F) : Kernel F :=
  { k with shut := k.shut ++ [(fd, k.files fd)] }

section Table

variable [DecidableEq F]

/-- A new file that is no connection gets the unused number `fd`. -/
def openFile (k : Kernel F) (fd : F) (file : File) : Option (Kernel F) :=
  if h : k.files fd = none ∧ file.isConn = false then
    some { k with
      files := Function.update k.files fd (some file)
      valid := k.valid.assign h.1 fun c hc => by cases hc ▸ h.2 }
  else none

/-- `accept`: the connection that waited longest gets the unused number `fd`. -/
def accept (k : Kernel F) (srv fd : F) : Option (Kernel F) :=
  match hb : k.backlog with
  | []           => none
  | c :: backlog =>
    if h : k.files srv = some .listener ∧ k.files fd = none then
      some { k with
        files := Function.update k.files fd (some (.conn c))
        backlog
        valid := Valid.accept
          (show Valid _ _ (c :: backlog ++ k.lost) _ from hb ▸ k.valid) h.2 }
    else none

/-- `accept` that fails when the connection that waited longest already has the unused number `fd`:
the connection is closed, and the number is unused again. -/
def lose (k : Kernel F) (srv fd : F) : Option (Kernel F) :=
  match hb : k.backlog with
  | []           => none
  | c :: backlog =>
    if k.files srv = some .listener ∧ k.files fd = none then
      some { k with
        backlog
        lost := k.lost ++ [c]
        valid := Valid.perm
          (show Valid _ _ (c :: backlog ++ k.lost) _ from hb ▸ k.valid) <| by
            rw [← List.append_assoc]
            exact List.perm_append_singleton c _ }
    else none

/-- `epoll_ctl` with `EPOLL_CTL_ADD`: an open number is listed unless it is listed already, or the
entry cannot be added. -/
def epollAdd (k : Kernel F) (ep fd : F) (e : EpollEvent F) : Kernel F :=
  if h : k.files ep = some .epoll ∧ k.files fd ≠ none ∧ k.interest ep fd = none ∧ e.Addable then
    { k with
      interest := fun ep' fd' =>
        if ep' = ep ∧ fd' = fd then some e.watched else k.interest ep' fd'
      valid := k.valid.relist fun {ep' fd' e'} he => by
        split_ifs at he with heq
        · exact heq.1 ▸ heq.2 ▸ ⟨h.1, h.2.1⟩
        · exact k.valid.listed he }
  else k

/-- `epoll_ctl` with `EPOLL_CTL_DEL`. -/
def epollDel (k : Kernel F) (ep fd : F) : Kernel F :=
  { k with
    interest := fun ep' fd' => if ep' = ep ∧ fd' = fd then none else k.interest ep' fd'
    valid := k.valid.relist fun {ep' fd' e'} he => by
      split_ifs at he
      exact k.valid.listed he }

def close (k : Kernel F) (fd : F) : Kernel F :=
  { k with
    files := Function.update k.files fd none
    interest := fun ep fd' => if ep = fd ∨ fd' = fd then none else k.interest ep fd'
    closed := k.closed ++ [(fd, k.files fd)]
    valid := k.valid.release fd }

/-- The entries for some numbers were reported. -/
def disarm (k : Kernel F) (ep : F) (fds : List F) : Kernel F :=
  { k with
    interest := fun ep' fd' =>
      if ep' = ep ∧ fd' ∈ fds then (k.interest ep' fd').map EpollEvent.disarmed
      else k.interest ep' fd'
    valid := k.valid.relist fun {ep' fd' e'} he => by
      split_ifs at he
      · obtain ⟨e, he, -⟩ := Option.map_eq_some_iff.mp he
        exact k.valid.listed he
      · exact k.valid.listed he }

end Table

/-- What an epoll instance reports for an entry when the given events, which are watched,
happened. -/
def report (k : Kernel F) (ep fd : F) (events : BitVec 32) : Option (EpollEvent F) :=
  (k.interest ep fd).bind fun e =>
    if events ≠ 0 ∧ events &&& ~~~e.reportable = 0 then some ⟨events, e.data⟩ else none

/-- The reports of a batch, one after another. -/
def reportAll [DecidableEq F] (k : Kernel F) (ep : F) :
    List (F × BitVec 32) → Option (List (EpollEvent F) × Kernel F)
  | [] => some ([], k)
  | (fd, events) :: batch => do
    let report ← k.report ep fd events
    let (reports, k) ← reportAll (k.disarm ep [fd]) ep batch
    return (report :: reports, k)

/-- `epoll_wait` with room for `maxevents` reports, where the events of the batch happened. -/
def epollWait [DecidableEq F] (k : Kernel F) (ep : F) (maxevents : ℕ)
    (batch : List (F × BitVec 32)) : Option (List (EpollEvent F) × Kernel F) :=
  if batch.length ≤ maxevents then k.reportAll ep batch else none

/-! ### What they do to the table and to the interest lists -/

variable {k k' : Kernel F} {srv fd' ep' : F} {events : BitVec 32} {maxevents : ℕ}
variable {batch : List (F × BitVec 32)} {reports : List (EpollEvent F)} {report : EpollEvent F}

@[simp] lemma files_shutdown : (k.shutdown fd).files = k.files := rfl
@[simp] lemma interest_shutdown : (k.shutdown fd).interest = k.interest := rfl

/-- A number that denotes nothing is on no interest list. -/
lemma interest_eq_none (k : Kernel F) (h : k.files fd = none) : k.interest ep fd = none := by
  rw [Option.eq_none_iff_forall_ne_some]
  exact fun e he => (k.valid.listed he).2 h

/-- A number that is no epoll instance has no interest list. -/
lemma interest_eq_none_of_ne (k : Kernel F) (h : k.files ep ≠ some .epoll) :
    k.interest ep fd = none := by
  rw [Option.eq_none_iff_forall_ne_some]
  exact fun e he => h (k.valid.listed he).1

lemma report_spec (h : k.report ep fd events = some report) : ∃ e, k.interest ep fd = some e ∧
    report.data = e.data ∧ report.events = events ∧ events &&& ~~~e.events = 0 := by
  obtain ⟨e, he, hreport⟩ := Option.bind_eq_some_iff.mp h
  split_ifs at hreport with hevents
  cases hreport
  have hlisted : e.reportable &&& ~~~e.events = 0 := by
    rw [EpollEvent.reportable, BitVec.and_assoc, BitVec.and_comm, BitVec.and_assoc,
      BitVec.not_and_self]
    exact BitVec.and_zero
  exact ⟨e, he, rfl, rfl, not_reported hevents.2 hlisted⟩

section Wait

variable [DecidableEq F]

lemma exists_of_forall₂ {α β : Type*} {R : α → β → Prop} {l : List α} {r : List β}
    (h : List.Forall₂ R l r) : (∀ a ∈ l, ∃ b ∈ r, R a b) ∧ ∀ b ∈ r, ∃ a ∈ l, R a b := by
  induction h with
  | nil => exact ⟨nofun, nofun⟩
  | cons hab _ ih =>
    simp only [List.exists_mem_cons_iff, List.forall_mem_cons]
    exact ⟨⟨.inl hab, fun a ha => .inr (ih.1 a ha)⟩, .inl hab, fun b hb => .inr (ih.2 b hb)⟩

@[simp] lemma interest_disarm {fds : List F} : (k.disarm ep fds).interest ep' fd' =
    if ep' = ep ∧ fd' ∈ fds then (k.interest ep' fd').map EpollEvent.disarmed
    else k.interest ep' fd' := rfl

lemma disarm_nil : k.disarm ep [] = k := by simp [disarm]

lemma disarm_disarm {fds : List F} :
    (k.disarm ep [fd]).disarm ep fds = k.disarm ep (fd :: fds) := by
  simp only [disarm, mk.injEq, true_and, and_true]
  funext ep' fd'
  have hmap : ((k.interest ep' fd').map EpollEvent.disarmed).map EpollEvent.disarmed =
      (k.interest ep' fd').map EpollEvent.disarmed := by
    rw [Option.map_map]
    exact congrArg (Option.map · _) (funext fun e => EpollEvent.disarmed_disarmed)
  by_cases hep : ep' = ep
  · by_cases hfd : fd' = fd
    · subst hep hfd
      simp only [List.mem_cons, true_and, true_or, if_true]
      split_ifs
      · exact hmap
      · rfl
    · simp [hfd]
  · simp [hep]

/-- Entries without `EPOLLONESHOT` stay as they are. -/
lemma disarm_eq_self {fds : List F} (h : ∀ fd ∈ fds, ∀ e, k.interest ep fd = some e →
    e.events &&& EPOLLONESHOT = 0) : k.disarm ep fds = k := by
  have hinterest : (k.disarm ep fds).interest = k.interest := by
    funext ep' fd'
    rw [interest_disarm]
    split_ifs with hfd
    · obtain ⟨rfl, hmem⟩ := hfd
      cases he : k.interest ep' fd' with
      | none => rfl
      | some e => exact congrArg some (EpollEvent.disarmed_of_and_eq_zero (h fd' hmem e he))
    · rfl
  cases k
  simp only [disarm, mk.injEq, true_and, and_true] at hinterest ⊢
  exact hinterest

/-- An entry of a list where some were reported was there before, with the same data. -/
lemma entry_disarm {fds : List F} {e : EpollEvent F}
    (h : (k.disarm ep fds).interest ep' fd' = some e) :
    ∃ e', k.interest ep' fd' = some e' ∧ (e = e' ∨ e = e'.disarmed) := by
  rw [interest_disarm] at h
  split_ifs at h
  · obtain ⟨e', he', rfl⟩ := Option.map_eq_some_iff.mp h
    exact ⟨e', he', .inr rfl⟩
  · exact ⟨e, h, .inl rfl⟩

/-- The reports of a batch: each is about an entry of the list, everything in the batch is reported,
and what was reported is disarmed. -/
lemma reportAll_spec (h : k.reportAll ep batch = some (reports, k')) :
    k' = k.disarm ep (batch.map Prod.fst) ∧
      List.Forall₂ (fun report p => ∃ e, k.interest ep p.1 = some e ∧ report.data = e.data ∧
        report.events = p.2 ∧ ∀ mask, e.events &&& mask = 0#32 → p.2 &&& mask = 0#32)
        reports batch := by
  induction batch generalizing k reports with
  | nil =>
    cases h
    exact ⟨disarm_nil.symm, .nil⟩
  | cons p batch ih =>
    simp only [reportAll, bind, Option.bind_eq_some_iff, pure, Option.some.injEq,
      Prod.mk.injEq] at h
    obtain ⟨report, hreport, ⟨rest, k₁⟩, hrest, rfl, rfl⟩ := h
    obtain ⟨hk, hall⟩ := ih hrest
    obtain ⟨e, he, hdata, hevents, hwatched⟩ := report_spec hreport
    refine ⟨by rw [hk, disarm_disarm, List.map_cons], .cons ⟨e, he, hdata, hevents, ?_⟩ ?_⟩
    · exact fun mask hmask => not_reported hwatched hmask
    · refine hall.imp ?_
      rintro report' q ⟨e', he', hdata', hevents', hwatched'⟩
      obtain ⟨e₀, he₀, rfl | rfl⟩ := entry_disarm he'
      · exact ⟨_, he₀, hdata', hevents', hwatched'⟩
      · exact ⟨e₀, he₀, hdata'.trans EpollEvent.data_disarmed, hevents',
          fun mask hmask => hwatched' mask (EpollEvent.events_disarmed hmask)⟩

lemma epollWait_eq_some (h : k.epollWait ep maxevents batch = some (reports, k')) :
    k.reportAll ep batch = some (reports, k') := (Option.ite_none_right_eq_some.mp h).2

/-- What a wait leaves. -/
lemma epollWait_kernel (h : k.epollWait ep maxevents batch = some (reports, k')) :
    k' = k.disarm ep (batch.map Prod.fst) := (reportAll_spec (epollWait_eq_some h)).1

/-- Every report of a wait is about an entry of the list. -/
lemma mem_epollWait (h : k.epollWait ep maxevents batch = some (reports, k'))
    (hr : report ∈ reports) :
    ∃ fd e, (fd, report.events) ∈ batch ∧ k.interest ep fd = some e ∧ report.data = e.data ∧
      ∀ mask, e.events &&& mask = 0#32 → report.events &&& mask = 0#32 := by
  obtain ⟨p, hbatch, e, he, hdata, hevents, hwatched⟩ :=
    (exists_of_forall₂ (reportAll_spec (epollWait_eq_some h)).2).1 report hr
  rw [hevents]
  exact ⟨p.1, e, hbatch, he, hdata, hwatched⟩

/-- When every entry reports its own number, the reports are the batch. -/
lemma map_epollWait (h : k.epollWait ep maxevents batch = some (reports, k'))
    (hown : ∀ fd e, k.interest ep fd = some e → e.data = fd) :
    reports.map (fun report => (report.data, report.events)) = batch := by
  rw [← List.forall₂_eq_eq_eq, List.forall₂_map_left_iff]
  refine (reportAll_spec (epollWait_eq_some h)).2.imp ?_
  rintro report p ⟨e, he, hdata, hevents, -⟩
  rw [hdata, hevents, hown p.1 e he]

/-- Everything that happened in a batch is reported. -/
lemma epollWait_of_mem (h : k.epollWait ep maxevents batch = some (reports, k'))
    (hbatch : (fd, events) ∈ batch) :
    ∃ report ∈ reports, ∃ e, k.interest ep fd = some e ∧ report.data = e.data ∧
      report.events = events := by
  obtain ⟨report, hr, e, he, hdata, hevents, -⟩ :=
    (exists_of_forall₂ (reportAll_spec (epollWait_eq_some h)).2).2 _ hbatch
  exact ⟨report, hr, e, he, hdata, hevents⟩

end Wait

/-! ### Closing one number after another -/

/-- The numbers of a list, each with what it denotes when those before it are closed. -/
def closings [DecidableEq F] (files : F → Option File) : List F → List (F × Option File)
  | []        => []
  | fd :: fds => (fd, files fd) :: closings (Function.update files fd none) fds

lemma map_fst_closings [DecidableEq F] (files : F → Option File) (fds : List F) :
    (closings files fds).map Prod.fst = fds := by
  induction fds generalizing files with
  | nil => rfl
  | cons fd fds ih => rw [closings, List.map_cons, ih]

/-- Different numbers denote what they denote at the start. -/
lemma closings_of_nodup [DecidableEq F] {fds : List F} (h : fds.Nodup) (files : F → Option File) :
    closings files fds = fds.map fun fd => (fd, files fd) := by
  induction fds generalizing files with
  | nil => rfl
  | cons fd fds ih =>
    obtain ⟨hfd, hfds⟩ := List.nodup_cons.mp h
    rw [closings, ih hfds, List.map_cons]
    congr 1
    apply List.map_congr_left
    intro fd' hfd'
    have hne : fd' ≠ fd := fun heq => hfd (heq ▸ hfd')
    rw [Function.update_of_ne hne]

/-! ### Connections over time -/

/-- No connection came in, and every open one was open under its number or was unopened. -/
structure Evolves (k k' : Kernel F) : Prop where
  arrived_eq : k'.arrived = k.arrived
  unopened : ∀ c ∈ k'.backlog ++ k'.lost, c ∈ k.backlog ++ k.lost
  opened : ∀ fd c, k'.files fd = some (.conn c) →
    k.files fd = some (.conn c) ∨ c ∈ k.backlog ++ k.lost

lemma Evolves.refl (k : Kernel F) : k.Evolves k := ⟨rfl, fun _ => id, fun _ _ => .inl⟩

lemma Evolves.trans {k'' : Kernel F} (h : k.Evolves k') (h' : k'.Evolves k'') : k.Evolves k'' where
  arrived_eq := h'.arrived_eq.trans h.arrived_eq
  unopened c hc := h.unopened c (h'.unopened c hc)
  opened fd c hc :=
    (h'.opened fd c hc).elim (h.opened fd c) fun hw => .inr (h.unopened c hw)

/-- The connection came in and was accepted: it does not wait any more and was not lost. -/
def Seen (k : Kernel F) (c : ℕ) : Prop := c < k.arrived ∧ c ∉ k.backlog ++ k.lost

lemma seen_of_open (h : k.files fd = some (.conn c)) : k.Seen c :=
  ⟨k.valid.known h, fun hc => (k.valid.waiting hc).2 fd h⟩

lemma Seen.arrive (h : k.Seen c) : k.arrive.Seen c := by
  refine ⟨Nat.lt_succ_of_lt h.1, fun hc => ?_⟩
  simp only [Kernel.arrive, List.append_assoc, List.mem_append, List.mem_singleton] at hc
  rcases hc with hc | hc | hc
  · exact h.2 (List.mem_append_left _ hc)
  · exact h.1.ne hc
  · exact h.2 (List.mem_append_right _ hc)

lemma Seen.evolves (h : k.Seen c) (hk : k.Evolves k') : k'.Seen c :=
  ⟨hk.arrived_eq ▸ h.1, fun hc => h.2 (hk.unopened c hc)⟩

/-- A connection that was accepted once is never accepted again. -/
lemma Seen.open_before (h : k.Seen c) (hk : k.Evolves k') (hopen : k'.files fd = some (.conn c)) :
    k.files fd = some (.conn c) :=
  (hk.opened fd c hopen).resolve_right h.2

/-! ### Updates of the table and of the lists -/

variable [DecidableEq F]

lemma openFile_spec (h : k.openFile fd file = some k') :
    k.files fd = none ∧ file.isConn = false ∧ k'.files = Function.update k.files fd (some file) ∧
      k'.interest = k.interest := by
  unfold openFile at h
  split_ifs at h with hfd
  cases h
  exact ⟨hfd.1, hfd.2, rfl, rfl⟩

lemma accept_spec (h : k.accept srv fd = some k') :
    ∃ c backlog, k.backlog = c :: backlog ∧ k.files fd = none ∧ k'.backlog = backlog ∧
      k'.files = Function.update k.files fd (some (.conn c)) ∧ k'.interest = k.interest := by
  unfold accept at h
  split at h
  · cases h
  · split_ifs at h with hfd
    cases h
    exact ⟨_, _, ‹_›, hfd.2, rfl, rfl, rfl⟩

omit [DecidableEq F] in
/-- A connection that is lost leaves the line, and its number is unused again. -/
lemma lose_spec (h : k.lose srv fd = some k') :
    ∃ c backlog, k.backlog = c :: backlog ∧ k.files fd = none ∧ k'.backlog = backlog ∧
      k'.lost = k.lost ++ [c] ∧ k'.files = k.files ∧ k'.interest = k.interest := by
  unfold lose at h
  split at h
  · cases h
  · split_ifs at h with hfd
    cases h
    exact ⟨_, _, ‹_›, hfd.2, rfl, rfl, rfl, rfl⟩

@[simp] lemma files_epollAdd : (k.epollAdd ep fd e).files = k.files := by
  unfold epollAdd
  split_ifs <;> rfl

/-- An open number that is not listed yet is listed. -/
lemma interest_epollAdd (hep : k.files ep = some .epoll) (hfd : k.files fd ≠ none)
    (hnew : k.interest ep fd = none) (hadd : e.Addable) :
    (k.epollAdd ep fd e).interest ep' fd' =
      if ep' = ep ∧ fd' = fd then some e.watched else k.interest ep' fd' := by
  rw [epollAdd, dif_pos ⟨hep, hfd, hnew, hadd⟩]

/-- An entry that cannot be added is not listed. -/
lemma epollAdd_of_not_addable (hadd : ¬ e.Addable) : k.epollAdd ep fd e = k :=
  dif_neg fun h => hadd h.2.2.2

/-- An entry is the one that was added, or was there before. -/
lemma entry_epollAdd {e' : EpollEvent F} (h : (k.epollAdd ep fd e).interest ep' fd' = some e') :
    fd' = fd ∧ e' = e.watched ∨ k.interest ep' fd' = some e' := by
  unfold epollAdd at h
  split_ifs at h with hadd
  · have h : (if ep' = ep ∧ fd' = fd then some e.watched else k.interest ep' fd') = some e' := h
    split_ifs at h with heq
    · cases h
      exact .inl ⟨heq.2, rfl⟩
    · exact .inr h
  · exact .inr h

lemma interest_epollAdd_of_ne (h : ep' ≠ ep) :
    (k.epollAdd ep fd e).interest ep' fd' = k.interest ep' fd' := by
  unfold epollAdd
  split_ifs
  · exact if_neg fun heq => h heq.1
  · rfl

@[simp] lemma files_epollDel : (k.epollDel ep fd).files = k.files := rfl

@[simp] lemma interest_epollDel : (k.epollDel ep fd).interest ep' fd' =
    if ep' = ep ∧ fd' = fd then none else k.interest ep' fd' := rfl

@[simp] lemma files_close : (k.close fd).files fd' = if fd' = fd then none else k.files fd' :=
  Function.update_apply ..

@[simp] lemma interest_close : (k.close fd).interest ep' fd' =
    if ep' = fd ∨ fd' = fd then none else k.interest ep' fd' := rfl

/-- Closing the first of some numbers, and what is left to close. -/
lemma closed_append_closings_close (fds : List F) :
    (k.close fd).closed ++ closings (k.close fd).files fds =
      k.closed ++ closings k.files (fd :: fds) := List.append_assoc ..

@[simp] lemma backlog_epollAdd : (k.epollAdd ep fd e).backlog = k.backlog := by
  unfold epollAdd
  split_ifs <;> rfl

@[simp] lemma lost_epollAdd : (k.epollAdd ep fd e).lost = k.lost := by
  unfold epollAdd
  split_ifs <;> rfl

@[simp] lemma arrived_epollAdd : (k.epollAdd ep fd e).arrived = k.arrived := by
  unfold epollAdd
  split_ifs <;> rfl

lemma evolves_accept (h : k.accept srv fd = some k') : k.Evolves k' := by
  unfold accept at h
  split at h
  · cases h
  · rename_i c backlog hb
    split_ifs at h
    cases h
    refine ⟨rfl, fun c' hc => hb ▸ List.mem_cons_of_mem _ hc, fun fd' c' hc => ?_⟩
    have hc : Function.update k.files fd (some (.conn c)) fd' = some (.conn c') := hc
    rw [Function.update_apply] at hc
    split_ifs at hc
    · cases hc
      exact .inr (hb ▸ List.mem_cons_self)
    · exact .inl hc

omit [DecidableEq F] in
lemma evolves_lose (h : k.lose srv fd = some k') : k.Evolves k' := by
  unfold lose at h
  split at h
  · cases h
  · rename_i c backlog hb
    split_ifs at h
    cases h
    refine ⟨rfl, fun c' hc => ?_, fun _ _ => .inl⟩
    simp only [List.mem_append, List.mem_singleton] at hc
    rw [hb, List.mem_append, List.mem_cons]
    tauto

lemma evolves_epollAdd : k.Evolves (k.epollAdd ep fd e) where
  arrived_eq := arrived_epollAdd
  unopened c hc := by rwa [backlog_epollAdd, lost_epollAdd] at hc
  opened fd c hc := .inl (by rwa [files_epollAdd] at hc)

lemma evolves_close : k.Evolves (k.close fd) where
  arrived_eq := rfl
  unopened _ := id
  opened fd' c hc := by
    rw [files_close] at hc
    split_ifs at hc
    exact .inl hc

end Kernel
