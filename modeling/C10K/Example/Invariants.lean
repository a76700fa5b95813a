import C10K.Endpoint.Registry
import C10K.Example.Rule

/-!
# What holds of the example server in every schedule

The descriptors denote what their names say for as long as `main` keeps them open, no connection is
open but the one that the side thread has in its hand, and the side thread returns only when it was
told to.
-/

namespace C10K

/-- The number of steps that `main` made. -/
def ExampleMainPc.rank : ExampleMainPc → ℕ
  | .addServer     => 0
  | .eventfd       => 1
  | .createThread  => 2
  | .read          => 3
  | .addSignaler   => 4
  | .join          => 5
  | .closeSignaler => 6
  | .closeInstance => 7
  | .returned      => 8

/-- The connection that the side thread is about to greet or to close. -/
def SidePc.hand : SidePc → Option Fd
  | .send fd | .shutdown fd | .close fd => some fd
  | .notStarted | .epollWait | .test _ _ | .accept | .returned => none

/-! ### Descriptors -/

/-- What the descriptors denote and what is listed when `main` made `r` steps and the side thread
has `hand` in its hand. -/
structure ExampleTable (k : Kernel Fd) (epInstance srvFd signaler : Fd) (r : ℕ)
    (hand : Option Fd) : Prop where
  instanceOpen : r < 8 → k.files epInstance = some .epoll
  serverOpen : k.files srvFd = some .listener
  signalerOpen : 2 ≤ r → r < 7 → k.files signaler = some .event
  serverEntry : 1 ≤ r → r < 8 → k.interest epInstance srvFd = some (srvEvents srvFd).watched
  signalerEntry : 5 ≤ r → r < 7 →
    k.interest epInstance signaler = some (signalerEvents signaler).watched
  listed : ∀ fd e, k.interest epInstance fd = some e →
    fd = srvFd ∧ 1 ≤ r ∨ fd = signaler ∧ 5 ≤ r
  conn : ∀ fd c, k.files fd = some (.conn c) → hand = some fd
  hand : ∀ fd, hand = some fd → ∃ c, k.files fd = some (.conn c)
  closed : (7 ≤ r → k.files signaler = none) ∧ (8 ≤ r → k.files epInstance = none)

namespace ExampleTable

variable {k k' : Kernel Fd} {epInstance srvFd signaler fd : Fd} {r r' : ℕ} {hand : Option Fd}

/-- `main` goes on without a system call. -/
lemma advance (h : ExampleTable k epInstance srvFd signaler r hand) (hle : r ≤ r')
    (hsame : ∀ i ∈ [1, 2, 5, 7, 8], i ≤ r ↔ i ≤ r') :
    ExampleTable k epInstance srvFd signaler r' hand := by
  simp only [List.forall_mem_cons, List.not_mem_nil, false_implies, implies_true, and_true] at hsame
  obtain ⟨h₁, h₂, h₅, h₇, h₈⟩ := hsame
  constructor
  · intro hr
    exact h.instanceOpen (by omega)
  · exact h.serverOpen
  · intro hr hr'
    exact h.signalerOpen (h₂.mpr hr) (by omega)
  · intro hr hr'
    exact h.serverEntry (h₁.mpr hr) (by omega)
  · intro hr hr'
    exact h.signalerEntry (h₅.mpr hr) (by omega)
  · intro fd e he
    exact (h.listed fd e he).imp (And.imp_right h₁.mp) (And.imp_right h₅.mp)
  · exact h.conn
  · exact h.hand
  · exact ⟨fun hr => h.closed.1 (h₇.mpr hr), fun hr => h.closed.2 (h₈.mpr hr)⟩

/-- Nothing happens to the table. -/
lemma congr (h : ExampleTable k epInstance srvFd signaler r hand) (hfiles : k'.files = k.files)
    (hinterest : k'.interest = k.interest) :
    ExampleTable k' epInstance srvFd signaler r hand := by
  obtain ⟨h₁, h₂, h₃, h₄, h₅, h₆, h₇, h₈, h₉⟩ := h
  rw [← hfiles] at h₁ h₂ h₃ h₇ h₈ h₉
  rw [← hinterest] at h₄ h₅ h₆
  exact ⟨h₁, h₂, h₃, h₄, h₅, h₆, h₇, h₈, h₉⟩

lemma signaler_ne (h : ExampleTable k epInstance srvFd signaler r hand) (hr : 2 ≤ r)
    (hr' : r < 7) : signaler ≠ srvFd := by
  rintro rfl
  cases (h.signalerOpen hr hr').symm.trans h.serverOpen

/-- The listening socket is listed. -/
lemma addServer (h : ExampleTable k epInstance srvFd signaler 0 hand) :
    ExampleTable (k.epollAdd epInstance srvFd (srvEvents srvFd)) epInstance srvFd signaler 1
      hand := by
  have hnew : ∀ fd, k.interest epInstance fd = none := by
    intro fd
    rw [Option.eq_none_iff_forall_ne_some]
    intro e he
    rcases h.listed fd e he with ⟨-, hr⟩ | ⟨-, hr⟩
    · exact absurd hr (by decide)
    · exact absurd hr (by decide)
  have hsrv : k.files srvFd ≠ none := by
    rw [h.serverOpen]
    exact nofun
  have hadd : ∀ fd, (k.epollAdd epInstance srvFd (srvEvents srvFd)).interest epInstance fd =
      if epInstance = epInstance ∧ fd = srvFd then some (srvEvents srvFd).watched
      else k.interest epInstance fd :=
    fun fd => Kernel.interest_epollAdd (h.instanceOpen (by decide)) hsrv (hnew srvFd)
      (.inl (by decide : (EPOLLIN ||| EPOLLET ||| EPOLLWAKEUP) &&& EPOLLEXCLUSIVE = 0))
  constructor
  · intro _
    rw [Kernel.files_epollAdd]
    exact h.instanceOpen (by decide)
  · rw [Kernel.files_epollAdd]
    exact h.serverOpen
  · intro hr
    exact absurd hr (by decide)
  · intro _ _
    rw [hadd, if_pos ⟨rfl, rfl⟩]
  · intro hr
    exact absurd hr (by decide)
  · intro fd e he
    rw [hadd] at he
    split_ifs at he with hfd
    · exact .inl ⟨hfd.2, le_rfl⟩
    · cases (hnew fd).symm.trans he
  · rw [Kernel.files_epollAdd]
    exact h.conn
  · rw [Kernel.files_epollAdd]
    exact h.hand
  · exact ⟨fun hr => absurd hr (by decide), fun hr => absurd hr (by decide)⟩

/-- `main` gets the `eventfd`. -/
lemma eventfd (h : ExampleTable k epInstance srvFd signaler 1 hand)
    (hopen : openFd k fd .event = some k') : ExampleTable k' epInstance srvFd fd 2 hand := by
  obtain ⟨hnone, hfiles, hinterest⟩ := World.openFd_spec hopen
  have hother : ∀ fd' file, k.files fd' = some file → k'.files fd' = some file := by
    intro fd' file hfd'
    have hne : fd' ≠ fd := by
      rintro rfl
      cases hnone.symm.trans hfd'
    rw [hfiles, Function.update_of_ne hne, hfd']
  constructor
  · intro _
    exact hother _ _ (h.instanceOpen (by decide))
  · exact hother _ _ h.serverOpen
  · intro _ _
    rw [hfiles, Function.update_self]
  · intro _ _
    rw [hinterest]
    exact h.serverEntry le_rfl (by decide)
  · intro hr
    exact absurd hr (by decide)
  · intro fd' e he
    rw [hinterest] at he
    rcases h.listed fd' e he with ⟨rfl, -⟩ | ⟨-, hr⟩
    · exact .inl ⟨rfl, by decide⟩
    · exact absurd hr (by decide)
  · intro fd' c hc
    rw [hfiles, Function.update_apply] at hc
    split_ifs at hc
    · cases hc
    · exact h.conn fd' c hc
  · intro fd' hfd'
    obtain ⟨c, hc⟩ := h.hand fd' hfd'
    exact ⟨c, hother _ _ hc⟩
  · exact ⟨fun hr => absurd hr (by decide), fun hr => absurd hr (by decide)⟩

/-- The `eventfd` is listed. -/
lemma addSignaler (h : ExampleTable k epInstance srvFd signaler 4 hand) :
    ExampleTable (k.epollAdd epInstance signaler (signalerEvents signaler)) epInstance srvFd
      signaler 5 hand := by
  have hne := h.signaler_ne (by decide) (by decide)
  have hnew : k.interest epInstance signaler = none := by
    rw [Option.eq_none_iff_forall_ne_some]
    intro e he
    rcases h.listed signaler e he with ⟨heq, -⟩ | ⟨-, hr⟩
    · exact hne heq
    · exact absurd hr (by decide)
  have hsignaler : k.files signaler ≠ none := by
    rw [h.signalerOpen (by decide) (by decide)]
    exact nofun
  have hadd : ∀ fd, (k.epollAdd epInstance signaler (signalerEvents signaler)).interest
      epInstance fd = if epInstance = epInstance ∧ fd = signaler then
        some (signalerEvents signaler).watched else k.interest epInstance fd :=
    fun fd => Kernel.interest_epollAdd (h.instanceOpen (by decide)) hsignaler hnew
      (.inl (by decide : EPOLLIN &&& EPOLLEXCLUSIVE = 0))
  constructor
  · intro _
    rw [Kernel.files_epollAdd]
    exact h.instanceOpen (by decide)
  · rw [Kernel.files_epollAdd]
    exact h.serverOpen
  · intro _ _
    rw [Kernel.files_epollAdd]
    exact h.signalerOpen (by decide) (by decide)
  · intro _ _
    rw [hadd, if_neg fun heq => hne heq.2.symm]
    exact h.serverEntry (by decide) (by decide)
  · intro _ _
    rw [hadd, if_pos ⟨rfl, rfl⟩]
  · intro fd e he
    rw [hadd] at he
    split_ifs at he with hfd
    · exact .inr ⟨hfd.2, le_rfl⟩
    · rcases h.listed fd e he with ⟨rfl, -⟩ | ⟨-, hr⟩
      · exact .inl ⟨rfl, by decide⟩
      · exact absurd hr (by decide)
  · rw [Kernel.files_epollAdd]
    exact h.conn
  · rw [Kernel.files_epollAdd]
    exact h.hand
  · exact ⟨fun hr => absurd hr (by decide), fun hr => absurd hr (by decide)⟩

/-- A descriptor that denotes something else stays open when one is closed. -/
lemma files_close_of_ne {fd' : Fd} {file : File} (hfd' : k.files fd' = some file)
    (hfd : k.files fd ≠ some file) : (k.close fd).files fd' = some file := by
  rw [Kernel.files_close, if_neg (by rintro rfl; exact hfd hfd'), hfd']

/-- The `eventfd` is closed. -/
lemma closeSignaler (h : ExampleTable k epInstance srvFd signaler 6 hand) :
    ExampleTable (k.close signaler) epInstance srvFd signaler 7 hand := by
  have hsignaler := h.signalerOpen (by decide) (by decide)
  have hep := h.instanceOpen (by decide)
  have hne : epInstance ≠ signaler := by
    rintro rfl
    cases hsignaler.symm.trans hep
  constructor
  · intro _
    exact files_close_of_ne hep (by rw [hsignaler]; exact nofun)
  · exact files_close_of_ne h.serverOpen (by rw [hsignaler]; exact nofun)
  · intro _ hr
    exact absurd hr (by decide)
  · intro _ _
    rw [Kernel.interest_close, if_neg]
    · exact h.serverEntry (by decide) (by decide)
    · rintro (heq | heq)
      · exact hne heq
      · exact h.signaler_ne (by decide) (by decide) heq.symm
  · intro _ hr
    exact absurd hr (by decide)
  · intro fd e he
    rw [Kernel.interest_close] at he
    split_ifs at he
    exact (h.listed fd e he).imp (And.imp_right fun _ => by decide)
      (And.imp_right fun _ => by decide)
  · intro fd c hc
    rw [Kernel.files_close] at hc
    split_ifs at hc
    exact h.conn fd c hc
  · intro fd hfd
    obtain ⟨c, hc⟩ := h.hand fd hfd
    exact ⟨c, files_close_of_ne hc (by rw [hsignaler]; exact nofun)⟩
  · refine ⟨fun _ => ?_, fun hr => absurd hr (by decide)⟩
    rw [Kernel.files_close, if_pos rfl]

/-- The epoll instance is closed. -/
lemma closeInstance (h : ExampleTable k epInstance srvFd signaler 7 hand) :
    ExampleTable (k.close epInstance) epInstance srvFd signaler 8 hand := by
  have hep := h.instanceOpen (by decide)
  constructor
  · intro hr
    exact absurd hr (by decide)
  · exact files_close_of_ne h.serverOpen (by rw [hep]; exact nofun)
  · intro _ hr
    exact absurd hr (by decide)
  · intro _ hr
    exact absurd hr (by decide)
  · intro _ hr
    exact absurd hr (by decide)
  · intro fd e he
    rw [Kernel.interest_close, if_pos (.inl rfl)] at he
    cases he
  · intro fd c hc
    rw [Kernel.files_close] at hc
    split_ifs at hc
    exact h.conn fd c hc
  · intro fd hfd
    obtain ⟨c, hc⟩ := h.hand fd hfd
    exact ⟨c, files_close_of_ne hc (by rw [hep]; exact nofun)⟩
  · refine ⟨fun _ => ?_, fun _ => ?_⟩
    · rw [Kernel.files_close]
      split_ifs
      · rfl
      · exact h.closed.1 le_rfl
    · rw [Kernel.files_close, if_pos rfl]

/-- The side thread takes a connection in its empty hand. -/
lemma accept (h : ExampleTable k epInstance srvFd signaler r none) (hr : r < 7)
    (haccept : k.accept srvFd fd = some k') :
    ExampleTable k' epInstance srvFd signaler r (some fd) := by
  obtain ⟨c, backlog, -, hnone, -, hfiles, hinterest⟩ := Kernel.accept_spec haccept
  have hother : ∀ fd' file, k.files fd' = some file → k'.files fd' = some file := by
    intro fd' file hfd'
    have hne : fd' ≠ fd := by
      rintro rfl
      cases hnone.symm.trans hfd'
    rw [hfiles, Function.update_of_ne hne, hfd']
  constructor
  · intro hr
    exact hother _ _ (h.instanceOpen hr)
  · exact hother _ _ h.serverOpen
  · intro hr hr'
    exact hother _ _ (h.signalerOpen hr hr')
  · rw [hinterest]
    exact h.serverEntry
  · rw [hinterest]
    exact h.signalerEntry
  · rw [hinterest]
    exact h.listed
  · intro fd' c' hc'
    rw [hfiles, Function.update_apply] at hc'
    split_ifs at hc' with heq
    · rw [heq]
    · cases h.conn fd' c' hc'
  · intro fd' hfd'
    cases hfd'
    exact ⟨c, by rw [hfiles, Function.update_self]⟩
  · exact ⟨fun hr' => absurd hr' (by omega), fun hr' => absurd hr' (by omega)⟩

/-- The side thread closes the connection in its hand. -/
lemma close (h : ExampleTable k epInstance srvFd signaler r (some fd)) (hr : r < 7) :
    ExampleTable (k.close fd) epInstance srvFd signaler r none := by
  obtain ⟨c, hc⟩ := h.hand fd rfl
  have hother : ∀ fd' file, file ≠ .conn c → k.files fd' = some file →
      (k.close fd).files fd' = some file := by
    intro fd' file hne hfd'
    refine files_close_of_ne hfd' ?_
    rw [hc]
    exact fun heq => hne (Option.some_inj.mp heq).symm
  have hentry : ∀ fd' e, k.files fd' ≠ some (.conn c) → k.interest epInstance fd' = some e →
      (k.close fd).interest epInstance fd' = some e := by
    intro fd' e hne he
    rw [Kernel.interest_close, if_neg, he]
    rintro (rfl | rfl)
    · cases hc.symm.trans (h.instanceOpen (by omega))
    · exact hne hc
  constructor
  · intro hr
    exact hother _ _ nofun (h.instanceOpen hr)
  · exact hother _ _ nofun h.serverOpen
  · intro hr hr'
    exact hother _ _ nofun (h.signalerOpen hr hr')
  · intro hr hr'
    exact hentry _ _ (by rw [h.serverOpen]; exact nofun) (h.serverEntry hr hr')
  · intro hr hr'
    exact hentry _ _ (by rw [h.signalerOpen (by omega) hr']; exact nofun) (h.signalerEntry hr hr')
  · intro fd' e he
    rw [Kernel.interest_close] at he
    split_ifs at he
    exact h.listed fd' e he
  · intro fd' c' hc'
    rw [Kernel.files_close] at hc'
    split_ifs at hc' with hne
    cases h.conn fd' c' hc'
    exact absurd rfl hne
  · intro fd' hfd'
    cases hfd'
  · exact ⟨fun hr' => absurd hr' (by omega), fun hr' => absurd hr' (by omega)⟩

end ExampleTable

/-! ### The two threads -/

namespace ExampleServer

variable {s s' : ExampleServer} {a : ExampleAct} {fd : Fd} {e : EpollEvent Fd}

/-- How far the threads are: the side thread runs until `main` told it to stop and waits for it, and
it tests what was reported. -/
structure Inv (s : ExampleServer) : Prop where
  table : ExampleTable s.kernel s.epInstance s.srvFd s.signaler s.mainPc.rank s.sidePc.hand
  started : s.sidePc = .notStarted ↔ s.mainPc.rank < 3
  joined : 6 ≤ s.mainPc.rank → s.sidePc = .returned
  left : s.sidePc = .returned → 5 ≤ s.mainPc.rank
  event : ∀ fd, s.event = some fd →
    3 ≤ s.mainPc.rank ∧ (fd = s.srvFd ∨ fd = s.signaler ∧ 5 ≤ s.mainPc.rank)
  tested : ∀ count interrupted, s.sidePc = .test count interrupted →
    Repeats count interrupted ∨ count = 1 ∧ s.event ≠ none

lemma Inv.tableAt {mainPc : ExampleMainPc} (h : s.Inv) (hpc : s.mainPc = mainPc) :
    ExampleTable s.kernel s.epInstance s.srvFd s.signaler mainPc.rank s.sidePc.hand :=
  hpc ▸ h.table

/-- Where the side thread stands while it runs. -/
lemma Inv.running {x : SidePc} (h : s.Inv) (hpc : s.sidePc = x) (hstarted : x ≠ .notStarted)
    (hleft : x ≠ .returned) : (3 ≤ s.mainPc.rank ∧ s.mainPc.rank < 6) ∧
      ExampleTable s.kernel s.epInstance s.srvFd s.signaler s.mainPc.rank x.hand := by
  subst hpc
  refine ⟨⟨?_, ?_⟩, h.table⟩
  · by_contra hlt
    exact hstarted (h.started.mpr (by omega))
  · by_contra hle
    exact hleft (h.joined (by omega))

/-- What may be reported: a connection that waits, once for each time that the entry was put on the
ready list, and the `eventfd`. -/
lemma Inv.pending_spec (h : s.Inv) (hrank : 3 ≤ s.mainPc.rank ∧ s.mainPc.rank < 6)
    (hpending : s.pending fd = some e) :
    fd = s.srvFd ∧ e = (srvEvents s.srvFd).watched ∧ s.onReadyList = true ∧ s.kernel.backlog ≠ [] ∨
      fd = s.signaler ∧ e = (signalerEvents s.signaler).watched ∧ 5 ≤ s.mainPc.rank := by
  obtain ⟨he, hready⟩ := Option.filter_eq_some_iff.mp hpending
  rw [Bool.and_eq_true, Bool.or_eq_true] at hready
  obtain ⟨hreadable, htrigger⟩ := hready
  rcases h.table.listed fd e he with ⟨rfl, -⟩ | ⟨rfl, hr⟩
  · rw [h.table.serverEntry (by omega) (by omega), Option.some.injEq] at he
    subst he
    rw [edge_srvEvents] at htrigger
    simp only [readable, h.table.serverOpen, Bool.not_eq_true', List.isEmpty_eq_false_iff]
      at hreadable
    exact .inl ⟨rfl, rfl, htrigger.resolve_left nofun, hreadable⟩
  · rw [h.table.signalerEntry hr (by omega), Option.some.injEq] at he
    exact .inr ⟨rfl, he.symm, hr⟩

/-- The side thread goes on. -/
lemma Inv.side {kernel : Kernel Fd} {sidePc : SidePc} {event : Option Fd}
    {clientAddressLen : Option (BitVec 32)} {onReadyList killed : Bool} {sends : List SendCall}
    (hrank : 3 ≤ s.mainPc.rank ∧ s.mainPc.rank < 6)
    (htable : ExampleTable kernel s.epInstance s.srvFd s.signaler s.mainPc.rank sidePc.hand)
    (hstarted : sidePc ≠ .notStarted) (hleft : sidePc = .returned → 5 ≤ s.mainPc.rank)
    (hevent : ∀ fd, event = some fd → fd = s.srvFd ∨ fd = s.signaler ∧ 5 ≤ s.mainPc.rank)
    (htested : ∀ count interrupted, sidePc = .test count interrupted →
      Repeats count interrupted ∨ count = 1 ∧ event ≠ none) :
    Inv { s with
      kernel, sidePc, event, clientAddressLen, onReadyList, killed, sends } where
  table := htable
  started := iff_of_false hstarted (not_lt.mpr hrank.1)
  joined hr := absurd hr (not_le.mpr hrank.2)
  left := hleft
  event fd hfd := ⟨hrank.1, hevent fd hfd⟩
  tested := htested

/-- `main` goes on. -/
lemma Inv.mainStep (h : s.Inv) {kernel : Kernel Fd} {onReadyList : Bool} {mainPc : ExampleMainPc}
    (htable : ExampleTable kernel s.epInstance s.srvFd s.signaler mainPc.rank s.sidePc.hand)
    (hrank : mainPc.rank = s.mainPc.rank + 1) (hstart : s.mainPc.rank ≠ 2)
    (hjoin : 5 ≤ s.mainPc.rank → s.sidePc = .returned) :
    Inv { s with kernel, onReadyList, mainPc } where
  table := htable
  started := by
    rw [h.started]
    change s.mainPc.rank < 3 ↔ mainPc.rank < 3
    omega
  joined hr := hjoin (by change 6 ≤ mainPc.rank at hr; omega)
  left hr := (h.left hr).trans (by change s.mainPc.rank ≤ mainPc.rank; omega)
  event fd hfd := by
    obtain ⟨hr, hor⟩ := h.event fd hfd
    change 3 ≤ mainPc.rank ∧ (fd = s.srvFd ∨ fd = s.signaler ∧ 5 ≤ mainPc.rank)
    exact ⟨by omega, hor.imp_right (And.imp_right fun hr => by omega)⟩
  tested := h.tested

lemma Inv.step (h : s.Inv) (hstep : s.step a = some s') : s'.Inv := by
  have hevent : ∀ fd, s.event = some fd → fd = s.srvFd ∨ fd = s.signaler ∧ 5 ≤ s.mainPc.rank :=
    fun fd hfd => (h.event fd hfd).2
  cases Rule.of_step hstep with
  | arrive => exact ⟨h.table.congr rfl rfl, h.started, h.joined, h.left, h.event, h.tested⟩
  | addServer hpc =>
    have htable := h.tableAt hpc
    exact h.mainStep htable.addServer (by rw [hpc]; rfl) (by rw [hpc]; decide)
      (by rw [hpc]; exact fun hr => absurd hr (by decide))
  | eventfd hpc hopen =>
    have hlt : ExampleMainPc.createThread.rank < 3 := by decide
    have hside : s.sidePc = .notStarted := h.started.mpr (by rw [hpc]; decide)
    constructor
    · exact (h.tableAt hpc).eventfd hopen
    · exact iff_of_true hside hlt
    · exact fun hr => absurd (hlt.trans_le' hr) (by decide)
    · exact fun hreturned => absurd (hside.symm.trans hreturned) nofun
    · exact fun fd hfd => absurd (h.event fd hfd).1 (by rw [hpc]; decide)
    · exact h.tested
  | createThread hpc =>
    have hrank : ExampleMainPc.read.rank = 3 := rfl
    have hside : s.sidePc = .notStarted := h.started.mpr (by rw [hpc]; decide)
    have htable : ExampleTable s.kernel s.epInstance s.srvFd s.signaler ExampleMainPc.read.rank
        s.sidePc.hand := (h.tableAt hpc).advance (by decide) (by decide)
    rw [hside] at htable
    constructor
    · exact htable
    · exact iff_of_false nofun hrank.not_lt
    · exact fun hr => absurd (hrank ▸ hr) (by decide)
    · exact nofun
    · exact fun fd hfd => absurd (h.event fd hfd).1 (by rw [hpc]; decide)
    · exact nofun
  | read hpc =>
    have htable := h.tableAt hpc
    exact h.mainStep (htable.advance (by decide) (by decide)) (by rw [hpc]; rfl)
      (by rw [hpc]; decide) (by rw [hpc]; exact fun hr => absurd hr (by decide))
  | addSignaler hpc =>
    have htable := h.tableAt hpc
    exact h.mainStep htable.addSignaler (by rw [hpc]; rfl) (by rw [hpc]; decide)
      (by rw [hpc]; exact fun hr => absurd hr (by decide))
  | join hpc hside =>
    have htable := h.tableAt hpc
    exact h.mainStep (htable.advance (by decide) (by decide)) (by rw [hpc]; rfl)
      (by rw [hpc]; decide) fun _ => hside
  | closeSignaler hpc =>
    have htable := h.tableAt hpc
    exact h.mainStep htable.closeSignaler (by rw [hpc]; rfl) (by rw [hpc]; decide)
      fun _ => h.joined (by rw [hpc]; decide)
  | closeInstance hpc =>
    have htable := h.tableAt hpc
    exact h.mainStep htable.closeInstance (by rw [hpc]; rfl) (by rw [hpc]; decide)
      fun _ => h.joined (by rw [hpc]; decide)
  | failed hpc hfile =>
    obtain ⟨hrank, -⟩ := h.running hpc nofun nofun
    exact absurd (h.table.instanceOpen (by omega)) hfile
  | interrupted hpc =>
    obtain ⟨hrank, htable⟩ := h.running hpc nofun nofun
    refine .side hrank htable nofun nofun hevent ?_
    rintro count interrupted ⟨⟩
    exact .inl (.inr ⟨rfl, rfl⟩)
  | timeout hpc =>
    obtain ⟨hrank, htable⟩ := h.running hpc nofun nofun
    refine .side hrank htable nofun nofun hevent ?_
    rintro count interrupted ⟨⟩
    exact .inl (.inl rfl)
  | report hpc hpending =>
    obtain ⟨hrank, htable⟩ := h.running hpc nofun nofun
    refine .side hrank htable nofun nofun ?_ ?_
    · rintro fd ⟨⟩
      rcases h.pending_spec hrank hpending with ⟨-, rfl, -⟩ | ⟨-, rfl, hr⟩
      · exact .inl rfl
      · exact .inr ⟨rfl, hr⟩
    · rintro count interrupted ⟨⟩
      exact .inr ⟨rfl, nofun⟩
  | acceptNone hpc =>
    obtain ⟨hrank, htable⟩ := h.running hpc nofun nofun
    exact .side hrank htable nofun nofun hevent nofun
  | acceptLost hpc _ hlose =>
    obtain ⟨hrank, htable⟩ := h.running hpc nofun nofun
    obtain ⟨-, -, -, -, -, -, hfiles, hinterest⟩ := Kernel.lose_spec hlose
    exact .side hrank (htable.congr hfiles hinterest) nofun nofun hevent nofun
  | acceptSome hpc _ _ haccept =>
    obtain ⟨hrank, htable⟩ := h.running hpc nofun nofun
    exact .side hrank (htable.accept (by omega) haccept) nofun nofun hevent nofun
  | again hpc =>
    obtain ⟨hrank, htable⟩ := h.running hpc nofun nofun
    exact .side hrank htable nofun nofun hevent nofun
  | leave hpc _ hsignaler =>
    obtain ⟨hrank, htable⟩ := h.running hpc nofun nofun
    refine .side hrank htable nofun (fun _ => ?_) hevent nofun
    rcases (h.event _ hsignaler).2 with heq | ⟨-, hr⟩
    · exact absurd heq (h.table.signaler_ne (by omega) (by omega))
    · exact hr
  | connect hpc =>
    obtain ⟨hrank, htable⟩ := h.running hpc nofun nofun
    exact .side hrank htable nofun nofun hevent nofun
  | send hpc =>
    obtain ⟨hrank, htable⟩ := h.running hpc nofun nofun
    exact .side hrank htable nofun nofun hevent nofun
  | sigpipe => exact ⟨h.table, h.started, h.joined, h.left, h.event, h.tested⟩
  | shutdown hpc =>
    obtain ⟨hrank, htable⟩ := h.running hpc nofun nofun
    exact .side hrank (htable.congr rfl rfl) nofun nofun hevent nofun
  | close hpc =>
    obtain ⟨hrank, htable⟩ := h.running hpc nofun nofun
    exact .side hrank (htable.close (by omega)) nofun nofun hevent nofun

/-- A process that created the listening socket and nothing else. -/
lemma Inv.initial {k k₁ k₂ : Kernel Fd} {epInstance srvFd : Fd} (hk : k.Fresh)
    (h₁ : openFd k epInstance .epoll = some k₁) (h₂ : openFd k₁ srvFd .listener = some k₂) :
    (initial k₂ epInstance srvFd).Inv := by
  obtain ⟨hnone₁, hf₁, hi₁⟩ := World.openFd_spec h₁
  obtain ⟨hnone₂, hf₂, hi₂⟩ := World.openFd_spec h₂
  have hne : epInstance ≠ srvFd := (World.ne_of_openFd h₁ h₂).symm
  refine ⟨?_, iff_of_true rfl (by change 0 < 3; decide), ?_, nofun, nofun, nofun⟩
  · constructor
    · intro _
      change k₂.files epInstance = _
      rw [hf₂, Function.update_of_ne hne, hf₁, Function.update_self]
    · change k₂.files srvFd = _
      rw [hf₂, Function.update_self]
    · exact fun hr => absurd hr (by change ¬ 2 ≤ 0; decide)
    · exact fun hr => absurd hr (by change ¬ 1 ≤ 0; decide)
    · exact fun hr => absurd hr (by change ¬ 5 ≤ 0; decide)
    · intro fd e he
      change k₂.interest epInstance fd = some e at he
      rw [hi₂, hi₁, k.interest_eq_none_of_ne (by rw [hnone₁]; exact nofun)] at he
      cases he
    · intro fd c hc
      change k₂.files fd = some (.conn c) at hc
      rw [hf₂, Function.update_apply, hf₁, Function.update_apply] at hc
      split_ifs at hc
      · cases hc
      · cases hc
      · exact absurd hc hk.not_conn
    · exact nofun
    · exact ⟨fun hr => absurd hr (by change ¬ 7 ≤ 0; decide),
        fun hr => absurd hr (by change ¬ 8 ≤ 0; decide)⟩
  · exact fun hr => absurd hr (by change ¬ 6 ≤ 0; decide)

theorem Inv.of_reachable (h : exampleSystem.Reachable s) : s.Inv := by
  apply h.invariant
  · rintro s ⟨k, k₁, k₂, epInstance, srvFd, hk, h₁, h₂, rfl⟩
    exact Inv.initial hk h₁ h₂
  · intro s a s' hI hstep
    exact hI.step hstep

end ExampleServer

end C10K
