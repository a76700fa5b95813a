import C10K.Endpoint.Threads

/-!
# The locks of the endpoint

Every place of a call agrees with the steps about what it holds, a thread that holds the client lock
takes no other lock, and only the holder of the queue lock changes the queue. So no schedule ends in
a deadlock, and the loop of `endpoint_close_hungups` runs once for each entry that it found.
-/

namespace C10K

open Mutex (LockOp holdsNone holdsOnly holdsAlso holdsAlso_holdsNone)

variable {w w' : World} {op : LockOp Lock} {holds holds' : Lock → Bool} {answer : Answer}
variable {opened : Option Fd}
variable {T : Type} [DecidableEq T] {s s' : Threads T} {t : T}

/-! ### What a step of a thread may do -/

/-- The step agrees with what the two places hold, takes the queue lock only while the thread holds
no lock, changes the queue only under its lock, and opens no number but `opened`. -/
structure Tame (opened : Option Fd) (holds holds' : Lock → Bool) (op : LockOp Lock)
    (w w' : World) : Prop where
  moves : op.Moves holds holds'
  order : op = .lock .disconnectQueue → holds = holdsNone
  queue : holds .disconnectQueue = false →
    w'.endpoint.disconnectQueue = w.endpoint.disconnectQueue
  files : ∀ fd file, w'.kernel.files fd = some file →
    w.kernel.files fd = some file ∨ opened = some fd

lemma Tame.stay (hqueue : w'.endpoint.disconnectQueue = w.endpoint.disconnectQueue)
    (hfiles : w'.kernel.files = w.kernel.files) : Tame opened holds holds .stay w w' :=
  ⟨rfl, nofun, fun _ => hqueue, fun _ _ hfile => .inl (hfiles ▸ hfile)⟩

/-- A step that changes the queue under its lock. -/
lemma Tame.change (hheld : holds .disconnectQueue = true)
    (hfiles : w'.kernel.files = w.kernel.files) : Tame opened holds holds .stay w w' :=
  ⟨rfl, nofun, fun hfree => absurd (hheld.symm.trans hfree) nofun,
    fun _ _ hfile => .inl (hfiles ▸ hfile)⟩

lemma Tame.lock (l : Lock) : Tame opened holdsNone (holdsOnly l) (.lock l) w w :=
  ⟨LockOp.moves_lock, fun _ => rfl, fun _ => rfl, fun _ _ => .inl⟩

lemma Tame.unlock (l : Lock) : Tame opened (holdsOnly l) holdsNone (.unlock l) w w :=
  ⟨LockOp.moves_unlock, nofun, fun _ => rfl, fun _ _ => .inl⟩

/-- `close` opens nothing. -/
lemma Tame.close (fd : Fd) :
    Tame opened holds holds .stay w { w with kernel := w.kernel.close fd } := by
  refine ⟨rfl, nofun, fun _ => rfl, fun fd' file hfile => .inl ?_⟩
  rw [Kernel.files_close] at hfile
  split_ifs at hfile
  exact hfile

/-- What `endpoint_disconnect_client` does to the locks, and nothing to the queue. -/
lemma Disconnecting.tame {d : Disconnecting} {p : DisconnectPlace} {r : Option DisconnectPlace}
    (h : d.next w p = (op, r, w')) :
    Tame opened p.holds (r.elim holdsNone DisconnectPlace.holds) op w w' := by
  cases p with
  | lock =>
    cases h
    exact .lock _
  | unlock =>
    cases h
    exact .unlock _
  | set | epollDel | shutdown =>
    cases h
    exact .stay rfl rfl
  | close =>
    cases h
    exact .close _

/-- The same call, made under the queue lock. -/
lemma Disconnecting.tame_also {d : Disconnecting} {p : DisconnectPlace}
    {r : Option DisconnectPlace} (h : d.next w p = (op, r, w')) :
    Tame opened (holdsAlso .disconnectQueue p.holds)
      (holdsAlso .disconnectQueue (r.elim holdsNone DisconnectPlace.holds)) op w w' := by
  have hop : op ≠ .lock .disconnectQueue ∧ op ≠ .unlock .disconnectQueue := by
    cases p <;> cases h <;> exact ⟨nofun, nofun⟩
  have htame : Tame opened _ _ op w w' := Disconnecting.tame h
  exact ⟨htame.moves.also hop.1 hop.2, fun hlock => absurd hlock hop.1,
    fun hfree => absurd hfree (by simp [holdsAlso]), htame.files⟩

/-- The number that a thread gets from `accept`. -/
def Place.opens : Place → Answer → Option Fd
  | .accept f .accept, .accept fd => if f.clientAddressLen.toInt < 0 then none else fd
  | _, _                          => none

lemma AcceptFrame.tame {f : AcceptFrame} {p : AcceptPlace}
    {r : AcceptFrame × AcceptPlace ⊕ Returned} (h : f.next w p answer = some (op, r, w')) :
    Tame ((Place.accept f p).opens answer) p.holds
      (r.elim (fun x => x.2.holds) fun _ => holdsNone) op w w' := by
  cases p with
  | epollWait =>
    cases answer with
    | listen event =>
      simp only [next] at h
      split_ifs at h
      · cases h
        exact .stay rfl rfl
      · cases h
        exact .stay rfl rfl
    | done | accept | report => cases h
  | test =>
    simp only [next] at h
    split_ifs at h
    · cases h
      exact .stay rfl rfl
    · cases h
      exact .stay rfl rfl
  | accept =>
    rcases answer with _ | _ | (_ | fd) | _
    · cases h
    · cases h
    · cases h
      exact .stay rfl rfl
    · simp only [next, Option.bind_eq_bind] at h
      split_ifs at h with hfd hlen
      · obtain ⟨kernel, hlose, h⟩ := Option.bind_eq_some_iff.mp h
        cases h
        obtain ⟨-, -, -, -, -, -, hfiles, -⟩ := Kernel.lose_spec hlose
        exact .stay rfl hfiles
      · obtain ⟨kernel, haccept, h⟩ := Option.bind_eq_some_iff.mp h
        cases h
        obtain ⟨c, backlog, -, -, -, hfiles, -⟩ := Kernel.accept_spec haccept
        refine ⟨rfl, nofun, fun _ => rfl, fun fd' file hfile => ?_⟩
        dsimp only at hfile
        rw [hfiles, Function.update_apply] at hfile
        split_ifs at hfile with hfd'
        · exact .inr (by rw [Place.opens, if_neg hlen, hfd'])
        · exact .inl hfile
    · cases h
  | lock fd =>
    cases h
    exact .lock _
  | set fd =>
    cases h
    exact .stay rfl rfl
  | unlock fd =>
    cases h
    exact .unlock _
  | epollAdd fd =>
    cases h
    exact .stay rfl Kernel.files_epollAdd

lemma EventFrame.tame {f : EventFrame} {p : EventPlace}
    {r : EventFrame × EventPlace ⊕ Returned} (h : f.next w p answer = some (op, r, w')) :
    Tame opened p.holds (r.elim (fun x => x.2.holds) fun _ => holdsNone) op w w' := by
  cases p with
  | epollWait =>
    rcases answer with _ | _ | _ | (_ | batch)
    · cases h
    · cases h
    · cases h
    · cases h
      exact .stay rfl rfl
    · simp only [next, Option.bind_eq_bind] at h
      split_ifs at h
      obtain ⟨⟨events, kernel⟩, hevents, h⟩ := Option.bind_eq_some_iff.mp h
      cases h
      obtain rfl := Kernel.epollWait_kernel hevents
      exact .stay rfl rfl
  | test events =>
    cases events with
    | nil =>
      cases h
      exact .stay rfl rfl
    | cons event events =>
      simp only [next] at h
      split_ifs at h
      · cases h
        exact .stay rfl rfl
      · cases h
        exact .stay rfl rfl
  | lock fd events =>
    cases h
    exact .lock _
  | push fd events =>
    cases h
    exact .change rfl rfl
  | unlock events =>
    cases h
    exact .unlock _

lemma HungupsPlace.tame {p : HungupsPlace} {r : HungupsPlace ⊕ Returned}
    (h : p.next w = some (op, r, w')) :
    Tame opened p.holds (r.elim HungupsPlace.holds fun _ => holdsNone) op w w' := by
  cases p with
  | lock =>
    cases h
    exact .lock _
  | test f =>
    simp only [next] at h
    split_ifs at h
    · cases h
      exact .stay rfl rfl
    · cases h
      exact .stay rfl rfl
  | pop f =>
    simp only [next, Option.bind_eq_bind] at h
    obtain ⟨⟨val, queue⟩, -, h⟩ := Option.bind_eq_some_iff.mp h
    cases h
    have hholds : (HungupsPlace.disconnect f ⟨wordToFd val, w.kernel⟩ .lock).holds =
        (HungupsPlace.pop f).holds := holdsAlso_holdsNone _
    simp only [Sum.elim_inl, hholds]
    exact .change rfl rfl
  | disconnect f d p =>
    obtain ⟨r', w₁, hnext⟩ : ∃ r' w₁, d.next w p = (op, r', w₁) := by
      cases h
      exact ⟨_, _, rfl⟩
    have htame : Tame opened _ _ op w w₁ := Disconnecting.tame_also hnext
    simp only [next, hnext] at h
    cases h
    cases r' with
    | none =>
      rw [Option.elim_none, holdsAlso_holdsNone] at htame
      exact htame
    | some p' => exact htame
  | unlock f =>
    cases h
    exact .unlock _

lemma AllPlace.tame {p : AllPlace} {r : AllPlace ⊕ Returned} (h : p.next w = (op, r, w')) :
    Tame opened p.holds (r.elim AllPlace.holds fun _ => holdsNone) op w w' := by
  cases p with
  | lock | clearLock =>
    cases h
    exact .lock _
  | word major | bit major minor value =>
    simp only [next] at h
    split_ifs at h <;> cases h <;> exact .stay rfl rfl
  | callback p major minor value =>
    cases p with
    | close =>
      cases h
      exact .close _
    | set | epollDel | shutdown =>
      cases h
      exact .stay rfl rfl
  | unlock | clearUnlock =>
    cases h
    exact .unlock _
  | clear =>
    simp only [next] at h
    split at h
    · cases h
      exact .stay rfl rfl
    · cases h
      exact .change rfl rfl

/-- The step of a thread. -/
lemma Place.tame {p p' : Place} (h : p.next w answer = some (op, p', w')) :
    Tame (p.opens answer) p.holds p'.holds op w w' := by
  cases p with
  | outside r => cases h
  | accept f p =>
    obtain ⟨⟨op, r, w'⟩, hnext, h⟩ := Option.map_eq_some_iff.mp h
    cases h
    have htame := AcceptFrame.tame hnext
    rcases r with _ | _ <;> exact htame
  | waitEvent f p =>
    obtain ⟨⟨op, r, w'⟩, hnext, h⟩ := Option.map_eq_some_iff.mp h
    cases h
    have htame : Tame none _ _ op w w' := EventFrame.tame hnext
    rcases r with _ | _ <;> exact htame
  | closeHungups p =>
    obtain ⟨⟨op, r, w'⟩, hnext, h⟩ := Option.map_eq_some_iff.mp h
    cases h
    have htame : Tame none _ _ op w w' := HungupsPlace.tame hnext
    rcases r with _ | _ <;> exact htame
  | disconnectClient d p =>
    rcases hnext : d.next w p with ⟨op, r, w'⟩
    simp only [next, hnext] at h
    cases h
    have htame : Tame none _ _ op w w' := Disconnecting.tame hnext
    cases r <;> exact htame
  | disconnectAll p =>
    rcases hnext : p.next w with ⟨op, r, w'⟩
    simp only [next, hnext] at h
    cases h
    have htame : Tame none _ _ op w w' := AllPlace.tame hnext
    cases r <;> exact htame

/-! ### The loop of `endpoint_close_hungups` -/

/-- What the loop has done and what is left on the queue make up the entries that it found. -/
def HungupsPlace.Counts (queue : Stack (BitVec 64)) : HungupsPlace → Prop
  | .lock             => True
  | .test f           => f.count + queue.length = f.entries
  | .pop f            => queue ≠ [] ∧ f.count + queue.length = f.entries
  | .disconnect f _ _ => f.count + 1 + queue.length = f.entries
  | .unlock f         => f.count = f.entries

lemma HungupsPlace.Counts.next {p p' : HungupsPlace} (hp : p.Counts w.endpoint.disconnectQueue)
    (h : p.next w = some (op, .inl p', w')) : p'.Counts w'.endpoint.disconnectQueue := by
  cases p with
  | lock =>
    cases h
    exact Nat.zero_add _
  | test f =>
    simp only [HungupsPlace.next, Option.some.injEq, Prod.mk.injEq, Sum.inl.injEq] at h
    obtain ⟨-, rfl, rfl⟩ := h
    rcases hqueue : w.endpoint.disconnectQueue with _ | ⟨val, queue⟩
    · simpa [Counts, hqueue, stackIsEmpty] using hp
    · simpa [Counts, hqueue, stackIsEmpty] using hp
  | pop f =>
    simp only [HungupsPlace.next, Option.bind_eq_bind] at h
    obtain ⟨⟨val, queue⟩, hpop, h⟩ := Option.bind_eq_some_iff.mp h
    cases h
    obtain ⟨hne, hcount⟩ := hp
    rcases hqueue : w.endpoint.disconnectQueue with _ | ⟨val', queue'⟩
    · exact absurd hqueue hne
    · rw [hqueue] at hpop hcount
      cases hpop
      rw [List.length_cons] at hcount
      have hleft : f.count + 1 + queue.length = f.entries := by omega
      exact hleft
  | disconnect f d p =>
    rcases hnext : d.next w p with ⟨op', r, w₁⟩
    have hqueue : w₁.endpoint.disconnectQueue = w.endpoint.disconnectQueue := by
      cases p <;> cases hnext <;> rfl
    simp only [HungupsPlace.next, hnext] at h
    cases h
    rw [hqueue]
    cases r <;> exact hp
  | unlock f => cases h

/-- A call of `endpoint_close_hungups` goes on by its own step. -/
lemma Place.next_closeHungups {p : Place} {q : HungupsPlace}
    (h : p.next w answer = some (op, .closeHungups q, w')) :
    ∃ q₀, p = .closeHungups q₀ ∧ q₀.next w = some (op, .inl q, w') := by
  cases p with
  | outside r => cases h
  | closeHungups q₀ =>
    obtain ⟨⟨op, r, w'⟩, hnext, h⟩ := Option.map_eq_some_iff.mp h
    rcases r with q | r
    · cases h
      exact ⟨q₀, rfl, hnext⟩
    · cases h
  | accept f p | waitEvent f p =>
    obtain ⟨⟨op, r, w'⟩, -, h⟩ := Option.map_eq_some_iff.mp h
    cases r <;> cases h
  | disconnectClient d p =>
    rcases hnext : d.next w p with ⟨op, r, w'⟩
    simp only [next, hnext] at h
    cases r <;> cases h
  | disconnectAll p =>
    rcases hnext : p.next w with ⟨op, r, w'⟩
    simp only [next, hnext] at h
    cases r <;> cases h

namespace Threads

/-! ### The invariant -/

/-- A step of a thread inside of a call. -/
lemma go_spec (h : s.go t answer = some s') :
    ∃ op p, (s.place t).next s.world answer = some (op, p, s'.world) ∧
      op.apply s.holder t = some s'.holder ∧ s'.place = Function.update s.place t p := by
  simp only [go, Option.bind_eq_bind, Option.bind_eq_some_iff] at h
  obtain ⟨⟨op, p, w⟩, hnext, holder, happly, h⟩ := h
  cases h
  exact ⟨op, p, hnext, happly, rfl⟩

/-- Each lock is held by the thread whose place holds it, and every loop of
`endpoint_close_hungups` has counted right. -/
structure LockInv (s : Threads T) : Prop where
  held : Mutex.Held Place.holds s.holder s.place
  counts : ∀ t p, s.place t = .closeHungups p → p.Counts s.world.endpoint.disconnectQueue

lemma LockInv.go (hI : LockInv s) (h : s.go t answer = some s') : LockInv s' := by
  obtain ⟨op, p, hnext, happly, hplace⟩ := go_spec h
  have htame := Place.tame hnext
  refine ⟨hplace ▸ hI.held.step htame.moves happly, fun u q hu => ?_⟩
  rw [hplace, Function.update_apply] at hu
  split_ifs at hu with hut
  · subst hu
    obtain ⟨q₀, hq₀, hq⟩ := Place.next_closeHungups hnext
    exact (hI.counts t q₀ hq₀).next hq
  · by_cases hq : q.holds .disconnectQueue = true
    · -- the queue lock is held by `u`, so `t` leaves the queue alone
      have hinside : (s.place u).holds .disconnectQueue = true := by rwa [hu]
      have hfree : (s.place t).holds .disconnectQueue = false := by
        rw [← Bool.not_eq_true]
        exact fun ht => hut ((hI.held .disconnectQueue).unique ht hinside)
      rw [htame.queue hfree]
      exact hI.counts u q hu
    · cases q with
      | lock => trivial
      | test f | pop f | unlock f => exact absurd rfl hq
      | disconnect f d p => exact absurd (by simp [HungupsPlace.holds, holdsAlso]) hq

theorem LockInv.step {a : ThreadAct T} (hI : LockInv s) (h : s.step a = some s') : LockInv s' := by
  cases a with
  | arrive =>
    cases h
    exact ⟨hI.held, hI.counts⟩
  | call t c =>
    simp only [Threads.step] at h
    split_ifs at h with hout
    obtain ⟨p, hp, rfl⟩ := Option.map_eq_some_iff.mp h
    have hholds : p.holds = (s.place t).holds := by
      have hnone : (s.place t).holds = holdsNone := by
        cases hplace : s.place t <;> rw [hplace] at hout <;> first | rfl | cases hout
      rw [hnone]
      cases c with
      | accept | waitEvent =>
        simp only [Invocation.start] at hp
        split_ifs at hp
        cases hp
        rfl
      | closeHungups | disconnectClient | disconnectAllClients =>
        cases hp
        rfl
    have hstay : LockOp.stay.Moves (s.place t).holds p.holds := hholds
    refine ⟨hI.held.step hstay rfl, fun u q hu => ?_⟩
    dsimp only at hu
    rw [Function.update_apply] at hu
    split_ifs at hu
    · subst hu
      cases c with
      | accept | waitEvent =>
        simp only [Invocation.start] at hp
        split_ifs at hp
        cases hp
      | closeHungups =>
        cases hp
        trivial
      | disconnectClient | disconnectAllClients => cases hp
    · exact hI.counts u q hu
  | go t answer => exact hI.go h

end Threads

namespace Threads

/-- Two threads on an endpoint, before any call. -/
def two (world : World) : Threads Bool := ⟨world, fun _ => none, fun _ => .outside .nothing⟩

lemma init_two (h : endpointCreate .initial 3 4 5 6 = some w) : (threadsSystem Bool).init (two w) :=
  ⟨⟨.initial, 3, 4, 5, 6, h⟩, fun _ => rfl, fun _ => ⟨_, rfl⟩⟩

/-- A complete call of `endpoint_accept` that accepts one connection. -/
def acceptOne (t : Bool) (fd : Fd) : List (ThreadAct Bool) :=
  [.call t (.accept [0] 1 EPOLLIN 0 16), .go t (.listen (some EPOLLIN)), .go t .done,
    .go t (.accept (some fd)), .go t .done, .go t .done, .go t .done, .go t .done, .go t .done]

end Threads

end C10K
