import C10K.Endpoint.Locks
import C10K.Endpoint.Registry

/-!
# Overlapping calls of `endpoint_disconnect_client`

The four effects of a disconnect are separate steps on a number, and the bit set is the only one of
them that is under a lock. While no connection is accepted under a number that a call is
disconnecting, the number denotes what it denoted when the call began, or nothing, until the call
returns. Otherwise the remaining effects fall on the connection that got the number.
-/

namespace C10K

open Mutex (LockOp)

variable {w w' : World} {op : LockOp Lock} {answer : Answer} {fd : Fd} {file : File} {c c' : ℕ}
variable {T : Type} [DecidableEq T] {s s' : Threads T} {t : T} {d : Disconnecting}

/-- The call of `endpoint_disconnect_client` that a thread is inside of. -/
def Place.disconnecting : Place → Option Disconnecting
  | .disconnectClient d _              => some d
  | .closeHungups (.disconnect _ d _) => some d
  | _                                  => none

/-! ### What a call touches -/

/-- Nothing happens to the number: it is neither deregistered nor removed from an interest list,
shut down or closed. -/
structure Untouched (w w' : World) (fd : Fd) : Prop where
  files : w'.kernel.files fd = w.kernel.files fd
  bit : w'.endpoint.connectedClientsFds.bit (fdToWord fd) =
    w.endpoint.connectedClientsFds.bit (fdToWord fd)
  interest : ∀ ep, w'.kernel.interest ep fd = w.kernel.interest ep fd
  shut : ∀ file, (fd, file) ∈ w'.kernel.shut → (fd, file) ∈ w.kernel.shut
  closed : ∀ file, (fd, file) ∈ w'.kernel.closed → (fd, file) ∈ w.kernel.closed

lemma Untouched.refl (w : World) (fd : Fd) : Untouched w w fd :=
  ⟨rfl, rfl, fun _ => rfl, fun _ => id, fun _ => id⟩

/-- A call touches no other number than its own. -/
lemma Disconnecting.untouched {p : DisconnectPlace} {r : Option DisconnectPlace}
    (h : d.next w p = (op, r, w')) (hne : fd ≠ d.socketFd)
    (hep : w.kernel.files d.socketFd ≠ some .epoll) : Untouched w w' fd := by
  have hbefore : ∀ (l : List (Fd × Option File)) (x : Option File) (file : Option File),
      (fd, file) ∈ l ++ [(d.socketFd, x)] → (fd, file) ∈ l := by
    intro l x file hmem
    refine (List.mem_append.mp hmem).resolve_right fun hlast => hne ?_
    exact congrArg Prod.fst (List.mem_singleton.mp hlast)
  cases p with
  | lock | unlock =>
    cases h
    exact .refl w fd
  | set =>
    cases h
    refine ⟨rfl, ?_, fun _ => rfl, fun _ => id, fun _ => id⟩
    exact (bit_boolsetSet ..).trans (if_neg (fdToWord_injective.ne hne))
  | epollDel =>
    cases h
    exact ⟨rfl, rfl, fun ep => if_neg fun heq => hne heq.2, fun _ => id, fun _ => id⟩
  | shutdown =>
    cases h
    exact ⟨rfl, rfl, fun _ => rfl, fun file => hbefore _ _ file, fun _ => id⟩
  | close =>
    cases h
    refine ⟨?_, rfl, fun ep => ?_, fun _ => id, fun file => hbefore _ _ file⟩
    · rw [Kernel.files_close, if_neg hne]
    · rw [Kernel.interest_close]
      split_ifs with hlist
      · obtain rfl | hfd := hlist
        · exact (w.kernel.interest_eq_none_of_ne hep).symm
        · exact absurd hfd hne
      · rfl

/-- The step of a thread inside of a call is a step of the call. -/
lemma Place.next_disconnecting {p p' : Place} (hp : p.disconnecting = some d)
    (h : p.next w answer = some (op, p', w')) : ∃ q r, d.next w q = (op, r, w') := by
  cases p with
  | outside | accept | waitEvent | disconnectAll => cases hp
  | disconnectClient d₀ q =>
    cases hp
    cases h
    exact ⟨q, _, rfl⟩
  | closeHungups q =>
    cases q with
    | lock | test | pop | unlock => cases hp
    | disconnect f d₀ q =>
      cases hp
      cases h
      exact ⟨q, _, rfl⟩

/-- A thread enters a call of `endpoint_disconnect_client` from `endpoint_close_hungups`. -/
lemma Place.disconnecting_next {p p' : Place} (h : p.next w answer = some (op, p', w'))
    (hp : p'.disconnecting = some d) :
    p.disconnecting = some d ∨ d.began = w.kernel ∧ ∀ answer, p.opens answer = none := by
  cases p with
  | outside r => cases h
  | accept f q | waitEvent f q =>
    obtain ⟨⟨op, r, w'⟩, -, h⟩ := Option.map_eq_some_iff.mp h
    cases r <;> cases h <;> cases hp
  | disconnectClient d₀ q =>
    rcases hnext : d₀.next w q with ⟨op, r, w'⟩
    simp only [next, hnext] at h
    cases r with
    | none =>
      cases h
      cases hp
    | some q' =>
      cases h
      exact .inl hp
  | disconnectAll q =>
    rcases hnext : q.next w with ⟨op, r, w'⟩
    simp only [next, hnext] at h
    cases r <;> cases h <;> cases hp
  | closeHungups q =>
    obtain ⟨⟨op, r, w'⟩, hnext, h⟩ := Option.map_eq_some_iff.mp h
    cases h
    cases q with
    | lock | unlock =>
      cases hnext
      cases hp
    | test f =>
      simp only [HungupsPlace.next] at hnext
      split_ifs at hnext <;> cases hnext <;> cases hp
    | pop f =>
      simp only [HungupsPlace.next, Option.bind_eq_bind] at hnext
      obtain ⟨⟨val, queue⟩, -, hnext⟩ := Option.bind_eq_some_iff.mp hnext
      cases hnext
      cases hp
      exact .inr ⟨rfl, fun _ => rfl⟩
    | disconnect f d₀ q =>
      rcases hcall : d₀.next w q with ⟨op', r', w₁⟩
      simp only [HungupsPlace.next, hcall] at hnext
      cases r' with
      | none =>
        cases hnext
        cases hp
      | some q' =>
        cases hnext
        exact .inl hp

namespace Threads

/-! ### Runs in which the numbers are kept -/

/-- No connection is accepted under the number of a call of `endpoint_disconnect_client` that has
not returned. -/
def NumberFree (s : Threads T) : ThreadAct T → Prop
  | .go t answer => ∀ fd, (s.place t).opens answer = some fd →
    ∀ u d, (s.place u).disconnecting = some d → d.socketFd ≠ fd
  | _ => True

/-- The number of each call denotes what it denoted when the call began, or nothing. -/
def NumberKept (s : Threads T) : Prop :=
  ∀ t d, (s.place t).disconnecting = some d →
    ∀ file, s.world.kernel.files d.socketFd = some file → d.began.files d.socketFd = some file

lemma NumberKept.step {a : ThreadAct T} (hK : NumberKept s) (hG : s.NumberFree a)
    (h : s.step a = some s') : NumberKept s' := by
  cases a with
  | arrive =>
    cases h
    exact hK
  | call t c =>
    simp only [Threads.step] at h
    split_ifs at h
    obtain ⟨p, hp, rfl⟩ := Option.map_eq_some_iff.mp h
    intro u d hu
    dsimp only at hu
    rw [Function.update_apply] at hu
    split_ifs at hu
    · cases c with
      | accept | waitEvent =>
        simp only [Invocation.start] at hp
        split_ifs at hp
        cases hp
        cases hu
      | closeHungups | disconnectAllClients =>
        cases hp
        cases hu
      | disconnectClient socketFd =>
        -- the call begins
        cases hp
        cases hu
        exact fun _ => id
    · exact hK u d hu
  | go t answer =>
    obtain ⟨op, p, hnext, -, hplace⟩ := go_spec h
    intro u d hu file hfile
    rw [hplace, Function.update_apply] at hu
    have hfiles := (Place.tame hnext).files d.socketFd file hfile
    split_ifs at hu with hut
    · rcases Place.disconnecting_next hnext hu with hold | ⟨hbegan, hopens⟩
      · refine hK t d hold file (hfiles.resolve_right fun hopened => ?_)
        exact hG _ hopened t d hold rfl
      · rw [hopens] at hfiles
        refine hbegan ▸ hfiles.resolve_right ?_
        rintro ⟨⟩
    · refine hK u d hu file (hfiles.resolve_right fun hopened => ?_)
      exact hG _ hopened u d hu rfl

end Threads

/-- In every run in which no connection is accepted under the number of a call that has not
returned: the next step of a call of `endpoint_disconnect_client`, which began while its number
denoted a connection, touches no connection that was accepted after the call began. -/
theorem disconnect_client_spares_later
    (h : (threadsSystem T).ReachableMeeting Threads.NumberFree s)
    (hcall : (s.place t).disconnecting = some d)
    (hbegan : d.began.files d.socketFd = some (.conn c)) (hlater : ¬ d.began.Seen c')
    (hopen : s.world.kernel.files fd = some (.conn c'))
    (hstep : s.step (.go t answer) = some s') : Untouched s.world s'.world fd := by
  have hK : s.NumberKept := by
    refine h.invariant (I := Threads.NumberKept) ?_ fun s a s' _ hK hG hstep => hK.step hG hstep
    rintro s₀ ⟨-, -, hplace⟩ t d hd
    obtain ⟨r, hr⟩ := hplace t
    rw [hr] at hd
    cases hd
  obtain ⟨op, p, hnext, -, -⟩ := Threads.go_spec hstep
  obtain ⟨q, r, hq⟩ := Place.next_disconnecting hcall hnext
  refine Disconnecting.untouched hq ?_ ?_
  · rintro rfl
    exact hlater (Kernel.seen_of_open (hK t d hcall _ hopen))
  · intro hep
    exact absurd (hbegan.symm.trans (hK t d hcall _ hep)) nofun

namespace Threads

/-- The guard, tested. -/
def numberFree (s : Threads Bool) : ThreadAct Bool → Bool
  | .go t answer => [true, false].all fun u =>
    match (s.place t).opens answer, (s.place u).disconnecting with
    | some fd, some d => d.socketFd ≠ fd
    | _, _            => true
  | _ => true

lemma numberFree_spec {s : Threads Bool} {a : ThreadAct Bool} (h : s.numberFree a = true) :
    s.NumberFree a := by
  cases a with
  | go t answer =>
    intro fd hfd u d hd
    have hu : u ∈ [true, false] := by cases u <;> decide
    have htest := List.all_eq_true.mp h u hu
    simpa only [hfd, hd, decide_eq_true_eq] using htest
  | arrive | call => trivial

end Threads

/-- While one thread disconnects 7, the other one accepts a connection as 8. Then 7 is closed. -/
theorem disconnect_client_spares_later_one : ∃ s s' : Threads Bool,
    s.step (.go false .done) = some s' ∧ s.world.kernel.files 7 = some (.conn 0) ∧
      s'.world.kernel.files 7 = none ∧ s.world.kernel.files 8 = some (.conn 1) ∧
        Untouched s.world s'.world 8 := by
  let go : Bool → ThreadAct Bool := fun t => .go t .done
  let acts : List (ThreadAct Bool) :=
    .arrive :: .arrive :: Threads.acceptOne true 7 ++
      [.call false (.disconnectClient 7), go false, go false, go false, go false] ++
        Threads.acceptOne true 8 ++ [go false]
  have hrun : ((endpointCreate .initial 3 4 5 6).bind fun w =>
      ((threadsSystem Bool).execMeeting Threads.numberFree (.two w) acts).bind fun s =>
      ((threadsSystem Bool).step s (go false)).bind fun s' =>
      (s.place false).disconnecting.map fun d => (d.began.files d.socketFd, d.began.backlog,
        s.world.kernel.files 7, s'.world.kernel.files 7, s.world.kernel.files 8)) =
      some (some (.conn 0), [1], some (.conn 0), none, some (.conn 1)) := by decide +kernel
  simp only [Option.bind_eq_some_iff, Option.map_eq_some_iff, Prod.mk.injEq] at hrun
  obtain ⟨w, hw, s, hs, s', hstep, d, hcall, hbegan, hbacklog, hbefore, hafter, hopen⟩ := hrun
  have hreach : (threadsSystem Bool).ReachableMeeting Threads.NumberFree s :=
    ⟨_, acts, Threads.init_two hw, LTS.runMeeting_of_exec hs fun _ _ => Threads.numberFree_spec⟩
  have hlater : ¬ d.began.Seen 1 := fun hseen => hseen.2 (by simp [hbacklog])
  exact ⟨s, s', hstep, hbefore, hafter, hopen,
    disconnect_client_spares_later hreach hcall hbegan hlater hopen hstep⟩

/-- Two threads disconnect 7 at the same time; after the first of them is done, the next connection
gets 7, and the second thread closes it. -/
theorem disconnect_client_closes_successor : ¬ ∀ (s s' : Threads Bool) (t : Bool)
    (d : Disconnecting) (answer : Answer) (fd : Fd) (c c' : ℕ),
    (threadsSystem Bool).Reachable s → (s.place t).disconnecting = some d →
      d.began.files d.socketFd = some (.conn c) → ¬ d.began.Seen c' →
        s.world.kernel.files fd = some (.conn c') → s.step (.go t answer) = some s' →
          Untouched s.world s'.world fd := by
  intro hall
  let go : Bool → ThreadAct Bool := fun t => .go t .done
  let acts : List (ThreadAct Bool) :=
    .arrive :: .arrive :: Threads.acceptOne true 7 ++
      [.call false (.disconnectClient 7), .call true (.disconnectClient 7), go true, go true,
        go true, go true, go true, go true] ++ Threads.acceptOne true 7 ++
      [go false, go false, go false, go false, go false]
  have hrun : ((endpointCreate .initial 3 4 5 6).bind fun w =>
      ((threadsSystem Bool).exec (.two w) acts).bind fun s =>
      ((threadsSystem Bool).step s (go false)).bind fun s' =>
      (s.place false).disconnecting.map fun d => (d.began.files d.socketFd, d.began.backlog,
        s.world.kernel.files 7, s'.world.kernel.files 7)) =
      some (some (.conn 0), [1], some (.conn 1), none) := by decide +kernel
  simp only [Option.bind_eq_some_iff, Option.map_eq_some_iff, Prod.mk.injEq] at hrun
  obtain ⟨w, hw, s, hs, s', hstep, d, hcall, hbegan, hbacklog, hopen, hclosed⟩ := hrun
  have hreach : (threadsSystem Bool).Reachable s :=
    ⟨_, acts, Threads.init_two hw, LTS.run_of_exec hs⟩
  have hlater : ¬ d.began.Seen 1 := fun hseen => hseen.2 (by simp [hbacklog])
  have hkept := (hall s s' false d .done 7 0 1 hreach hcall hbegan hlater hopen hstep).files
  rw [hclosed, hopen] at hkept
  cases hkept

end C10K
