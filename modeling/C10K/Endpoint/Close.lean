import C10K.Boolset.Iteration
import C10K.Endpoint.Accept
import C10K.Endpoint.NoLoss

/-!
# `endpoint_close`

The numbers that are closed are read off the bit set while it is cleared, and the numbers on the
disconnection queue are dropped. The registry makes the first the clients that are still connected;
the endpoint's own descriptors keep their meaning in every call, so none of them is closed twice.
-/

namespace C10K

variable {w w' : World} {fd : Fd} {s s' : Session} {call : EndpointCall}

/-- `endpoint_close`, with the kernel and the disconnection queue that it leaves. The bit set is
freed and the locks are destroyed. -/
def endpointClose (w : World) : Option (Kernel Fd × Stack (BitVec 64)) := do
  let w := { w with kernel := w.kernel.close w.endpoint.srvFd }
  let w ← endpointDisconnectAllClients w
  let kernel := w.kernel.epollDel w.endpoint.epListener w.endpoint.srvFd
  let kernel := kernel.epollDel w.endpoint.epListener w.endpoint.shutdownFd
  let kernel := kernel.epollDel w.endpoint.epSelector w.endpoint.shutdownFd
  let kernel := kernel.close w.endpoint.epListener
  let kernel := kernel.close w.endpoint.epSelector
  let kernel := kernel.close w.endpoint.shutdownFd
  let w := endpointClearDisconnectionQueue { w with kernel }
  return (w.kernel, w.endpoint.disconnectQueue)

/-! ### The second epoll instance -/

namespace World

/-- The two epoll instances are different descriptors, and the first is open. -/
structure ListenerOpen (w : World) : Prop where
  listener : w.kernel.files w.endpoint.epListener = some .epoll
  ne : w.endpoint.epListener ≠ w.endpoint.epSelector

lemma ListenerOpen.disconnectClient (h : w.ListenerOpen) (hloose : w.Loose fd) :
    (endpointDisconnectClient w fd).ListenerOpen where
  listener := by
    rw [files_endpointDisconnectClient, if_neg]
    · exact h.listener
    · exact hloose.ne h.listener rfl
  ne := h.ne

/-- Every complete call keeps the listener open. -/
lemma ListenerOpen.step (h : s.ListenerOpen) (hI : s.Registry) (hstep : s.step call = some s') :
    s'.ListenerOpen := by
  cases call with
  | arrive =>
    cases hstep
    exact ⟨h.listener, h.ne⟩
  | accept =>
    obtain ⟨⟨n, newFds', w'⟩, hresult, rfl⟩ := Option.map_eq_some_iff.mp hstep
    obtain ⟨hfiles, hendpoint⟩ := endpointAccept_keeps hI hresult
    have hopen : s.kernel.files s.endpoint.epListener ≠ none := by simp [h.listener]
    have hlistener : w'.endpoint.epListener = s.endpoint.epListener := by rw [hendpoint]
    have hselector : w'.endpoint.epSelector = s.endpoint.epSelector := by rw [hendpoint]
    constructor
    · exact (congrArg w'.kernel.files hlistener).trans ((hfiles _ hopen).trans h.listener)
    · exact hlistener.trans_ne (h.ne.trans_eq hselector.symm)
  | waitEvent socketFds eventFlags maxEvents answer =>
    obtain ⟨⟨n, socketFds', eventFlags', w'⟩, hresult, rfl⟩ := Option.map_eq_some_iff.mp hstep
    obtain ⟨queue, hqueue, -⟩ := hI.tracked.waitEvent hresult
    obtain rfl : w' = World.setQueue _ queue := hqueue
    exact ⟨h.listener, h.ne⟩
  | closeHungups =>
    cases hstep
    have hboth : (endpointCloseHungups s.toWorld).2.Registry ∧
        (endpointCloseHungups s.toWorld).2.ListenerOpen := by
      refine closeHungupsLoop_induct (P := fun u => u.Registry ∧ u.ListenerOpen) 0 rfl ⟨hI, h⟩ ?_
      rintro u v queue hqueue ⟨hu, hopen⟩
      obtain ⟨hpop, hloose⟩ := hu.pop hqueue
      have hopen : (u.setQueue queue).ListenerOpen := ⟨hopen.listener, hopen.ne⟩
      exact ⟨hpop.disconnectClient hloose, hopen.disconnectClient hloose⟩
    exact hboth.2
  | disconnectClient socketFd =>
    simp only [Session.step] at hstep
    split_ifs at hstep with hbit
    cases hstep
    exact h.disconnectClient ((hI.recorded socketFd).bit.mp hbit).loose
  | disconnectAllClients =>
    obtain ⟨w, hw, rfl⟩ := Option.map_eq_some_iff.mp hstep
    rw [endpointDisconnectAllClients_eq hI.size_le] at hw
    cases hw
    have hfold := foldl_disconnectAllForeach_induct h (fun i hi => hI.exists_of_mem_members hi)
      fun u fd hloose hu => hu.disconnectClient hloose
    exact ⟨hfold.listener, hfold.ne⟩

lemma ListenerOpen.create {k : Kernel Fd} {srvFd epListener epSelector shutdownFd : Fd}
    (h : endpointCreate k srvFd epListener epSelector shutdownFd = some w) : w.ListenerOpen := by
  obtain ⟨hendpoint, hfiles, hts, -, -⟩ := endpointCreate_spec h
  simp only [endpointCreate, bind, Option.bind_eq_some_iff] at h
  obtain ⟨k₁, -, k₂, h₂, k₃, h₃, k₄, h₄, -⟩ := h
  have hsl : epSelector ≠ epListener := ne_of_openFd h₂ h₃
  have htl : shutdownFd ≠ epListener := by
    intro heq
    obtain ⟨-, hf₂, -⟩ := openFd_spec h₂
    obtain ⟨-, hf₃, -⟩ := openFd_spec h₃
    obtain ⟨hnone, -, -⟩ := openFd_spec h₄
    rw [heq, hf₃, Function.update_of_ne hsl.symm, hf₂, Function.update_self] at hnone
    cases hnone
  constructor
  · rw [hendpoint, hfiles, if_neg htl.symm, if_neg hsl.symm, if_pos rfl]
  · rw [hendpoint]
    exact hsl.symm

end World

lemma listenerOpen_of_reachable (h : endpointSystem.Reachable s) : s.ListenerOpen := by
  have hboth : s.Registry ∧ s.ListenerOpen := by
    apply h.invariant (I := fun s => s.Registry ∧ s.ListenerOpen)
    · rintro s ⟨k, srvFd, epListener, epSelector, shutdownFd, hconn, hcreate, -⟩
      exact ⟨World.Registry.create hconn hcreate, World.ListenerOpen.create hcreate⟩
    · rintro s call s' ⟨hI, hopen⟩ hstep
      exact ⟨hI.step hstep, hopen.step hI hstep⟩
  exact hboth.2

/-! ### What is closed -/

/-- The callback on one number after another closes them in order, also when others are closed
behind them, and changes the bit set besides. -/
lemma foldl_disconnectAllForeach_closed (fds rest : List Fd) (w : World) :
    let w' := (fds.map fdToWord).foldl disconnectAllForeach w
    w'.kernel.closed ++ Kernel.closings w'.kernel.files rest =
        w.kernel.closed ++ Kernel.closings w.kernel.files (fds ++ rest) ∧
      w'.endpoint = { w.endpoint with connectedClientsFds := w'.endpoint.connectedClientsFds } := by
  induction fds generalizing w with
  | nil => exact ⟨rfl, rfl⟩
  | cons fd fds ih =>
    obtain ⟨hclosed, hendpoint⟩ := ih (endpointDisconnectClient w fd)
    rw [List.map_cons, List.foldl_cons, disconnectAllForeach_fdToWord]
    exact ⟨hclosed.trans (closed_endpointDisconnectClient (fds ++ rest)), hendpoint⟩

/-- The connected clients, in the order in which they are disconnected. -/
lemma World.Registry.exists_clients (hI : w.Registry) : ∃ clients : List Fd,
    w.endpoint.connectedClientsFds.members = clients.map fdToWord ∧ clients.Nodup ∧
      ∀ fd, fd ∈ clients ↔ w.Accepted fd := by
  have hmem : ∀ fd, fdToWord fd ∈ w.endpoint.connectedClientsFds.members ↔ w.Accepted fd :=
    fun fd => (mem_members hI.size_le).trans (hI.recorded fd).bit
  have hwords : ∀ i ∈ w.endpoint.connectedClientsFds.members, fdToWord (wordToFd i) = i := by
    intro i hi
    obtain ⟨fd, rfl, -⟩ := hI.exists_of_mem_members hi
    rw [wordToFd_fdToWord]
  have hmap : w.endpoint.connectedClientsFds.members =
      (w.endpoint.connectedClientsFds.members.map wordToFd).map fdToWord := by
    rw [List.map_map]
    exact (List.map_congr_left hwords).trans (List.map_id _) |>.symm
  refine ⟨_, hmap, ?_, fun fd => ?_⟩
  · apply List.Nodup.of_map fdToWord
    rw [← hmap]
    exact (pairwise_members hI.size_le).imp fun hlt => ne_of_apply_ne BitVec.toNat hlt.ne
  · rw [← hmem, hmap, List.mem_map_of_injective fdToWord_injective, ← hmap]

/-- The disconnection queue has no part in it. -/
lemma endpointClose_setQueue (hsize : w.endpoint.connectedClientsFds.size ≤ 2 ^ 58)
    (queue : Stack (BitVec 64)) : endpointClose (w.setQueue queue) = endpointClose w := by
  have hfold : ∀ (l : List (BitVec 64)) (w : World),
      l.foldl disconnectAllForeach (w.setQueue queue) =
        (l.foldl disconnectAllForeach w).setQueue queue := by
    intro l
    induction l with
    | nil => exact fun _ => rfl
    | cons i l ih => exact fun w => ih (disconnectAllForeach w i)
  let w₀ := { w with kernel := w.kernel.close w.endpoint.srvFd }
  have hdisconnect : endpointDisconnectAllClients (w₀.setQueue queue) =
      endpointDisconnectAllClients w₀ := by
    rw [World.endpointDisconnectAllClients_eq (w := w₀) hsize,
      World.endpointDisconnectAllClients_eq (w := w₀.setQueue queue) hsize]
    exact congrArg (fun w => some (w.setQueue [])) (hfold _ w₀)
  exact congrArg (Option.bind · _) hdisconnect

/-- The descriptors that the endpoint owns. -/
def World.Owned (w : World) (fd : Fd) : Prop :=
  fd = w.endpoint.srvFd ∨ w.Accepted fd ∨ fd = w.endpoint.epListener ∨
    fd = w.endpoint.epSelector ∨ fd = w.endpoint.shutdownFd

/-- The order in which `endpoint_close` closes them. -/
def Endpoint.closeOrder (e : Endpoint) (clients : List Fd) : List Fd :=
  e.srvFd :: (clients ++ [e.epListener, e.epSelector, e.shutdownFd])

/-- `endpoint_close` closes the server socket, the clients and the endpoint's other descriptors. -/
lemma endpointClose_eq (hsize : w.endpoint.connectedClientsFds.size ≤ 2 ^ 58) {clients : List Fd}
    (hmembers : w.endpoint.connectedClientsFds.members = clients.map fdToWord) :
    ∃ k, endpointClose w = some (k, []) ∧ k.closed = w.kernel.closed ++
      Kernel.closings w.kernel.files (w.endpoint.closeOrder clients) := by
  let w₀ := { w with kernel := w.kernel.close w.endpoint.srvFd }
  obtain ⟨hclosed, hendpoint⟩ := foldl_disconnectAllForeach_closed clients
    [w.endpoint.epListener, w.endpoint.epSelector, w.endpoint.shutdownFd] w₀
  have hdisconnect := World.endpointDisconnectAllClients_eq (w := w₀) hsize
  rw [show w₀.endpoint.connectedClientsFds.members = _ from hmembers] at hdisconnect
  set w₁ := (clients.map fdToWord).foldl disconnectAllForeach w₀
  have hlistener : w₁.endpoint.epListener = w.endpoint.epListener := by rw [hendpoint]
  have hselector : w₁.endpoint.epSelector = w.endpoint.epSelector := by rw [hendpoint]
  have hshutdown : w₁.endpoint.shutdownFd = w.endpoint.shutdownFd := by rw [hendpoint]
  unfold endpointClose
  simp only [bind, Option.bind]
  rw [show endpointDisconnectAllClients { w with kernel := _ } = _ from hdisconnect]
  refine ⟨_, rfl, ?_⟩
  have hlast : ∀ k : Kernel Fd, k.closed = k.closed ++ Kernel.closings k.files [] := fun k =>
    (List.append_nil _).symm
  rw [hlast]
  simp only [endpointClearDisconnectionQueue, World.setQueue,
    Kernel.closed_append_closings_close, hlistener, hselector, hshutdown]
  exact hclosed.trans (Kernel.closed_append_closings_close _)

namespace World.Registry

lemma ne_none_of_owned (hI : w.Registry) (hopen : w.ListenerOpen) (h : w.Owned fd) :
    w.kernel.files fd ≠ none := by
  rcases h with rfl | ⟨c, hc⟩ | rfl | rfl | rfl
  · simp [hI.srv]
  · simp [hc]
  · simp [hopen.listener]
  · simp [hI.selector]
  · simp [hI.shutdown]

/-- The descriptors in the order differ: they denote different files, or are two clients or the two
epoll instances. -/
lemma nodup_closeOrder (hI : w.Registry) (hopen : w.ListenerOpen) {clients : List Fd}
    (hnodup : clients.Nodup) (hclients : ∀ fd ∈ clients, w.Accepted fd) :
    (w.endpoint.closeOrder clients).Nodup := by
  have hnot : ∀ {fd file}, w.kernel.files fd = some file → file.isConn = false →
      fd ∉ clients := by
    intro fd file hfile hconn hmem
    exact (hclients fd hmem).loose.ne hfile hconn rfl
  have hne : ∀ {fd fd' file file'}, w.kernel.files fd = some file →
      w.kernel.files fd' = some file' → file ≠ file' → fd ≠ fd' := by
    rintro fd _ file file' hfile hfile' hne rfl
    exact hne (Option.some.inj (hfile.symm.trans hfile'))
  rw [Endpoint.closeOrder, List.nodup_cons, List.nodup_append_comm, List.nodup_append']
  simp only [List.mem_append, List.mem_cons, List.not_mem_nil, or_false, not_or,
    List.nodup_cons, List.nodup_nil, not_false_eq_true, and_true, List.disjoint_cons_left,
    List.disjoint_nil_left]
  refine ⟨⟨hnot hI.srv rfl, ?_, ?_, ?_⟩, ⟨⟨hopen.ne, ?_⟩, ?_⟩, hnodup, ?_, ?_, ?_⟩
  · exact hne hI.srv hopen.listener nofun
  · exact hne hI.srv hI.selector nofun
  · exact hne hI.srv hI.shutdown nofun
  · exact hne hopen.listener hI.shutdown nofun
  · exact hne hI.selector hI.shutdown nofun
  · exact hnot hopen.listener rfl
  · exact hnot hI.selector rfl
  · exact hnot hI.shutdown rfl

end World.Registry

/-- In every reachable state and whatever the disconnection queue holds, `endpoint_close` closes the
server socket, the accepted clients that are not closed yet and the endpoint's other descriptors
once each and no other number, and leaves the queue empty. Each of them is open at the start. -/
theorem endpoint_close_closes_owned (h : endpointSystem.Reachable s) (queue : Stack (BitVec 64)) :
    ∃ k closed, endpointClose (s.setQueue queue) = some (k, []) ∧
      k.closed = s.kernel.closed ++ closed ∧ (closed.map Prod.fst).Nodup ∧
      (∀ fd, fd ∈ closed.map Prod.fst ↔ s.Owned fd) ∧
      ∀ fd file, (fd, file) ∈ closed → file = s.kernel.files fd ∧ file ≠ none := by
  have hI := registry_of_reachable h
  have hopen := listenerOpen_of_reachable h
  obtain ⟨clients, hmembers, hnodup, hclients⟩ := hI.exists_clients
  have haccepted : ∀ fd ∈ clients, s.Accepted fd := fun fd hfd => (hclients fd).mp hfd
  obtain ⟨k, hclose, hclosed⟩ := endpointClose_eq hI.size_le hmembers
  rw [Kernel.closings_of_nodup (hI.nodup_closeOrder hopen hnodup haccepted)] at hclosed
  have howned : ∀ fd, fd ∈ s.endpoint.closeOrder clients ↔ s.Owned fd := by
    intro fd
    simp [Endpoint.closeOrder, World.Owned, hclients]
  have hfst : ((s.endpoint.closeOrder clients).map fun fd => (fd, s.kernel.files fd)).map
      Prod.fst = s.endpoint.closeOrder clients := by
    rw [List.map_map]
    exact List.map_id _
  refine ⟨k, _, (endpointClose_setQueue hI.size_le queue).trans hclose, hclosed, ?_, ?_, ?_⟩
  · rw [hfst]
    exact hI.nodup_closeOrder hopen hnodup haccepted
  · rw [hfst]
    exact howned
  · intro fd file hmem
    obtain ⟨_, hfd, heq⟩ := List.mem_map.mp hmem
    cases heq
    exact ⟨rfl, hI.ne_none_of_owned hopen ((howned fd).mp hfd)⟩

/-- The number 7 was reported twice and disconnected, and a second client got the number 8. -/
theorem endpoint_close_closes_owned_stale : ∃ s : Session, endpointSystem.Reachable s ∧
    s.endpoint.disconnectQueue = [7, 7] ∧ s.Accepted 8 ∧
    ∃ k closed, endpointClose s.toWorld = some (k, []) ∧
      k.closed = s.kernel.closed ++ closed ∧ (closed.map Prod.fst).Nodup ∧
      (∀ fd, fd ∈ closed.map Prod.fst ↔ s.Owned fd) ∧
      ∀ fd file, (fd, file) ∈ closed → file = s.kernel.files fd ∧ file ≠ none := by
  have hrun : ((endpointCreate .initial 3 4 5 6).bind fun w =>
      (endpointSystem.exec ⟨w, []⟩ [.arrive, .accept [0] 1 EPOLLIN 0 16 (some EPOLLIN) [7],
        .waitEvent [0, 0] [0, 0] 2 (some [(7, EPOLLRDHUP), (7, EPOLLRDHUP)]),
        .disconnectClient 7, .arrive, .accept [0] 1 EPOLLIN 0 16 (some EPOLLIN) [8]]).map
        fun s => (s.endpoint.disconnectQueue, s.kernel.files 8)) =
      some ([7, 7], some (.conn 1)) := by decide +kernel
  obtain ⟨w, hw, hrun⟩ := Option.bind_eq_some_iff.mp hrun
  obtain ⟨s, hs, hresult⟩ := Option.map_eq_some_iff.mp hrun
  rw [Prod.mk.injEq] at hresult
  have h : endpointSystem.Reachable s :=
    ⟨⟨w, []⟩, _, ⟨.initial, 3, 4, 5, 6, nofun, hw, rfl⟩, LTS.run_of_exec hs⟩
  exact ⟨s, h, hresult.1, ⟨1, hresult.2⟩, endpoint_close_closes_owned h s.endpoint.disconnectQueue⟩

end C10K
