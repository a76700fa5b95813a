import C10K.Lib.Kernel

/-!
# Where each connection is

Every connection that came in waits to be accepted, or was lost by an `accept` that failed, or is
open under one number, or was closed once. `Kernel.Ledger` states it, and every system call keeps
it, whatever numbers the process passes.
-/

/-- The connection that a file is. -/
def File.conn? : File → Option ℕ
  | .conn c                            => some c
  | .listener | .epoll | .event | .other => none

lemma File.conn?_eq_some {file : File} {c : ℕ} : file.conn? = some c ↔ file = .conn c := by
  cases file <;> simp [File.conn?]

namespace Kernel

variable {F : Type*} {k k' : Kernel F} {ep fd srv : F} {e : EpollEvent F} {file : File} {c : ℕ}

/-- The connections that were closed, in order. -/
def closedConns (k : Kernel F) : List ℕ := k.closed.filterMap fun (_, file) => file.bind File.conn?

/-- A connection was closed at most once, and had been accepted and is not open then; and a
connection that was accepted and is not open was closed. -/
structure Ledger (k : Kernel F) : Prop where
  nodup : k.closedConns.Nodup
  closed : ∀ c ∈ k.closedConns, k.Seen c ∧ ∀ fd, k.files fd ≠ some (.conn c)
  accounted : ∀ c, k.Seen c → (∃ fd, k.files fd = some (.conn c)) ∨ c ∈ k.closedConns

/-- Nothing is accepted or closed. -/
lemma Ledger.congr (hL : k.Ledger) (hfiles : k'.files = k.files)
    (hunopened : ∀ c, c ∈ k'.backlog ++ k'.lost ↔ c ∈ k.backlog ++ k.lost)
    (harrived : k'.arrived = k.arrived) (hclosed : k'.closed = k.closed) : k'.Ledger := by
  have hconns : k'.closedConns = k.closedConns := by rw [closedConns, hclosed, closedConns]
  have hseen : ∀ c, k'.Seen c ↔ k.Seen c := by
    intro c
    rw [Seen, harrived, hunopened, Seen]
  constructor
  · rw [hconns]
    exact hL.nodup
  · intro c hc
    rw [hseen, hfiles]
    exact hL.closed c (hconns ▸ hc)
  · intro c hc
    rw [hfiles, hconns]
    exact hL.accounted c ((hseen c).mp hc)

lemma Ledger.shutdown (hL : k.Ledger) (fd : F) : (k.shutdown fd).Ledger :=
  hL.congr rfl (fun _ => .rfl) rfl rfl

/-- A connection that comes in waits. -/
lemma Ledger.arrive (hL : k.Ledger) : k.arrive.Ledger where
  nodup := hL.nodup
  closed c hc := ⟨(hL.closed c hc).1.arrive, (hL.closed c hc).2⟩
  accounted c hc := by
    apply hL.accounted
    obtain ⟨hlt, hnot⟩ := hc
    simp only [Kernel.arrive, List.append_assoc, List.mem_append, List.mem_singleton,
      not_or] at hnot
    obtain ⟨hbacklog, hne, hlost⟩ := hnot
    refine ⟨lt_of_le_of_ne (Nat.lt_succ_iff.mp hlt) hne, ?_⟩
    rw [List.mem_append, not_or]
    exact ⟨hbacklog, hlost⟩

/-- What a process starts with: no connection came in, and it closed nothing. -/
structure Fresh (k : Kernel F) : Prop where
  arrived : k.arrived = 0
  closed : k.closed = []

lemma Fresh.ledger (h : k.Fresh) : k.Ledger where
  nodup := by
    rw [closedConns, h.closed]
    exact List.nodup_nil
  closed c hc := by
    rw [closedConns, h.closed] at hc
    cases hc
  accounted c hc := absurd (h.arrived ▸ hc.1) (Nat.not_lt_zero c)

lemma Fresh.not_conn (h : k.Fresh) : k.files fd ≠ some (.conn c) := by
  intro hfd
  exact Nat.not_lt_zero c (h.arrived ▸ k.valid.known hfd)

variable [DecidableEq F]

lemma Ledger.openFile (hL : k.Ledger) (h : k.openFile fd file = some k') : k'.Ledger := by
  unfold Kernel.openFile at h
  split_ifs at h with hfd
  cases h
  have hopen : ∀ fd' c, Function.update k.files fd (some file) fd' = some (.conn c) ↔
      k.files fd' = some (.conn c) := by
    intro fd' c
    rw [Function.update_apply]
    split_ifs with heq
    · rw [heq, hfd.1]
      refine iff_of_false ?_ (by rintro ⟨⟩)
      intro hc
      cases hc
      cases hfd.2
    · exact Iff.rfl
  constructor
  · exact hL.nodup
  · intro c hc
    refine ⟨(hL.closed c hc).1, ?_⟩
    intro fd' hfd'
    exact (hL.closed c hc).2 fd' ((hopen fd' c).mp hfd')
  · intro c hc
    refine (hL.accounted c hc).imp ?_ id
    rintro ⟨fd', hfd'⟩
    exact ⟨fd', (hopen fd' c).mpr hfd'⟩

/-- The connection that is accepted is open now. -/
lemma Ledger.accept (hL : k.Ledger) (h : k.accept srv fd = some k') : k'.Ledger := by
  unfold Kernel.accept at h
  split at h
  · cases h
  · rename_i c₀ backlog hbacklog
    split_ifs at h with hfd
    cases h
    have hwaits : c₀ ∈ k.backlog ++ k.lost := hbacklog ▸ List.mem_cons_self
    constructor
    · exact hL.nodup
    · intro c hc
      obtain ⟨hseen, hclosed⟩ := hL.closed c hc
      have hne : c₀ ≠ c := fun heq => hseen.2 (heq ▸ hwaits)
      refine ⟨⟨hseen.1, ?_⟩, ?_⟩
      · intro hmem
        exact hseen.2 (hbacklog ▸ List.mem_cons_of_mem _ hmem)
      · intro fd' hfd'
        have hfd' : Function.update k.files fd (some (.conn c₀)) fd' = some (.conn c) := hfd'
        rw [Function.update_apply] at hfd'
        split_ifs at hfd'
        · cases hfd'
          exact hne rfl
        · exact hclosed fd' hfd'
    · intro c hc
      by_cases heq : c = c₀
      · exact .inl ⟨fd, heq ▸ Function.update_self ..⟩
      · have hseen : k.Seen c := by
          refine ⟨hc.1, ?_⟩
          rw [hbacklog, List.cons_append, List.mem_cons, not_or]
          exact ⟨heq, hc.2⟩
        refine (hL.accounted c hseen).imp ?_ id
        rintro ⟨fd', hfd'⟩
        have hne : fd' ≠ fd := by
          rintro rfl
          rw [hfd.2] at hfd'
          cases hfd'
        exact ⟨fd', (Function.update_of_ne hne ..).trans hfd'⟩

omit [DecidableEq F] in
/-- A connection that is lost was neither open nor closed. -/
lemma Ledger.lose (hL : k.Ledger) (h : k.lose srv fd = some k') : k'.Ledger := by
  unfold Kernel.lose at h
  split at h
  · cases h
  · rename_i c₀ backlog hbacklog
    split_ifs at h
    cases h
    refine hL.congr rfl (fun c => ?_) rfl rfl
    simp only [hbacklog, List.mem_append, List.mem_cons, List.not_mem_nil, or_false]
    tauto

lemma Ledger.epollAdd (hL : k.Ledger) : (k.epollAdd ep fd e).Ledger := by
  unfold Kernel.epollAdd
  split_ifs
  · exact hL.congr rfl (fun _ => .rfl) rfl rfl
  · exact hL

lemma Ledger.epollDel (hL : k.Ledger) : (k.epollDel ep fd).Ledger :=
  hL.congr rfl (fun _ => .rfl) rfl rfl

lemma closed_epollAdd : (k.epollAdd ep fd e).closed = k.closed := by
  unfold Kernel.epollAdd
  split_ifs
  · rfl
  · rfl

lemma closed_accept (h : k.accept srv fd = some k') : k'.closed = k.closed := by
  unfold Kernel.accept at h
  split at h
  · cases h
  · split_ifs at h
    cases h
    rfl

lemma lost_accept (h : k.accept srv fd = some k') : k'.lost = k.lost := by
  unfold Kernel.accept at h
  split at h
  · cases h
  · split_ifs at h
    cases h
    rfl

omit [DecidableEq F] in
lemma closed_lose (h : k.lose srv fd = some k') : k'.closed = k.closed := by
  unfold Kernel.lose at h
  split at h
  · cases h
  · split_ifs at h
    cases h
    rfl

lemma closedConns_close :
    (k.close fd).closedConns = k.closedConns ++ ((k.files fd).bind File.conn?).toList := by
  rw [closedConns, Kernel.close, List.filterMap_append, closedConns]
  rfl

/-- The connection that is closed, if any, was open. -/
lemma Ledger.close (hL : k.Ledger) : (k.close fd).Ledger := by
  have hmem : ∀ c, c ∈ ((k.files fd).bind File.conn?).toList ↔ k.files fd = some (.conn c) := by
    intro c
    rw [Option.mem_toList, Option.bind_eq_some_iff]
    simp [File.conn?_eq_some]
  constructor
  · rw [closedConns_close]
    refine List.Nodup.append hL.nodup (Option.toList_nodup _) ?_
    intro c hc hc'
    exact (hL.closed c hc).2 fd ((hmem c).mp hc')
  · intro c hc
    rw [closedConns_close, List.mem_append, hmem] at hc
    simp only [files_close]
    rcases hc with hc | hc
    · refine ⟨(hL.closed c hc).1, ?_⟩
      intro fd' hfd'
      split_ifs at hfd'
      exact (hL.closed c hc).2 fd' hfd'
    · have hseen : k.Seen c := seen_of_open hc
      refine ⟨hseen, ?_⟩
      intro fd' hfd'
      split_ifs at hfd' with hne
      exact hne (k.valid.unique hfd' hc)
  · intro c hc
    rw [closedConns_close, List.mem_append, hmem]
    rcases hL.accounted c hc with ⟨fd', hfd'⟩ | hc
    · by_cases heq : fd' = fd
      · exact .inr (.inr (heq ▸ hfd'))
      · refine .inl ⟨fd', ?_⟩
        rw [files_close, if_neg heq, hfd']
    · exact .inr (.inl hc)

/-! ### What becomes of an open connection -/

/-- Every open connection stays open under its number, or is closed. -/
structure Keeps (k k' : Kernel F) : Prop where
  opened : ∀ fd c, k.files fd = some (.conn c) →
    k'.files fd = some (.conn c) ∨ c ∈ k'.closedConns
  closed : ∀ c ∈ k.closedConns, c ∈ k'.closedConns

omit [DecidableEq F] in
/-- Nothing is accepted or closed. -/
lemma Keeps.of_eq (hfiles : k'.files = k.files) (hclosed : k'.closed = k.closed) : k.Keeps k' where
  opened fd c hfd := by
    rw [hfiles]
    exact .inl hfd
  closed c hc := by
    rw [closedConns, hclosed]
    exact hc

lemma Keeps.accept (h : k.accept srv fd = some k') : k.Keeps k' := by
  obtain ⟨c', backlog, -, hnone, -, hfiles, -⟩ := accept_spec h
  constructor
  · intro fd' c hfd'
    have hne : fd' ≠ fd := by
      rintro rfl
      cases hnone.symm.trans hfd'
    rw [hfiles, Function.update_of_ne hne]
    exact .inl hfd'
  · intro c hc
    rw [closedConns, closed_accept h]
    exact hc

lemma Keeps.close : k.Keeps (k.close fd) where
  opened fd' c hfd' := by
    rw [files_close, closedConns_close]
    split_ifs with heq
    · right
      rw [← heq, hfd']
      exact List.mem_append_right _ List.mem_cons_self
    · exact .inl hfd'
  closed c hc := by
    rw [closedConns_close]
    exact List.mem_append_left _ hc

end Kernel
