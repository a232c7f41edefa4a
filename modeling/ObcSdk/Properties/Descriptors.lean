import Mathlib.Data.Finset.Basic
import ObcSdk.LinkNode.TcpServer
/-!
# Descriptors and callbacks of the TCP server

Over any sequence of calls and any outcomes of the system calls in them,
the server is to close what it opened once, and all of it in the end, to
name no descriptor that is not open, and to tell of a client's end as it
told of its beginning. It does as long as every start either gets no
socket or goes through, no client is connected when the server is stopped,
and it is destroyed with nothing open but the socket it listens on.
-/

namespace ObcSdk

namespace LinkNode

/-- The server keeps its discipline. -/
structure Disciplined (s : Node) : Prop where
  /-- No descriptor is closed twice. -/
  closedOnce : Ledger.GivenOnce s.fds
  listen : 0 ≤ s.server.listenFd ↔ s.server.listenFd ∈ s.held
  client : 0 ≤ s.server.clientFd ↔ s.server.clientFd ∈ s.held
  distinct : 0 ≤ s.server.clientFd → s.server.listenFd ≠ s.server.clientFd
  callbacks : s.callbacks.count .connected =
    s.callbacks.count .disconnected + if 0 ≤ s.server.clientFd then 1 else 0
  /-- Behind `tcp_server_destroy` every descriptor was closed as often as
  it was obtained. -/
  freed : s.freed = true → ∀ fd, s.fds.count (.took fd) = s.fds.count (.gave fd)

/-- What keeps the discipline: a start that gets no socket or goes through,
a stop without a client, and an end without one and with nothing open but
the listening socket. Where a start is made while the server listens, the
old socket stays open. -/
def ServerCall.Orderly (s : Node) : ServerCall → Prop
  | .start o => o.socket < 0 ∨ o.setsockopt = true ∧ o.bind = true ∧ o.listen = true ∧
      o.fcntl = true
  | .process _ => True
  | .stop => s.server.clientFd < 0
  | .destroy => s.server.clientFd < 0 ∧ ∀ fd ∈ s.held, fd = s.server.listenFd

instance (s : Node) : (c : ServerCall) → Decidable (c.Orderly s)
  | .start o => inferInstanceAs (Decidable (o.socket < 0 ∨ o.setsockopt = true ∧ o.bind = true ∧
      o.listen = true ∧ o.fcntl = true))
  | .process _ => inferInstanceAs (Decidable True)
  | .stop => inferInstanceAs (Decidable (s.server.clientFd < 0))
  | .destroy => inferInstanceAs (Decidable (s.server.clientFd < 0 ∧
      ∀ fd ∈ s.held, fd = s.server.listenFd))

/-- What holds in any run: the callbacks are set, and each descriptor was
new, and no error. -/
structure Wired (s : Node) : Prop where
  onConnected : s.server.onConnected = true
  onDisconnected : s.server.onDisconnected = true
  fresh : Ledger.Fresh s.fds
  nonneg : ∀ fd ∈ s.held, 0 ≤ fd

section Discipline

variable {s : Node} {o : StartOutcome} {q : ProcessOutcome} {r : Received} {fd : ℤ}
  {b : Bool} {k : Callback} {cs p : List ServerCall} {c : ServerCall}

/-! ## What holds in any run -/

theorem Wired.grant (h : Wired s) (hfd : fd ∉ s.held) (hpos : 0 ≤ fd) : Wired (s.grant fd) := by
  refine ⟨h.onConnected, h.onDisconnected, Ledger.fresh_took.2 ⟨h.fresh, hfd⟩, ?_⟩
  intro x hx
  rw [Node.grant_held, Finset.mem_insert] at hx
  rcases hx with rfl | hx
  · exact hpos
  · exact h.nonneg x hx

theorem Wired.close (h : Wired s) : Wired (s.close fd) := by
  refine ⟨h.onConnected, h.onDisconnected, Ledger.fresh_gave.2 h.fresh, ?_⟩
  intro x hx
  rw [Node.close_held] at hx
  exact h.nonneg x (Finset.mem_of_mem_erase hx)

theorem Wired.setListenFd (h : Wired s) : Wired (s.setListenFd fd) :=
  ⟨h.onConnected, h.onDisconnected, h.fresh, h.nonneg⟩

theorem Wired.setClientFd (h : Wired s) : Wired (s.setClientFd fd) :=
  ⟨h.onConnected, h.onDisconnected, h.fresh, h.nonneg⟩

theorem Wired.call (h : Wired s) : Wired (s.call b k) :=
  ⟨by rw [Node.call_server]; exact h.onConnected, by rw [Node.call_server]; exact h.onDisconnected,
    by rw [Node.call_fds]; exact h.fresh, by rw [Node.call_held]; exact h.nonneg⟩

theorem Wired.ite {t : Prop} [Decidable t] {s' : Node} (h : Wired s) (h' : Wired s') :
    Wired (if t then s else s') := by
  split
  · exact h
  · exact h'

theorem Wired.start (h : Wired s) (hfd : o.socket ∉ s.held) : Wired (tcpServerStart o s).2 := by
  rw [tcpServerStart_snd]
  by_cases hneg : o.socket < 0
  · rw [if_pos hneg]
    exact h.setListenFd
  · rw [if_neg hneg]
    have hgrant : Wired ((s.setListenFd o.socket).grant o.socket) :=
      h.setListenFd.grant hfd (not_lt.1 hneg)
    exact hgrant.ite hgrant.close

theorem Wired.stop (h : Wired s) : Wired (tcpServerStop s) := by
  have hclient : Wired (if 0 ≤ s.server.clientFd then
      (s.close s.server.clientFd).setClientFd (-1) else s) := h.close.setClientFd.ite h
  exact hclient.close.setListenFd.ite hclient

theorem Wired.accept (h : Wired s) (hfd : fd ∉ s.held) : Wired (acceptClient fd s) := by
  unfold acceptClient
  split
  · exact h
  · rename_i hneg
    have hgrant : Wired (s.grant fd) := h.grant hfd (not_lt.1 hneg)
    exact ((hgrant.close.call.ite hgrant).setClientFd).call

theorem Wired.receive (h : Wired s) : Wired (receiveData r s) := by
  cases r with
  | data chunk => exact h.call
  | again => exact h
  | closed => exact h.close.setClientFd.call
  | error => exact h.close.setClientFd.call

theorem Wired.process (h : Wired s) (hfd : q.accept ∉ s.held) : Wired (tcpServerProcess q s) := by
  obtain ⟨s₁, hs₁, hrun⟩ := tcpServerProcess_cases q s
  have h₁ : Wired s₁ := by
    rcases hs₁ with rfl | rfl
    · exact h
    · exact h.accept hfd
  rcases hrun with hrun | ⟨-, hrun⟩
  · rwa [hrun]
  · rw [hrun]
    exact h₁.receive

/-- **The callbacks stay set** and every descriptor is new, in any run. -/
theorem Wired.run (h : Wired s) (hc : c.Possible s) : Wired (c.run s) := by
  cases c with
  | start o => exact h.start hc.2
  | process q => exact h.process hc.2
  | stop => exact h.stop
  | destroy => exact ⟨h.stop.onConnected, h.stop.onDisconnected, h.stop.fresh, h.stop.nonneg⟩

/-! ## What the server names -/

/-- A server that is not freed need not have closed anything. -/
theorem disciplined_of (hfree : s.freed = false) (honce : Ledger.GivenOnce s.fds)
    (hlisten : 0 ≤ s.server.listenFd ↔ s.server.listenFd ∈ s.held)
    (hclient : 0 ≤ s.server.clientFd ↔ s.server.clientFd ∈ s.held)
    (hdistinct : 0 ≤ s.server.clientFd → s.server.listenFd ≠ s.server.clientFd)
    (hcalls : s.callbacks.count .connected =
      s.callbacks.count .disconnected + if 0 ≤ s.server.clientFd then 1 else 0) :
    Disciplined s := by
  refine ⟨honce, hlisten, hclient, hdistinct, hcalls, ?_⟩
  intro hf
  rw [hfree] at hf
  cases hf

/-- A descriptor that is new is neither of the server's own. -/
theorem Disciplined.ne_of_not_mem (h : Disciplined s) (hpos : 0 ≤ fd) (hfd : fd ∉ s.held) :
    fd ≠ s.server.listenFd ∧ fd ≠ s.server.clientFd := by
  constructor
  · rintro rfl
    exact hfd (h.listen.1 hpos)
  · rintro rfl
    exact hfd (h.client.1 hpos)

/-- The listening socket is named still when the client's is closed. -/
theorem Disciplined.listen_erase (h : Disciplined s) (hc : 0 ≤ s.server.clientFd) :
    0 ≤ s.server.listenFd ↔ s.server.listenFd ∈ s.held.erase s.server.clientFd := by
  rw [Finset.mem_erase, h.listen]
  exact ⟨fun hl => ⟨h.distinct hc, hl⟩, fun hl => hl.2⟩

/-! ## A pass -/

/-- **A new client** takes the place of the old one. -/
theorem Disciplined.accept (h : Disciplined s) (hw : Wired s) (hfree : s.freed = false)
    (hfd : fd ∉ s.held) : Disciplined (acceptClient fd s) := by
  unfold acceptClient
  split
  · exact h
  rename_i hneg
  have hpos : 0 ≤ fd := not_lt.1 hneg
  obtain ⟨hlisten, hclient⟩ := h.ne_of_not_mem hpos hfd
  have hcalls := h.callbacks
  -- the old client is told and closed before the new one is entered
  by_cases hc : 0 ≤ s.server.clientFd
  · rw [if_pos hc] at hcalls
    simp only [Node.grant_server, hc, if_true, Node.setClientFd_server, Node.call_server,
      Node.close_server, hw.onConnected, hw.onDisconnected]
    refine disciplined_of (by simpa using hfree) ?_ ?_ ?_ (by simpa using fun _ => hlisten.symm) ?_
    · simp only [Node.call_fds, Node.setClientFd_fds, Node.close_fds, Node.grant_fds,
        Ledger.givenOnce_gave, Ledger.givenOnce_took, Ledger.held_took]
      exact ⟨h.closedOnce, Finset.mem_insert_of_mem (h.client.1 hc)⟩
    · have herase := h.listen_erase hc
      simp only [Node.call_server, Node.setClientFd_server, Node.close_server, Node.grant_server,
        Node.call_held, Node.setClientFd_held, Node.close_held, Node.grant_held]
      rw [Finset.erase_insert_of_ne hclient, Finset.mem_insert, ← herase]
      exact ⟨Or.inr, fun hl => hl.resolve_left hlisten.symm⟩
    · simp only [Node.call_server, Node.setClientFd_server, Node.call_held, Node.setClientFd_held,
        Node.close_held, Node.grant_held]
      rw [Finset.erase_insert_of_ne hclient]
      exact iff_of_true hpos (Finset.mem_insert_self _ _)
    · simp [List.count_append, hcalls, hpos]
  · rw [if_neg hc] at hcalls
    simp only [Node.grant_server, hc, if_false, Node.setClientFd_server, hw.onConnected]
    refine disciplined_of (by simpa using hfree) ?_ ?_ ?_ (by simpa using fun _ => hlisten.symm) ?_
    · simp only [Node.call_fds, Node.setClientFd_fds, Node.grant_fds, Ledger.givenOnce_took]
      exact h.closedOnce
    · simp only [Node.call_server, Node.setClientFd_server, Node.grant_server, Node.call_held,
        Node.setClientFd_held, Node.grant_held]
      rw [Finset.mem_insert, h.listen]
      exact ⟨Or.inr, fun hl => hl.resolve_left hlisten.symm⟩
    · simp only [Node.call_server, Node.setClientFd_server, Node.call_held, Node.setClientFd_held,
        Node.grant_held]
      exact iff_of_true hpos (Finset.mem_insert_self _ _)
    · simp [List.count_append, hcalls, hpos]

/-- **A client's end** leaves none. -/
theorem Disciplined.drop (h : Disciplined s) (hw : Wired s) (hfree : s.freed = false)
    (hc : 0 ≤ s.server.clientFd) :
    Disciplined (((s.close s.server.clientFd).setClientFd (-1)).call s.server.onDisconnected
      .disconnected) := by
  have hcalls := h.callbacks
  rw [if_pos hc] at hcalls
  rw [hw.onDisconnected]
  refine disciplined_of (by simpa using hfree) ?_ ?_ ?_ (by simp) ?_
  · simp only [Node.call_fds, Node.setClientFd_fds, Node.close_fds, Ledger.givenOnce_gave]
    exact ⟨h.closedOnce, h.client.1 hc⟩
  · simp only [Node.call_server, Node.setClientFd_server, Node.close_server, Node.call_held,
      Node.setClientFd_held, Node.close_held]
    exact h.listen_erase hc
  · simp only [Node.call_server, Node.setClientFd_server, Node.call_held, Node.setClientFd_held]
    exact iff_of_false (by simp) (fun hmem => by simpa using hw.close.nonneg _ hmem)
  · simp [List.count_append, hcalls]

theorem Disciplined.receive (h : Disciplined s) (hw : Wired s) (hfree : s.freed = false)
    (hc : 0 ≤ s.server.clientFd) : Disciplined (receiveData r s) := by
  cases r with
  | data chunk =>
    have hdata : ∀ b, Disciplined (s.call b (.data chunk.bytes)) := by
      intro b
      cases b with
      | false => exact h
      | true =>
        exact disciplined_of (by simpa using hfree) (by simpa using h.closedOnce)
          (by simpa using h.listen) (by simpa using h.client) (by simpa using h.distinct)
          (by simpa [List.count_append] using h.callbacks)
    exact hdata _
  | again => exact h
  | closed => exact h.drop hw hfree hc
  | error => exact h.drop hw hfree hc

theorem acceptClient_freed : (acceptClient fd s).freed = s.freed := by
  unfold acceptClient
  split
  · rfl
  · simp only [Node.call_freed, Node.setClientFd_freed]
    split
    · rw [Node.call_freed]
      rfl
    · rfl

/-- **A pass keeps the discipline**, whatever its system calls come to. -/
theorem Disciplined.process (h : Disciplined s) (hw : Wired s) (hfree : s.freed = false)
    (hfd : q.accept ∉ s.held) : Disciplined (tcpServerProcess q s) := by
  obtain ⟨s₁, hs₁, hrun⟩ := tcpServerProcess_cases q s
  obtain ⟨h₁, hw₁, hfree₁⟩ : Disciplined s₁ ∧ Wired s₁ ∧ s₁.freed = false := by
    rcases hs₁ with rfl | rfl
    · exact ⟨h, hw, hfree⟩
    · exact ⟨h.accept hw hfree hfd, hw.accept hfd, acceptClient_freed.trans hfree⟩
  rcases hrun with hrun | ⟨hc, hrun⟩
  · rwa [hrun]
  · rw [hrun]
    exact h₁.receive hw₁ hfree₁ hc

/-! ## A start and a stop -/

/-- **A start keeps the discipline** exactly when it is orderly. -/
theorem Disciplined.start_iff (h : Disciplined s) (hfree : s.freed = false)
    (hfd : o.socket ∉ s.held) :
    Disciplined (tcpServerStart o s).2 ↔ o.socket < 0 ∨
      o.setsockopt = true ∧ o.bind = true ∧ o.listen = true ∧ o.fcntl = true := by
  rw [tcpServerStart_snd]
  by_cases hneg : o.socket < 0
  · rw [if_pos hneg]
    refine iff_of_true ?_ (Or.inl hneg)
    refine disciplined_of hfree h.closedOnce ?_ h.client ?_ h.callbacks
    · exact iff_of_false (not_le.2 hneg) hfd
    · intro hc heq
      have heq : o.socket = s.server.clientFd := heq
      have hc : 0 ≤ s.server.clientFd := hc
      omega
  rw [if_neg hneg]
  have hpos : 0 ≤ o.socket := not_lt.1 hneg
  obtain ⟨-, hclient⟩ := h.ne_of_not_mem hpos hfd
  split
  · rename_i hok
    refine iff_of_true ?_ (Or.inr hok)
    refine disciplined_of hfree ?_ ?_ ?_ (fun _ => hclient) h.callbacks
    · rw [Node.grant_fds, Ledger.givenOnce_took]
      exact h.closedOnce
    · rw [Node.grant_held]
      exact iff_of_true hpos (Finset.mem_insert_self _ _)
    · rw [Node.grant_held, Finset.mem_insert]
      exact h.client.trans ⟨Or.inr, fun hc => hc.resolve_left hclient.symm⟩
  · rename_i hok
    refine iff_of_false ?_ (not_or.2 ⟨hneg, hok⟩)
    intro h'
    -- the server keeps the number of a descriptor it closed
    have hmem := h'.listen.1 hpos
    rw [Node.close_held] at hmem
    exact absurd rfl (Finset.mem_erase.1 hmem).1

/-- **A stop closes** what the server names, and nothing else. -/
theorem Disciplined.stop_spec (h : Disciplined s) : Ledger.GivenOnce (tcpServerStop s).fds ∧
    (tcpServerStop s).held = (s.held.erase s.server.clientFd).erase s.server.listenFd ∧
    (tcpServerStop s).server.listenFd < 0 ∧ (tcpServerStop s).server.clientFd < 0 ∧
    (tcpServerStop s).callbacks = s.callbacks ∧ (tcpServerStop s).freed = s.freed := by
  have hnone : ∀ {fd : ℤ}, (0 ≤ fd ↔ fd ∈ s.held) → ¬ 0 ≤ fd → fd ∉ s.held := fun h hneg hmem =>
    hneg (h.2 hmem)
  unfold tcpServerStop
  -- a descriptor below zero is none, and then there is nothing to close
  by_cases hc : 0 ≤ s.server.clientFd <;> by_cases hl : 0 ≤ s.server.listenFd
  · simp only [hc, hl, if_true, Node.setClientFd_server, Node.close_server]
    refine ⟨?_, by simp, by simp, by simp, rfl, rfl⟩
    simp only [Node.setListenFd_fds, Node.close_fds, Node.setClientFd_fds, Ledger.givenOnce_gave,
      Ledger.held_gave]
    exact ⟨⟨h.closedOnce, h.client.1 hc⟩, (h.listen_erase hc).1 hl⟩
  · simp only [hc, hl, if_true, if_false, Node.setClientFd_server, Node.close_server]
    refine ⟨?_, ?_, not_le.1 hl, by simp, rfl, rfl⟩
    · simp only [Node.close_fds, Node.setClientFd_fds, Ledger.givenOnce_gave]
      exact ⟨h.closedOnce, h.client.1 hc⟩
    · rw [Finset.erase_right_comm, Finset.erase_eq_of_notMem (hnone h.listen hl)]
      simp
  · simp only [hc, hl, if_true, if_false]
    refine ⟨?_, ?_, by simp, not_le.1 hc, rfl, rfl⟩
    · simp only [Node.close_fds, Node.setListenFd_fds, Ledger.givenOnce_gave]
      exact ⟨h.closedOnce, h.listen.1 hl⟩
    · rw [Finset.erase_eq_of_notMem (hnone h.client hc)]
      simp
  · simp only [hc, hl, if_false]
    refine ⟨h.closedOnce, ?_, not_le.1 hl, not_le.1 hc, trivial, trivial⟩
    rw [Finset.erase_eq_of_notMem (hnone h.client hc),
      Finset.erase_eq_of_notMem (hnone h.listen hl)]

/-- **It keeps the discipline** exactly when there is no client to tell
of. -/
theorem Disciplined.stop_iff (h : Disciplined s) (hw : Wired s) (hfree : s.freed = false) :
    Disciplined (tcpServerStop s) ↔ s.server.clientFd < 0 := by
  obtain ⟨honce, -, hl, hc, hcalls, hf⟩ := h.stop_spec
  have hbefore := h.callbacks
  constructor
  · intro h'
    have hafter := h'.callbacks
    rw [hcalls, if_neg (not_le.2 hc)] at hafter
    by_contra hcon
    rw [if_pos (not_lt.1 hcon)] at hbefore
    omega
  · intro hclient
    have hnone : ∀ {fd : ℤ}, fd < 0 → (0 ≤ fd ↔ fd ∈ (tcpServerStop s).held) := fun hneg =>
      iff_of_false (not_le.2 hneg) (fun hmem => not_le.2 hneg (hw.stop.nonneg _ hmem))
    refine disciplined_of (hf.trans hfree) honce (hnone hl) (hnone hc)
      (fun hpos => absurd hc (not_lt.2 hpos)) ?_
    rw [hcalls, hbefore, if_neg (not_le.2 hclient), if_neg (not_le.2 hc)]

/-- Behind a stop every descriptor was closed exactly when none but the
listening socket was open. -/
theorem Disciplined.stop_closed_iff (h : Disciplined s) (hw : Wired s)
    (hc : s.server.clientFd < 0) :
    (∀ fd, (tcpServerStop s).fds.count (.took fd) = (tcpServerStop s).fds.count (.gave fd)) ↔
      ∀ fd ∈ s.held, fd = s.server.listenFd := by
  obtain ⟨honce, hheld, -⟩ := h.stop_spec
  have hheld : Ledger.held (tcpServerStop s).fds =
    (s.held.erase s.server.clientFd).erase s.server.listenFd := hheld
  refine forall_congr' fun fd => ?_
  have hcount := Ledger.count_took (a := fd) hw.stop.fresh honce
  simp only [hheld, Finset.mem_erase] at hcount
  constructor
  · intro heq hmem
    by_contra hne
    -- a client there is not has no descriptor among those open
    have hneg : fd ≠ s.server.clientFd := fun he => not_le.2 hc (he ▸ hw.nonneg fd hmem)
    rw [if_pos ⟨hne, hneg, hmem⟩] at hcount
    omega
  · intro hall
    rw [if_neg (fun hmem => hmem.1 (hall hmem.2.2))] at hcount
    exact hcount

/-- **So does the end** when moreover nothing else is open. -/
theorem Disciplined.destroy_iff (h : Disciplined s) (hw : Wired s) (hfree : s.freed = false) :
    Disciplined (tcpServerDestroy s) ↔
      s.server.clientFd < 0 ∧ ∀ fd ∈ s.held, fd = s.server.listenFd := by
  have hstop : Disciplined (tcpServerDestroy s) ↔ Disciplined (tcpServerStop s) ∧ ∀ fd,
      (tcpServerStop s).fds.count (.took fd) = (tcpServerStop s).fds.count (.gave fd) := by
    constructor
    · intro h'
      refine ⟨⟨h'.closedOnce, h'.listen, h'.client, h'.distinct, h'.callbacks, ?_⟩, h'.freed rfl⟩
      intro _
      exact h'.freed rfl
    · rintro ⟨h', hcount⟩
      exact ⟨h'.closedOnce, h'.listen, h'.client, h'.distinct, h'.callbacks, fun _ => hcount⟩
  rw [hstop, h.stop_iff hw hfree]
  exact and_congr_right fun hc => h.stop_closed_iff hw hc

/-! ## Runs -/

theorem wired_created {port : ℕ} : Wired (created port) :=
  ⟨rfl, rfl, Ledger.fresh_nil, fun _ hfd => absurd hfd (Finset.notMem_empty _)⟩

theorem disciplined_created {port : ℕ} : Disciplined (created port) := by
  have hneg : ¬ 0 ≤ (-1 : ℤ) := by decide
  have hnone : 0 ≤ (-1 : ℤ) ↔ (-1 : ℤ) ∈ (created port).held :=
    iff_of_false hneg (Finset.notMem_empty _)
  exact disciplined_of rfl Ledger.givenOnce_nil hnone hnone (fun hc => absurd hc hneg) rfl

/-- **The server keeps its discipline** throughout a run exactly when all
its calls are orderly. -/
theorem disciplined_iff (port : ℕ) (cs : List ServerCall)
    (hposs : ∀ p c, p ++ [c] <+: cs → c.Possible (runCalls p (created port))) :
    (∀ p, p <+: cs → Disciplined (runCalls p (created port))) ↔
      ∀ p c, p ++ [c] <+: cs → c.Orderly (runCalls p (created port)) := by
  have hwired : ∀ p, p <+: cs → Wired (runCalls p (created port)) := by
    intro p hp
    induction p using List.reverseRecOn with
    | nil => exact wired_created
    | append_singleton p c ih =>
      rw [runCalls, foldl_concat]
      exact (ih ((List.prefix_append _ _).trans hp)).run (hposs p c hp)
  refine foldl_invariant_iff (fun s (c : ServerCall) => c.Orderly s) disciplined_created ?_
  intro p c hp h
  have hw := hwired p ((List.prefix_append _ _).trans hp)
  have hc := hposs p c hp
  cases c with
  | start o => exact h.start_iff hc.1 hc.2
  | process q => exact iff_of_true (h.process hw hc.1 hc.2) trivial
  | stop => exact h.stop_iff hw hc
  | destroy => exact h.destroy_iff hw hc

end Discipline

/-- A client that comes, and goes before the end. -/
def visit : List ServerCall :=
  [.start ⟨3, true, true, true, true⟩, .process ⟨some [3], 4, .again⟩,
    .process ⟨some [4], -1, .closed⟩, .destroy]

/-- The server keeps its discipline through it. -/
theorem disciplined_visit :
    (∀ p c, p ++ [c] <+: visit → c.Possible (runCalls p (created 8888))) ∧
      ∀ p, p <+: visit → Disciplined (runCalls p (created 8888)) := by
  have hposs : ∀ p c, p ++ [c] <+: visit → c.Possible (runCalls p (created 8888)) :=
    forall_prefix_cons.2 ⟨by decide, forall_prefix_cons.2 ⟨by decide,
      forall_prefix_cons.2 ⟨by decide, forall_prefix_cons.2 ⟨by decide, forall_prefix_nil⟩⟩⟩⟩
  refine ⟨hposs, (disciplined_iff 8888 visit hposs).2 ?_⟩
  exact forall_prefix_cons.2 ⟨by decide, forall_prefix_cons.2 ⟨trivial,
      forall_prefix_cons.2 ⟨trivial, forall_prefix_cons.2 ⟨by decide, forall_prefix_nil⟩⟩⟩⟩

/-- **A start that fails behind its socket** leaves the number of a
descriptor it closed, and the end closes it again. -/
theorem not_disciplined_bindFails :
    ¬ ∀ (port : ℕ) (cs : List ServerCall),
      (∀ p c, p ++ [c] <+: cs → c.Possible (runCalls p (created port))) →
        ∀ p, p <+: cs → Disciplined (runCalls p (created port)) := by
  intro h
  have hposs : ∀ p c, p ++ [c] <+: [ServerCall.start ⟨3, true, false, true, true⟩, .destroy] →
      c.Possible (runCalls p (created 8888)) :=
    forall_prefix_cons.2 ⟨by decide, forall_prefix_cons.2 ⟨by decide, forall_prefix_nil⟩⟩
  have hclosed := (h 8888 _ hposs _ List.prefix_rfl).closedOnce
  have hheld := hclosed [.took 3, .gave 3] 3 List.prefix_rfl
  revert hheld
  decide

end LinkNode

end ObcSdk
