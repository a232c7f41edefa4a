import ObcSdk.Lib.Ledger
import ObcSdk.Lib.Runs
/-!
# The TCP server

`tcp_server.c`: one listening socket and one client, polled from the
program's main loop. What a system call comes to is an input of the
call that makes it. Kept beside the server are the descriptors it
obtained and closed, and the callbacks it made.
-/

namespace ObcSdk

namespace LinkNode

/-- `BUFFER_SIZE`. -/
abbrev bufferSize : ℕ := 4096

/-- What `recv` stores: as much as the buffer takes, and something. Bytes
are characters. -/
structure Chunk where
  bytes : List Char
  nonempty : bytes ≠ []
  length_le : bytes.length ≤ bufferSize - 1

/-- `struct tcp_server`; of a callback, whether it is set. -/
structure TcpServer where
  port : ℕ
  listenFd : ℤ
  clientFd : ℤ
  onData : Bool
  onConnected : Bool
  onDisconnected : Bool

/-- A callback made. -/
inductive Callback where
  | data (bytes : List Char)
  | connected
  | disconnected
deriving DecidableEq

/-- The server in its process. -/
structure Node where
  server : TcpServer
  /-- The descriptors obtained and closed. -/
  fds : List (Entry ℤ)
  callbacks : List Callback
  /-- Whether the server was freed. -/
  freed : Bool

/-- What the system calls of `tcp_server_start` come to: the descriptor of
`socket`, and whether the others succeed. -/
structure StartOutcome where
  socket : ℤ
  setsockopt : Bool
  bind : Bool
  listen : Bool
  /-- `set_nonblocking`, which is two calls of `fcntl`. -/
  fcntl : Bool

/-- What `recv` comes to. -/
inductive Received where
  | data (chunk : Chunk)
  | closed
  /-- `EAGAIN` or `EWOULDBLOCK`. -/
  | again
  | error

/-- What the system calls of `tcp_server_process` come to. -/
structure ProcessOutcome where
  /-- The descriptors `select` marks, where it neither fails nor times
  out. -/
  select : Option (List ℤ)
  accept : ℤ
  recv : Received

/-! ## The functions -/

/-- `tcp_server_create`. -/
def tcpServerCreate (port : ℕ) : TcpServer := ⟨port, -1, -1, false, false, false⟩

/-- `tcp_server_set_callbacks`, of which callbacks are not `NULL`. -/
def tcpServerSetCallbacks (server : TcpServer) (onData onConnected onDisconnected : Bool) :
    TcpServer :=
  { server with onData := onData, onConnected := onConnected, onDisconnected := onDisconnected }

namespace Node

/-- A descriptor the system hands out. -/
def grant (s : Node) (fd : ℤ) : Node := { s with fds := s.fds ++ [.took fd] }

/-- `close`. -/
def close (s : Node) (fd : ℤ) : Node := { s with fds := s.fds ++ [.gave fd] }

def setListenFd (s : Node) (fd : ℤ) : Node := { s with server := { s.server with listenFd := fd } }

def setClientFd (s : Node) (fd : ℤ) : Node := { s with server := { s.server with clientFd := fd } }

/-- A callback made, if it is set. -/
def call (s : Node) (isSet : Bool) (c : Callback) : Node :=
  if isSet then { s with callbacks := s.callbacks ++ [c] } else s

/-- The descriptors obtained and not closed. -/
def held (s : Node) : Finset ℤ := Ledger.held s.fds

variable {s : Node} {fd : ℤ} {b : Bool} {c : Callback}

@[simp] theorem grant_server : (s.grant fd).server = s.server := rfl
@[simp] theorem grant_fds : (s.grant fd).fds = s.fds ++ [.took fd] := rfl
@[simp] theorem grant_callbacks : (s.grant fd).callbacks = s.callbacks := rfl
@[simp] theorem grant_freed : (s.grant fd).freed = s.freed := rfl
@[simp] theorem grant_held : (s.grant fd).held = insert fd s.held := Ledger.held_took
@[simp] theorem close_server : (s.close fd).server = s.server := rfl
@[simp] theorem close_fds : (s.close fd).fds = s.fds ++ [.gave fd] := rfl
@[simp] theorem close_callbacks : (s.close fd).callbacks = s.callbacks := rfl
@[simp] theorem close_freed : (s.close fd).freed = s.freed := rfl
@[simp] theorem close_held : (s.close fd).held = s.held.erase fd := Ledger.held_gave
@[simp] theorem setListenFd_server :
    (s.setListenFd fd).server = { s.server with listenFd := fd } := rfl
@[simp] theorem setListenFd_fds : (s.setListenFd fd).fds = s.fds := rfl
@[simp] theorem setListenFd_callbacks : (s.setListenFd fd).callbacks = s.callbacks := rfl
@[simp] theorem setListenFd_freed : (s.setListenFd fd).freed = s.freed := rfl
@[simp] theorem setListenFd_held : (s.setListenFd fd).held = s.held := rfl
@[simp] theorem setClientFd_server :
    (s.setClientFd fd).server = { s.server with clientFd := fd } := rfl
@[simp] theorem setClientFd_fds : (s.setClientFd fd).fds = s.fds := rfl
@[simp] theorem setClientFd_callbacks : (s.setClientFd fd).callbacks = s.callbacks := rfl
@[simp] theorem setClientFd_freed : (s.setClientFd fd).freed = s.freed := rfl
@[simp] theorem setClientFd_held : (s.setClientFd fd).held = s.held := rfl
@[simp] theorem call_callbacks : (s.call true c).callbacks = s.callbacks ++ [c] := rfl
@[simp] theorem call_server : (s.call b c).server = s.server := by cases b <;> rfl
@[simp] theorem call_fds : (s.call b c).fds = s.fds := by cases b <;> rfl
@[simp] theorem call_freed : (s.call b c).freed = s.freed := by cases b <;> rfl
@[simp] theorem call_held : (s.call b c).held = s.held := by cases b <;> rfl

end Node

/-- `tcp_server_start`. -/
def tcpServerStart (o : StartOutcome) (s : Node) : ℤ × Node :=
  let s := s.setListenFd o.socket
  if o.socket < 0 then (-1, s) else
  let s := s.grant o.socket
  if o.setsockopt = false then (-1, s.close s.server.listenFd) else
  if o.bind = false then (-1, s.close s.server.listenFd) else
  if o.listen = false then (-1, s.close s.server.listenFd) else
  if o.fcntl = false then (-1, s.close s.server.listenFd) else
  (0, s)

/-- `tcp_server_stop`. -/
def tcpServerStop (s : Node) : Node :=
  let s := if 0 ≤ s.server.clientFd then (s.close s.server.clientFd).setClientFd (-1) else s
  if 0 ≤ s.server.listenFd then (s.close s.server.listenFd).setListenFd (-1) else s

/-- A new client in `tcp_server_process`, from `accept` on. -/
def acceptClient (newFd : ℤ) (s : Node) : Node :=
  if newFd < 0 then s else
  let s := s.grant newFd
  let s := if 0 ≤ s.server.clientFd then
      (s.close s.server.clientFd).call s.server.onDisconnected .disconnected
    else s
  let s := s.setClientFd newFd
  s.call s.server.onConnected .connected

/-- The client's data in `tcp_server_process`, from `recv` on. -/
def receiveData (r : Received) (s : Node) : Node :=
  match r with
  | .data chunk => s.call s.server.onData (.data chunk.bytes)
  | .again => s
  | .closed | .error =>
    let s := (s.close s.server.clientFd).setClientFd (-1)
    s.call s.server.onDisconnected .disconnected

/-- `tcp_server_process`. The set of descriptors is the one `select` left,
also when the client has changed since. -/
def tcpServerProcess (o : ProcessOutcome) (s : Node) : Node :=
  if s.server.listenFd < 0 then s else
  let readFds := if 0 ≤ s.server.clientFd then [s.server.listenFd, s.server.clientFd]
    else [s.server.listenFd]
  match o.select with
  | none => s
  | some marked =>
    let readFds := readFds.filter (· ∈ marked)
    let s := if s.server.listenFd ∈ readFds then acceptClient o.accept s else s
    if 0 ≤ s.server.clientFd ∧ s.server.clientFd ∈ readFds then receiveData o.recv s else s

/-- `tcp_server_destroy`. -/
def tcpServerDestroy (s : Node) : Node := { tcpServerStop s with freed := true }

/-- **What a start comes to**: it gets no socket, or keeps the one it
gets, or closes it again and still has its number. -/
theorem tcpServerStart_snd (o : StartOutcome) (s : Node) : (tcpServerStart o s).2 =
    if o.socket < 0 then s.setListenFd o.socket
    else if o.setsockopt = true ∧ o.bind = true ∧ o.listen = true ∧ o.fcntl = true then
      (s.setListenFd o.socket).grant o.socket
    else ((s.setListenFd o.socket).grant o.socket).close o.socket := by
  obtain ⟨socket, setsockopt, bind, listen, fcntl⟩ := o
  unfold tcpServerStart
  by_cases h : socket < 0
  · simp only [if_pos h]
  · simp only [if_neg h]
    cases setsockopt
    · rfl
    cases bind
    · rfl
    cases listen
    · rfl
    cases fcntl <;> rfl

/-- **What a pass comes to**: it may take a new client, and then reads
from the client it has, or not. -/
theorem tcpServerProcess_cases (o : ProcessOutcome) (s : Node) :
    ∃ s₁, (s₁ = s ∨ s₁ = acceptClient o.accept s) ∧ (tcpServerProcess o s = s₁ ∨
      0 ≤ s₁.server.clientFd ∧ tcpServerProcess o s = receiveData o.recv s₁) := by
  unfold tcpServerProcess
  split
  · exact ⟨s, Or.inl rfl, Or.inl rfl⟩
  simp only
  split
  · exact ⟨s, Or.inl rfl, Or.inl rfl⟩
  rename_i marked _
  set readFds := (if 0 ≤ s.server.clientFd then [s.server.listenFd, s.server.clientFd]
    else [s.server.listenFd]).filter (· ∈ marked)
  set s₁ := if s.server.listenFd ∈ readFds then acceptClient o.accept s else s with hs₁
  refine ⟨s₁, ?_, ?_⟩
  · rw [hs₁]
    split
    · exact Or.inr rfl
    · exact Or.inl rfl
  · by_cases hclient : 0 ≤ s₁.server.clientFd ∧ s₁.server.clientFd ∈ readFds
    · rw [if_pos hclient]
      exact Or.inr ⟨hclient.1, rfl⟩
    · rw [if_neg hclient]
      exact Or.inl rfl

/-! ## Runs -/

/-- A call of one of the server's functions, with what its system calls
come to. -/
inductive ServerCall where
  | start (o : StartOutcome)
  | process (o : ProcessOutcome)
  | stop
  | destroy

/-- The server behind a call. -/
def ServerCall.run (s : Node) : ServerCall → Node
  | .start o => (tcpServerStart o s).2
  | .process o => tcpServerProcess o s
  | .stop => tcpServerStop s
  | .destroy => tcpServerDestroy s

/-- A call there can be: the server is not freed, and the descriptor the
system hands out, if any, is not one in use. -/
def ServerCall.Possible (s : Node) : ServerCall → Prop
  | .start o => s.freed = false ∧ o.socket ∉ s.held
  | .process o => s.freed = false ∧ o.accept ∉ s.held
  | .stop => s.freed = false
  | .destroy => s.freed = false

instance (s : Node) : (c : ServerCall) → Decidable (c.Possible s)
  | .start o => inferInstanceAs (Decidable (s.freed = false ∧ o.socket ∉ s.held))
  | .process o => inferInstanceAs (Decidable (s.freed = false ∧ o.accept ∉ s.held))
  | .stop => inferInstanceAs (Decidable (s.freed = false))
  | .destroy => inferInstanceAs (Decidable (s.freed = false))

/-- Calls made one after the other. -/
def runCalls (cs : List ServerCall) (s : Node) : Node := cs.foldl ServerCall.run s

/-- A server created, with all its callbacks set. -/
def created (port : ℕ) : Node :=
  ⟨tcpServerSetCallbacks (tcpServerCreate port) true true true, [], [], false⟩

end LinkNode

end ObcSdk
