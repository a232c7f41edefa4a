import ObcSdk.LinkNode.ConfigParser
import ObcSdk.LinkNode.TcpServer
/-!
# Messages and segments

What the configurations parsed owe to the way the network cuts a
client's bytes. There is no framing: each piece that `recv` returns is
parsed by itself, and nothing is kept of it. A message that arrives as
one piece is parsed as it was sent; one that is cut, or comes with
another, is not.
-/

namespace ObcSdk

namespace LinkNode

/-- The piece of the client's bytes that a pass reads. -/
def ProcessOutcome.delivered (o : ProcessOutcome) (clientFd : ℤ) : Option Chunk :=
  match o.select, o.recv with
  | some marked, .data chunk => if clientFd ∈ marked then some chunk else none
  | _, _ => none

/-- No other client comes on a pass, and this one stays. -/
def ProcessOutcome.OneClient (o : ProcessOutcome) (listenFd clientFd : ℤ) : Prop :=
  ∀ marked, o.select = some marked → (listenFd ∈ marked → o.accept < 0) ∧
    (clientFd ∈ marked → o.recv ≠ .closed ∧ o.recv ≠ .error)

/-- A client is connected, and its data is asked for. -/
structure Node.Connected (s : Node) : Prop where
  listen : 0 ≤ s.server.listenFd
  client : 0 ≤ s.server.clientFd
  onData : s.server.onData = true

/-- The main loop's passes, one after the other. -/
def passes (os : List ProcessOutcome) (s : Node) : Node :=
  os.foldl (fun s o => tcpServerProcess o s) s

/-- The configurations `on_data_received` parsed, of the data it was
called with. -/
def configs (malloc : ℕ → Bool) (s : Node) : List DeviceConfig :=
  s.callbacks.filterMap fun
    | .data bytes => onDataReceived malloc bytes
    | _ => none

section Segments

variable {malloc : ℕ → Bool} {s : Node} {o : ProcessOutcome} {os : List ProcessOutcome}
  {fd : ℤ}

/-- **A pass for one client** calls for the piece it reads, and does
nothing else. -/
theorem tcpServerProcess_oneClient (hs : s.Connected)
    (ho : o.OneClient s.server.listenFd s.server.clientFd) : tcpServerProcess o s =
      match o.delivered s.server.clientFd with
      | some chunk => s.call true (.data chunk.bytes)
      | none => s := by
  unfold tcpServerProcess ProcessOutcome.delivered
  rw [if_neg (not_lt.2 hs.listen)]
  cases hselect : o.select with
  | none => rfl
  | some marked =>
    obtain ⟨hlisten, hclient⟩ := ho marked hselect
    -- the listening socket is marked for a client that comes, and none does
    have haccept : ∀ readFds : List ℤ, (∀ fd ∈ readFds, fd ∈ marked) →
        (if s.server.listenFd ∈ readFds then acceptClient o.accept s else s) = s := by
      intro readFds hsub
      split
      · rename_i hmem
        exact if_pos (hlisten (hsub _ hmem))
      · rfl
    have hsub : ∀ fd ∈ [s.server.listenFd, s.server.clientFd].filter (· ∈ marked),
        fd ∈ marked := fun fd hfd => by simpa using (List.mem_filter.1 hfd).2
    simp only [if_pos hs.client, haccept _ hsub]
    by_cases hmarked : s.server.clientFd ∈ marked
    · have hread : 0 ≤ s.server.clientFd ∧
          s.server.clientFd ∈ [s.server.listenFd, s.server.clientFd].filter (· ∈ marked) :=
        ⟨hs.client, List.mem_filter.2 ⟨by simp, by simpa using hmarked⟩⟩
      rw [if_pos hread]
      cases hrecv : o.recv with
      | data chunk =>
        simp only [if_pos hmarked, receiveData, hs.onData]
      | again => rfl
      | closed => exact absurd hrecv (hclient hmarked).1
      | error => exact absurd hrecv (hclient hmarked).2
    · rw [if_neg fun h => hmarked (hsub _ h.2)]
      cases o.recv with
      | data chunk => simp only [if_neg hmarked]
      | again => rfl
      | closed => rfl
      | error => rfl

/-- **The callbacks of a run for one client** are those for the pieces it
reads, in order. -/
theorem passes_callbacks (hs : s.Connected)
    (hos : ∀ o ∈ os, o.OneClient s.server.listenFd s.server.clientFd) :
    (passes os s).callbacks = s.callbacks ++
      (os.filterMap (·.delivered s.server.clientFd)).map fun chunk => .data chunk.bytes := by
  induction os generalizing s with
  | nil => simp [passes]
  | cons o os ih =>
    have hpass := tcpServerProcess_oneClient hs (hos o List.mem_cons_self)
    obtain ⟨s', hs'⟩ : ∃ s', tcpServerProcess o s = s' := ⟨_, rfl⟩
    have hserver : s'.server = s.server := by
      rw [← hs', hpass]
      split <;> rfl
    have hrest := ih (s := s') ⟨hserver ▸ hs.listen, hserver ▸ hs.client, hserver ▸ hs.onData⟩
      fun o' ho' => by rw [hserver]; exact hos o' (List.mem_cons_of_mem _ ho')
    have hfirst : passes (o :: os) s = passes os s' := by rw [← hs']; rfl
    rw [hfirst, hrest, hserver, ← hs', hpass, List.filterMap_cons]
    split
    · rename_i chunk h
      rw [h]
      simp
    · rename_i h
      rw [h]

variable (malloc) in
/-- **Each piece is parsed by itself**, wherever the network cuts: the
configurations are those of the pieces, in order. So where each piece is
a message, they are the messages'. -/
theorem configs_passes (hs : s.Connected)
    (hos : ∀ o ∈ os, o.OneClient s.server.listenFd s.server.clientFd) :
    configs malloc (passes os s) = configs malloc s ++
        (os.filterMap (·.delivered s.server.clientFd)).filterMap
          (fun chunk => onDataReceived malloc chunk.bytes) ∧
      ∀ (messages : List (List Char)) (sent : List DeviceConfig),
        messages.map (onDataReceived malloc) = sent.map some →
        (os.filterMap (·.delivered s.server.clientFd)).map (·.bytes) = messages →
        configs malloc (passes os s) = configs malloc s ++ sent := by
  have hpieces : configs malloc (passes os s) = configs malloc s ++
      (os.filterMap (·.delivered s.server.clientFd)).filterMap
        (fun chunk => onDataReceived malloc chunk.bytes) := by
    rw [configs, passes_callbacks hs hos, List.filterMap_append, List.filterMap_map]
    rfl
  refine ⟨hpieces, ?_⟩
  intro messages sent hsent hwhole
  rw [hpieces]
  congr 1
  have hparsed : ∀ l : List (List Char), l.filterMap (onDataReceived malloc) =
      (l.map (onDataReceived malloc)).filterMap id := fun l => by
    rw [List.filterMap_map]
    rfl
  have hbytes : (os.filterMap (·.delivered s.server.clientFd)).filterMap
      (fun chunk => onDataReceived malloc chunk.bytes) =
      ((os.filterMap (·.delivered s.server.clientFd)).map (·.bytes)).filterMap
        (onDataReceived malloc) := by
    rw [List.filterMap_map]
    rfl
  rw [hbytes, hwhole, hparsed, hsent, List.filterMap_map]
  exact List.filterMap_some

end Segments

/-! ## A message, whole and cut -/

/-- A server listening on descriptor 3, with its client on descriptor 4. -/
def clientNode : Node :=
  ⟨⟨8888, 3, 4, true, true, true⟩, [.took 3, .took 4], [.connected], false⟩

theorem clientNode_connected : clientNode.Connected := ⟨by decide, by decide, rfl⟩

/-- A pass of that server in which bytes of its client are there. -/
def arrives (bytes : List Char) (h : bytes ≠ [] ∧ bytes.length ≤ 4095) : ProcessOutcome :=
  ⟨some [4], -1, .data ⟨bytes, h.1, h.2⟩⟩

theorem arrives_oneClient {bytes : List Char} {h : bytes ≠ [] ∧ bytes.length ≤ 4095} :
    (arrives bytes h).OneClient 3 4 := by
  intro marked _
  exact ⟨fun _ => Int.negSucc_lt_zero 0, fun _ => ⟨nofun, nofun⟩⟩

/-- `{"wifiSsid":"a","deviceName":"b"}`. -/
def namedMessage : List Char :=
  ['{', '"', 'w', 'i', 'f', 'i', 'S', 's', 'i', 'd', '"', ':', '"', 'a', '"', ',',
    '"', 'd', 'e', 'v', 'i', 'c', 'e', 'N', 'a', 'm', 'e', '"', ':', '"', 'b', '"', '}']

/-- What that message says. -/
def namedConfig : DeviceConfig := ⟨some ['a'], none, some ['b'], none, none, 1, 60, none⟩

theorem onDataReceived_namedMessage :
    onDataReceived (fun _ => true) namedMessage = some namedConfig := by
  decide +kernel

/-- `{"deviceName":"b"}`, and what it says. -/
def shortMessage : List Char := ['{'] ++ namedMessage.drop 16

def shortConfig : DeviceConfig := ⟨none, none, some ['b'], none, none, 1, 60, none⟩

theorem onDataReceived_shortMessage :
    onDataReceived (fun _ => true) shortMessage = some shortConfig := by
  decide +kernel

/-- Two messages, each in a piece of its own, are parsed as they were
sent. -/
theorem configs_twoMessages :
    configs (fun _ => true) (passes [arrives namedMessage (by decide),
        arrives shortMessage (by decide)] clientNode) =
      configs (fun _ => true) clientNode ++ [namedConfig, shortConfig] := by
  refine (configs_passes (fun _ => true) clientNode_connected ?_).2
    [namedMessage, shortMessage] [namedConfig, shortConfig] ?_ rfl
  · intro o ho
    rcases List.mem_pair.1 ho with rfl | rfl
    · exact arrives_oneClient
    · exact arrives_oneClient
  · rw [List.map_cons, List.map_singleton, onDataReceived_namedMessage,
      onDataReceived_shortMessage]
    rfl

/-- **A message cut** behind its first field is two configurations, neither
of them the one that was sent; and of **two messages in one piece** only
the first is found. -/
theorem not_configs_cutMessage :
    (¬ ∀ (malloc : ℕ → Bool) (s : Node) (os : List ProcessOutcome) (messages : List (List Char))
      (sent : List DeviceConfig),
      s.Connected → (∀ o ∈ os, o.OneClient s.server.listenFd s.server.clientFd) →
      messages.map (onDataReceived malloc) = sent.map some →
      (∀ message ∈ messages, message.length ≤ 4095) →
      ((os.filterMap (·.delivered s.server.clientFd)).map (·.bytes)).flatten = messages.flatten →
      configs malloc (passes os s) = configs malloc s ++ sent) ∧
    ¬ ∀ (malloc : ℕ → Bool) (s : Node) (os : List ProcessOutcome)
      (pieces : List (List (List Char))) (sent : List DeviceConfig),
      s.Connected → (∀ o ∈ os, o.OneClient s.server.listenFd s.server.clientFd) →
      pieces.flatten.map (onDataReceived malloc) = sent.map some →
      (∀ message ∈ pieces.flatten, message.length ≤ 4095) →
      (os.filterMap (·.delivered s.server.clientFd)).map (·.bytes) = pieces.map List.flatten →
      configs malloc (passes os s) = configs malloc s ++ sent := by
  constructor
  · intro hall
    have hcut := hall (fun _ => true) clientNode
      [arrives (namedMessage.take 16) (by decide), arrives (namedMessage.drop 16) (by decide)]
      [namedMessage] [namedConfig] clientNode_connected ?_ ?_ (by decide) (by decide)
    · have hpieces : configs (fun _ => true) (passes
          [arrives (namedMessage.take 16) (by decide), arrives (namedMessage.drop 16) (by decide)]
          clientNode) = [⟨some ['a'], none, none, none, none, 1, 60, none⟩,
            ⟨none, none, some ['b'], none, none, 1, 60, none⟩] := by
        decide +kernel
      rw [hpieces] at hcut
      exact absurd hcut (by decide)
    · intro o ho
      rcases List.mem_pair.1 ho with rfl | rfl
      · exact arrives_oneClient
      · exact arrives_oneClient
    · rw [List.map_singleton, onDataReceived_namedMessage]
      rfl
  · intro hall
    have hjoined := hall (fun _ => true) clientNode
      [arrives (namedMessage ++ namedMessage) (by decide)]
      [[namedMessage, namedMessage]] [namedConfig, namedConfig] clientNode_connected ?_ ?_
      (by decide) (by decide)
    · have hpiece : configs (fun _ => true) (passes
          [arrives (namedMessage ++ namedMessage) (by decide)] clientNode) = [namedConfig] := by
        decide +kernel
      rw [hpiece] at hjoined
      exact absurd hjoined (by decide)
    · intro o ho
      rw [List.mem_singleton.1 ho]
      exact arrives_oneClient
    · rw [List.flatten_singleton, List.map_cons, List.map_singleton, onDataReceived_namedMessage]
      rfl

end LinkNode

end ObcSdk
