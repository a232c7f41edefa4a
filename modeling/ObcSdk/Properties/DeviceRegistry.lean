import ObcSdk.Lvgl.SysInfo
/-!
# The devices of the screen

The table of devices is the roster of the addresses that sent packets,
the first eight of them, and each entry what the address sent last. What
is shown is the entry at the current index, whichever devices join and
whatever is swiped between. `Tracks` ties the screen's variables to the
packets so far; every event keeps it.
-/

namespace ObcSdk

namespace Lvgl

/-- The packets of a run, in their order. -/
def packetsOf (events : List (ℕ × Event)) : List (ℕ × SysInfoSingle) :=
  events.filterMap fun e => match e.2 with
    | .packet recvData => some (e.1, recvData.1)
    | _ => none

/-- The address a packet is from. -/
abbrev addressOf (r : ℕ × SysInfoSingle) : List UInt8 := r.2.ip

/-- The addresses registered after some packets. -/
def registered (packets : List (ℕ × SysInfoSingle)) : List (List UInt8) :=
  roster maxDevices (packets.map addressOf)

/-- **The screen tracks the packets**: its entries are those of the
addresses registered, each what came from it last, and what is shown is
the current one. -/
structure Tracks (s : SysInfo) (packets : List (ℕ × SysInfoSingle)) : Prop where
  count : s.deviceCount = (registered packets).length
  entry : ∀ (i : ℕ) (a : List UInt8), (registered packets)[i]? = some a →
    ∃ r, latest addressOf a packets = some r ∧ s.device i = ⟨r.2, lvTickGet r.1, true⟩
  current : 0 < s.deviceCount → 0 ≤ s.currentDeviceIndex ∧ s.currentDeviceIndex < s.deviceCount
  shown : 0 < s.deviceCount →
    s.sysinfoData = (s.device s.currentDeviceIndex.toNat).data ∧
      s.lastRecvTime = (s.device s.currentDeviceIndex.toNat).lastUpdate
  idle : s.deviceCount = 0 → s.currentDeviceIndex = 0 ∧ s.dataReceived = false

/-- **The registry of a run**: at most eight entries of different
addresses, each what its address sent last; an address keeps its index,
and is refused only where eight others came before; the current entry is
one of them, and shown. -/
structure RegistryHolds (shown : SysInfoSingle) (events : List (ℕ × Event)) : Prop where
  count : 0 ≤ (runFrom shown events).deviceCount ∧
    (runFrom shown events).deviceCount ≤ maxDevices
  distinct : ∀ i j : ℕ, i < j → (j : ℤ) < (runFrom shown events).deviceCount →
    ((runFrom shown events).device i).data.ip ≠ ((runFrom shown events).device j).data.ip
  holds : ∀ i : ℕ, (i : ℤ) < (runFrom shown events).deviceCount → ∃ pre post now,
    packetsOf events = pre ++ (now, ((runFrom shown events).device i).data) :: post ∧
      ∀ r ∈ post, addressOf r ≠ ((runFrom shown events).device i).data.ip
  keeps : ∀ p, p <+: events → ∀ i : ℕ, (i : ℤ) < (runFrom shown p).deviceCount →
    (i : ℤ) < (runFrom shown events).deviceCount ∧
      ((runFrom shown events).device i).data.ip = ((runFrom shown p).device i).data.ip
  registers : ∀ p now recvData, p ++ [(now, .packet recvData)] <+: events →
    (∃ i : ℕ, (i : ℤ) < (runFrom shown events).deviceCount ∧
      ((runFrom shown events).device i).data.ip = recvData.1.ip) ∨
    ((runFrom shown p).deviceCount = maxDevices ∧
      ∀ i < maxDevices, ((runFrom shown p).device i).data.ip ≠ recvData.1.ip)
  current : 1 ≤ (runFrom shown events).deviceCount →
    0 ≤ (runFrom shown events).currentDeviceIndex ∧
      (runFrom shown events).currentDeviceIndex < (runFrom shown events).deviceCount ∧
      (runFrom shown events).sysinfoData =
        ((runFrom shown events).device (runFrom shown events).currentDeviceIndex.toNat).data

section Track

variable {s : SysInfo} {packets : List (ℕ × SysInfoSingle)} {shown d : SysInfoSingle}
  {events p : List (ℕ × Event)} {a : List UInt8} {i j now : ℕ} {tick : UInt32} {e : ℕ × Event}

/-! ## The table -/

theorem device_set {x : DeviceData} {n : ℤ} (hi : i < maxDevices) :
    ({ s with devices := s.devices.setIfInBounds i x, deviceCount := n } : SysInfo).device j =
      if j = i then x else s.device j := by
  rw [SysInfo.device, SysInfo.device, Vector.getElem?_setIfInBounds]
  by_cases hij : i = j
  · subst hij
    simp [hi]
  · simp [hij, Ne.symm hij]

/-- A registered address is at its index. -/
theorem Tracks.ip_eq (h : Tracks s packets) (ha : (registered packets)[i]? = some a) :
    (s.device i).data.ip = a := by
  obtain ⟨r, hr, hdevice⟩ := h.entry i a ha
  have hkey : addressOf r = a := latest_key hr
  rw [hdevice]
  exact hkey

/-- An index that is counted has an address. -/
theorem Tracks.exists_of_lt (h : Tracks s packets) (hi : (i : ℤ) < s.deviceCount) :
    ∃ a, (registered packets)[i]? = some a := by
  rw [h.count] at hi
  exact ⟨_, List.getElem?_eq_getElem (by omega)⟩

theorem Tracks.lt_of_some (h : Tracks s packets) (ha : (registered packets)[i]? = some a) :
    (i : ℤ) < s.deviceCount := by
  rw [h.count]
  exact_mod_cast (List.getElem?_eq_some_iff.1 ha).1

/-- **The search** finds the index of an address registered, and none of
another. -/
theorem Tracks.find_iff (h : Tracks s packets) :
    ((List.range s.deviceCount.toNat).find? fun i => (s.device i).data.ip = a) = some i ↔
      (registered packets)[i]? = some a := by
  have hcount : s.deviceCount.toNat = (registered packets).length := by
    rw [h.count, Int.toNat_natCast]
  constructor
  · intro hfind
    have hi := List.mem_range.1 (List.mem_of_find?_eq_some hfind)
    obtain ⟨b, hb⟩ := h.exists_of_lt (show (i : ℤ) < s.deviceCount by omega)
    have hip : (s.device i).data.ip = a := by simpa using List.find?_some hfind
    rw [hb, ← hip, h.ip_eq hb]
  · intro ha
    have hi := (List.getElem?_eq_some_iff.1 ha).1
    rw [List.find?_range_eq_some]
    refine ⟨by simpa using h.ip_eq ha, List.mem_range.2 (by omega), ?_⟩
    intro j hj
    -- an earlier index has another address
    obtain ⟨b, hb⟩ := h.exists_of_lt (i := j) (by omega)
    have hne : b ≠ a := by
      rintro rfl
      have hlt := (List.getElem?_eq_some_iff.1 hb).1
      have := (List.getElem?_inj hlt nodup_roster).1 (hb.trans ha.symm)
      omega
    simpa [h.ip_eq hb] using hne

/-! ## One event -/

/-- What a packet stored at an index leaves. -/
def SysInfo.stored (s : SysInfo) (i : ℕ) (n : ℤ) (recvData : SysInfoSingle) (tick : UInt32) :
    SysInfo :=
  let s := { s with
    devices := s.devices.setIfInBounds i ⟨recvData, tick, true⟩
    deviceCount := n }
  if (i : ℤ) = s.currentDeviceIndex ∨ s.deviceCount = 1 then
    { s with sysinfoData := recvData, dataReceived := true, lastRecvTime := tick }
  else s

theorem updateDeviceData_eq (hi : i < maxDevices) : updateDeviceData s i d tick =
    { s with devices := s.devices.setIfInBounds i ⟨d, tick, true⟩ } := by
  rw [updateDeviceData, if_neg (by omega), Int.toNat_natCast]

theorem registered_concat {r : ℕ × SysInfoSingle} :
    registered (packets ++ [r]) = enroll maxDevices (registered packets) (addressOf r) := by
  rw [registered, List.map_append, List.map_singleton, roster_concat, registered]

variable (d now tick) in
/-- **A packet** is stored at its address's index, and where it has none
nothing is. -/
theorem Tracks.udpReceive_eq (h : Tracks s packets) :
    (∃ i < maxDevices, (registered (packets ++ [(now, d)]))[i]? = some d.ip ∧
      udpReceive s d tick =
        s.stored i (registered (packets ++ [(now, d)])).length d tick) ∨
    (d.ip ∉ registered packets ∧ (registered packets).length = maxDevices ∧
      registered (packets ++ [(now, d)]) = registered packets ∧ udpReceive s d tick = s) := by
  have hlen : (registered packets).length ≤ maxDevices := length_roster_le
  rw [registered_concat, enroll]
  cases hfind : (List.range s.deviceCount.toNat).find? fun i => (s.device i).data.ip = d.ip with
  | some i =>
    have hi := h.find_iff.1 hfind
    have hlt := (List.getElem?_eq_some_iff.1 hi).1
    rw [if_pos (Or.inl (List.mem_of_getElem? hi))]
    refine Or.inl ⟨i, by omega, hi, ?_⟩
    rw [udpReceive, findOrAddDevice, hfind]
    simp only [Int.natCast_nonneg, if_true, updateDeviceData_eq (show i < maxDevices by omega),
      SysInfo.stored, ← h.count]
  | none =>
    have hno : d.ip ∉ registered packets := by
      intro hmem
      obtain ⟨i, hi⟩ := List.mem_iff_getElem?.1 hmem
      rw [h.find_iff.2 hi] at hfind
      cases hfind
    by_cases hroom : maxDevices ≤ (registered packets).length
    · rw [if_pos (Or.inr hroom)]
      refine Or.inr ⟨hno, le_antisymm hlen hroom, rfl, ?_⟩
      have hfull : ¬ ((registered packets).length : ℤ) < (maxDevices : ℕ) := by omega
      rw [udpReceive, findOrAddDevice, hfind]
      simp only [h.count, if_neg hfull]
      rfl
    · rw [if_neg (not_or.2 ⟨hno, hroom⟩)]
      refine Or.inl ⟨(registered packets).length, by omega, by simp, ?_⟩
      have hgrown : (((registered packets ++ [d.ip]).length : ℕ) : ℤ) =
          (registered packets).length + 1 := by
        rw [List.length_append, List.length_singleton, Int.natCast_succ]
      have hfree : ((registered packets).length : ℤ) < (maxDevices : ℕ) := by omega
      rw [udpReceive, findOrAddDevice, hfind]
      simp only [h.count, if_pos hfree, Int.natCast_nonneg, if_true, Int.toNat_natCast,
        updateDeviceData_eq (show (registered packets).length < maxDevices by omega),
        SysInfo.stored, hgrown,
        Vector.setIfInBounds_setIfInBounds]

@[simp] theorem stored_deviceCount {n : ℤ} : (s.stored i n d tick).deviceCount = n := by
  rw [SysInfo.stored]
  split <;> rfl

@[simp] theorem stored_currentDeviceIndex {n : ℤ} :
    (s.stored i n d tick).currentDeviceIndex = s.currentDeviceIndex := by
  rw [SysInfo.stored]
  split <;> rfl

theorem stored_device {n : ℤ} (hi : i < maxDevices) :
    (s.stored i n d tick).device j = if j = i then ⟨d, tick, true⟩ else s.device j := by
  rw [SysInfo.stored]
  split
  · exact device_set (n := n) hi
  · exact device_set (n := n) hi

variable (s d i tick) in
theorem stored_shown {n : ℤ} : (s.stored i n d tick).sysinfoData =
      (if (i : ℤ) = s.currentDeviceIndex ∨ n = 1 then d else s.sysinfoData) ∧
    (s.stored i n d tick).lastRecvTime =
      (if (i : ℤ) = s.currentDeviceIndex ∨ n = 1 then tick else s.lastRecvTime) := by
  by_cases hcond : (i : ℤ) = s.currentDeviceIndex ∨ n = 1
  · simp only [SysInfo.stored, if_pos hcond, and_self]
  · simp only [SysInfo.stored, if_neg hcond, and_self]

/-- The others are where they were. -/
theorem registered_of_concat (ha : (registered (packets ++ [(now, d)]))[i]? = some a)
    (hne : a ≠ d.ip) : (registered packets)[i]? = some a := by
  rw [registered_concat, enroll] at ha
  split at ha
  · exact ha
  · rcases Nat.lt_or_ge i (registered packets).length with hlt | hge
    · rwa [List.getElem?_append_left hlt] at ha
    · rw [List.getElem?_append_right hge] at ha
      obtain rfl := List.mem_singleton.1 (List.mem_of_getElem? ha)
      exact absurd rfl hne

variable (packets d now) in
theorem length_registered_le :
    (registered packets).length ≤ (registered (packets ++ [(now, d)])).length ∧
      (registered (packets ++ [(now, d)])).length ≤ (registered packets).length + 1 := by
  rw [registered_concat, enroll]
  split
  · omega
  · rw [List.length_append, List.length_singleton]
    omega

/-- **What a packet stores** keeps the screen tracking. -/
theorem Tracks.stored (h : Tracks s packets) (hi : i < maxDevices)
    (hkey : (registered (packets ++ [(now, d)]))[i]? = some d.ip) :
    Tracks (s.stored i (registered (packets ++ [(now, d)])).length d (lvTickGet now))
      (packets ++ [(now, d)]) := by
  have hlt := (List.getElem?_eq_some_iff.1 hkey).1
  obtain ⟨hle, hge⟩ := length_registered_le packets d now
  have hcount := h.count
  -- the current index is one of the entries, before the first packet the first to come
  have hcurrent : 0 ≤ s.currentDeviceIndex ∧
      s.currentDeviceIndex < (registered (packets ++ [(now, d)])).length := by
    rcases Nat.eq_zero_or_pos (registered packets).length with hzero | hpos
    · have := (h.idle (by omega)).1
      omega
    · have := h.current (by omega)
      omega
  refine ⟨stored_deviceCount, ?_, ?_, ?_, ?_⟩
  · intro j a ha
    rw [stored_device hi]
    by_cases hji : j = i
    · subst hji
      rw [hkey] at ha
      obtain rfl := Option.some.inj ha
      exact ⟨(now, d), by rw [latest_concat, if_pos rfl], by rw [if_pos rfl]⟩
    · have hne : a ≠ d.ip := by
        rintro rfl
        exact hji ((List.getElem?_inj hlt nodup_roster).1 (hkey.trans ha.symm)).symm
      obtain ⟨r, hr, hdevice⟩ := h.entry j a (registered_of_concat ha hne)
      refine ⟨r, ?_, by rw [if_neg hji, hdevice]⟩
      rw [latest_concat, if_neg (Ne.symm hne), hr]
  · intro _
    rw [stored_deviceCount, stored_currentDeviceIndex]
    exact hcurrent
  · intro _
    obtain ⟨hdata, htime⟩ := stored_shown s d i (lvTickGet now)
      (n := ((registered (packets ++ [(now, d)])).length : ℤ))
    rw [hdata, htime, stored_currentDeviceIndex, stored_device hi]
    by_cases hshow : (i : ℤ) = s.currentDeviceIndex ∨
        ((registered (packets ++ [(now, d)])).length : ℤ) = 1
    · have hcur : s.currentDeviceIndex.toNat = i := by omega
      rw [if_pos hshow, if_pos hshow, if_pos hcur]
      exact ⟨rfl, rfl⟩
    · have hcur : s.currentDeviceIndex.toNat ≠ i := by omega
      rw [if_neg hshow, if_neg hshow, if_neg hcur]
      exact h.shown (by omega)
  · intro hzero
    rw [stored_deviceCount] at hzero
    omega

/-- A packet that is refused changes nothing but the list of packets. -/
theorem Tracks.refused (h : Tracks s packets) (hno : d.ip ∉ registered packets)
    (hsame : registered (packets ++ [(now, d)]) = registered packets) :
    Tracks s (packets ++ [(now, d)]) := by
  refine ⟨by rw [hsame]; exact h.count, ?_, h.current, h.shown, h.idle⟩
  intro j a ha
  rw [hsame] at ha
  obtain ⟨r, hr, hdevice⟩ := h.entry j a ha
  refine ⟨r, ?_, hdevice⟩
  rw [latest_concat, if_neg, hr]
  rintro rfl
  exact hno (List.mem_of_getElem? ha)

theorem Tracks.udpReceive (h : Tracks s packets) :
    Tracks (udpReceive s d (lvTickGet now)) (packets ++ [(now, d)]) := by
  rcases h.udpReceive_eq d now (lvTickGet now) with
    ⟨i, hi, hkey, heq⟩ | ⟨hno, -, hsame, heq⟩
  · rw [heq]
    exact h.stored hi hkey
  · rw [heq]
    exact h.refused hno hsame

/-- **A swipe** to an index in range shows the entry there. -/
theorem Tracks.switchToDevice (h : Tracks s packets) {k : ℤ} (hk : 0 ≤ k)
    (hlt : k < s.deviceCount) : Tracks (switchToDevice s k) packets := by
  rw [Lvgl.switchToDevice, if_neg (by omega)]
  exact ⟨h.count, h.entry, fun _ => ⟨hk, hlt⟩, fun _ => ⟨rfl, rfl⟩,
    fun hzero => absurd hzero (by simp only; omega)⟩

theorem Tracks.gestureEventHandler (h : Tracks s packets) (dir : Direction) :
    Tracks (gestureEventHandler s dir) packets := by
  rw [Lvgl.gestureEventHandler.eq_def]
  split
  · exact h
  rename_i hmany
  obtain ⟨hlow, hhigh⟩ := h.current (by omega)
  cases dir with
  | top =>
    exact h.switchToDevice (Int.tmod_nonneg _ (by omega)) (Int.tmod_lt_of_pos _ (by omega))
  | bottom =>
    exact h.switchToDevice (Int.tmod_nonneg _ (by omega)) (Int.tmod_lt_of_pos _ (by omega))
  | other => exact h

variable (s tick) in
/-- **The timer** changes the flag only. -/
theorem sysinfoTimerCallback_eq : ∃ received, sysinfoTimerCallback s tick =
    { s with dataReceived := received } ∧ (s.dataReceived = false → received = false) := by
  rw [sysinfoTimerCallback]
  split
  · simp only
    split
    · exact ⟨false, rfl, fun _ => rfl⟩
    · exact ⟨s.dataReceived, rfl, id⟩
  · exact ⟨s.dataReceived, rfl, id⟩

theorem Tracks.sysinfoTimerCallback (h : Tracks s packets) :
    Tracks (sysinfoTimerCallback s tick) packets := by
  obtain ⟨received, heq, hkeep⟩ := sysinfoTimerCallback_eq s tick
  rw [heq]
  exact ⟨h.count, h.entry, h.current, h.shown,
    fun hzero => ⟨(h.idle hzero).1, hkeep (h.idle hzero).2⟩⟩

/-! ## A run -/

theorem packetsOf_append {more : List (ℕ × Event)} :
    packetsOf (p ++ more) = packetsOf p ++ packetsOf more :=
  List.filterMap_append

theorem tracks_initial : Tracks (.initial shown) [] where
  count := rfl
  entry _ _ h := nomatch h
  current h := absurd h (lt_irrefl _)
  shown h := absurd h (lt_irrefl _)
  idle _ := ⟨rfl, rfl⟩

/-- **Every run tracks its packets.** -/
theorem tracks_runFrom : Tracks (runFrom shown events) (packetsOf events) := by
  induction events using List.reverseRecOn with
  | nil => exact tracks_initial
  | append_singleton events e ih =>
    obtain ⟨now, e⟩ := e
    rw [runFrom, List.foldl_append, List.foldl_cons, List.foldl_nil, ← runFrom, packetsOf_append]
    cases e with
    | packet recvData => exact ih.udpReceive
    | gesture dir =>
      rw [show packetsOf [(now, Event.gesture dir)] = [] from rfl, List.append_nil]
      exact ih.gestureEventHandler dir
    | timer =>
      rw [show packetsOf [(now, Event.timer)] = [] from rfl, List.append_nil]
      exact ih.sysinfoTimerCallback

/-- An address registered stays at its place. -/
theorem registered_mono (hp : p <+: events) (ha : (registered (packetsOf p))[i]? = some a) :
    (registered (packetsOf events))[i]? = some a := by
  obtain ⟨more, rfl⟩ := hp
  obtain ⟨rest, hrest⟩ : registered (packetsOf p) <+: registered (packetsOf (p ++ more)) := by
    rw [packetsOf_append, registered, registered, List.map_append]
    exact roster_append
  rw [← hrest, List.getElem?_append_left (List.getElem?_eq_some_iff.1 ha).1, ha]

variable (shown events) in
/-- **The registry holds in every run.** -/
theorem registryHolds : RegistryHolds shown events := by
  have h : Tracks (runFrom shown events) (packetsOf events) := tracks_runFrom
  have hlen : (registered (packetsOf events)).length ≤ maxDevices := length_roster_le
  have hcount := h.count
  refine ⟨⟨by omega, by omega⟩, ?_, ?_, ?_, ?_, ?_⟩
  · intro i j hij hj heq
    obtain ⟨a, ha⟩ := h.exists_of_lt (show (i : ℤ) < _ by omega)
    obtain ⟨b, hb⟩ := h.exists_of_lt hj
    rw [h.ip_eq ha, h.ip_eq hb] at heq
    subst heq
    have hlt := (List.getElem?_eq_some_iff.1 ha).1
    have := (List.getElem?_inj hlt nodup_roster).1 (ha.trans hb.symm)
    omega
  · intro i hi
    obtain ⟨a, ha⟩ := h.exists_of_lt hi
    obtain ⟨r, hr, hdevice⟩ := h.entry i a ha
    obtain ⟨hkey, pre, post, hsplit, hpost⟩ := latest_eq_some_iff.1 hr
    rw [hdevice]
    refine ⟨pre, post, r.1, hsplit, ?_⟩
    intro c hc
    have hip : r.2.ip = a := hkey
    rw [hip]
    exact hpost c hc
  · intro p hp i hi
    have hpre : Tracks (runFrom shown p) (packetsOf p) := tracks_runFrom
    obtain ⟨a, ha⟩ := hpre.exists_of_lt hi
    have ha' := registered_mono hp ha
    exact ⟨h.lt_of_some ha', by rw [h.ip_eq ha', hpre.ip_eq ha]⟩
  · intro p now recvData hp
    have hpre : Tracks (runFrom shown p) (packetsOf p) := tracks_runFrom
    have hpackets : packetsOf (p ++ [(now, .packet recvData)]) =
        packetsOf p ++ [(now, recvData.1)] := packetsOf_append
    by_cases hmem : recvData.1.ip ∈ registered (packetsOf (p ++ [(now, .packet recvData)]))
    · obtain ⟨i, hi⟩ := List.mem_iff_getElem?.1 hmem
      have hi' := registered_mono hp hi
      exact Or.inl ⟨i, h.lt_of_some hi', h.ip_eq hi'⟩
    · rw [hpackets, registered, List.map_append] at hmem
      obtain ⟨hfull, hno⟩ := full_of_not_mem hmem
      refine Or.inr ⟨by rw [hpre.count, registered, hfull], ?_⟩
      intro i hi heq
      obtain ⟨a, ha⟩ := hpre.exists_of_lt (i := i) (by rw [hpre.count, registered, hfull]; omega)
      rw [hpre.ip_eq ha] at heq
      subst heq
      exact hno (List.mem_of_getElem? ha)
  · intro hpos
    obtain ⟨hlow, hhigh⟩ := h.current (by omega)
    exact ⟨hlow, hhigh, (h.shown (by omega)).1⟩

end Track

end Lvgl

end ObcSdk
