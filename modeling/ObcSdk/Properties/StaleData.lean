import ObcSdk.Lib.Runs
import ObcSdk.Properties.DeviceRegistry
/-!
# When data counts as live

The refresh timer takes the flag back once the data shown is older than
five seconds, by a difference of two ticks. That is the age as long as it
is below `2 ^ 32` milliseconds. A device that is silent for longer keeps
its tick and its mark of being active, so that a swipe back to it sets
the flag again, and for five seconds in every 49.7 days the age looks
small.
-/

namespace ObcSdk

namespace Lvgl

/-- The address of the device shown. -/
def displayed (s : SysInfo) : List UInt8 := (s.device s.currentDeviceIndex.toNat).data.ip

/-- When an address sent its last packet. -/
def lastReceived (events : List (ℕ × Event)) (a : List UInt8) : Option ℕ :=
  (latest addressOf a (packetsOf events)).map Prod.fst

/-- **No stale data is shown as live**: where the flag is left by a call
of the timer, the device shown sent a packet in the last five
seconds. -/
def Fresh (shown : SysInfoSingle) (events : List (ℕ × Event)) : Prop :=
  ∀ p now, p ++ [(now, Event.timer)] <+: events →
    (runFrom shown (p ++ [(now, .timer)])).dataReceived = true →
      ∃ t, lastReceived p (displayed (runFrom shown p)) = some t ∧ now ≤ t + 5000

/-- **The ticks tell the age**: no call of the timer that finds the flag
comes more than five seconds after the last packet of the device shown,
but at most five after a multiple of `2 ^ 32` milliseconds from it. -/
def AgeTold (shown : SysInfoSingle) (events : List (ℕ × Event)) : Prop :=
  ∀ p now, p ++ [(now, Event.timer)] <+: events → (runFrom shown p).dataReceived = true →
    ∀ t, lastReceived p (displayed (runFrom shown p)) = some t →
      now ≤ t + 5000 ∨ 5000 < (now - t) % 2 ^ 32

section Stale

variable {s : SysInfo} {packets : List (ℕ × SysInfoSingle)} {shown : SysInfoSingle}
  {events p : List (ℕ × Event)} {t now : ℕ} {r : ℕ × SysInfoSingle}

/-- **The difference of two ticks** is the time between them, up to
`2 ^ 32`. -/
theorem toNat_lvTickGet_sub (h : t ≤ now) :
    (lvTickGet now - lvTickGet t).toNat = (now - t) % 2 ^ 32 := by
  rw [lvTickGet, lvTickGet, UInt32.toNat_sub, UInt32.toNat_ofNat', UInt32.toNat_ofNat']
  omega

/-- With the flag there is a device shown, and what it sent last is
known by its tick. -/
theorem Tracks.exists_latest (h : Tracks s packets) (hflag : s.dataReceived = true) :
    ∃ r, latest addressOf (displayed s) packets = some r ∧ s.lastRecvTime = lvTickGet r.1 := by
  have hpos : 0 < s.deviceCount := by
    have hcount := h.count
    by_contra hno
    have := (h.idle (by omega)).2
    rw [hflag] at this
    cases this
  obtain ⟨hlow, hhigh⟩ := h.current hpos
  obtain ⟨a, ha⟩ := h.exists_of_lt (i := s.currentDeviceIndex.toNat) (by omega)
  obtain ⟨r, hr, hdevice⟩ := h.entry _ a ha
  refine ⟨r, ?_, ?_⟩
  · rw [displayed, h.ip_eq ha, hr]
  · rw [(h.shown hpos).2, hdevice]

/-- The timer leaves the flag where the ticks differ by at most five
seconds. -/
theorem sysinfoTimerCallback_dataReceived {tick : UInt32} :
    (sysinfoTimerCallback s tick).dataReceived = true ↔
      s.dataReceived = true ∧ (tick - s.lastRecvTime).toNat ≤ 5000 := by
  rw [sysinfoTimerCallback, ← Nat.not_lt]
  by_cases hflag : s.dataReceived = true
  · rw [if_pos hflag, and_iff_right hflag]
    by_cases hlate : dataTimeoutMs < tick - s.lastRecvTime
    · simp only [if_pos hlate]
      exact iff_of_false Bool.false_ne_true (not_not_intro (UInt32.lt_iff_toNat_lt.1 hlate))
    · simp only [if_neg hlate]
      exact iff_of_true hflag fun hlt => hlate (UInt32.lt_iff_toNat_lt.2 hlt)
  · rw [if_neg hflag]
    exact iff_of_false hflag fun h => hflag h.1

/-- A packet was received at an event. -/
theorem exists_event_of_mem_packetsOf (hr : r ∈ packetsOf p) : ∃ e ∈ p, r.1 = e.1 := by
  obtain ⟨⟨t, k⟩, he, heq⟩ := List.mem_filterMap.1 hr
  refine ⟨(t, k), he, ?_⟩
  cases k with
  | packet recvData =>
    obtain rfl := Option.some.inj heq
    rfl
  | gesture dir => cases heq
  | timer => cases heq

/-- A packet that was received came before what comes after. -/
theorem le_of_mem_packetsOf (hmono : events.Pairwise fun e e' => e.1 ≤ e'.1)
    (hp : p ++ [(now, Event.timer)] <+: events) (hr : r ∈ packetsOf p) : r.1 ≤ now := by
  obtain ⟨e, he, htime⟩ := exists_event_of_mem_packetsOf hr
  rw [htime]
  have hrun := hmono.sublist hp.sublist
  exact (List.pairwise_append.1 hrun).2.2 e he _ (List.mem_singleton_self _)

/-- **Live data is fresh**, in runs of any length, exactly where the ticks
tell the age. -/
theorem fresh_iff (hmono : events.Pairwise fun e e' => e.1 ≤ e'.1) :
    Fresh shown events ↔ AgeTold shown events := by
  refine forall₃_congr fun p now hp => ?_
  have htrack : Tracks (runFrom shown p) (packetsOf p) := tracks_runFrom
  rw [runFrom, foldl_concat, ← runFrom, step, sysinfoTimerCallback_dataReceived, and_imp]
  refine imp_congr_right fun hflag => ?_
  obtain ⟨r, hr, htick⟩ := htrack.exists_latest hflag
  have hmem := mem_of_latest hr
  have hle := le_of_mem_packetsOf hmono hp hmem
  have hlast : lastReceived p (displayed (runFrom shown p)) = some r.1 := by
    rw [lastReceived, hr]
    rfl
  rw [htick, toNat_lvTickGet_sub hle, hlast]
  simp only [Option.some.injEq, exists_eq_left', forall_eq']
  omega

/-- **Within 49.7 days** the ticks tell the age. -/
theorem ageTold_of_lt {start : ℕ} (hmono : events.Pairwise fun e e' => e.1 ≤ e'.1)
    (hspan : ∀ e ∈ events, start ≤ e.1 ∧ e.1 < start + 2 ^ 32) : AgeTold shown events := by
  intro p now hp _ t ht
  obtain ⟨r, hr, rfl⟩ := Option.map_eq_some_iff.1 ht
  have hmem := mem_of_latest hr
  obtain ⟨e, he, htime⟩ := exists_event_of_mem_packetsOf hmem
  have hle := le_of_mem_packetsOf hmono hp hmem
  have hfirst := hspan e (hp.subset (List.mem_append_left _ he))
  have hlast := hspan _ (hp.subset (List.mem_append_right p (List.mem_singleton_self _)))
  simp only at hlast
  omega

end Stale

/-! ## Two devices -/

/-- A packet of an address of one character. -/
def packetFrom (c : UInt8) : Packet :=
  ⟨{ SysInfoSingle.zero with
      base := ⟨.replicate 64 0, (Vector.replicate 32 0).set 0 c⟩ }, by
    rw [Vector.toList_set]
    exact List.mem_of_getElem? (i := 1) (by simp)⟩

/-- Two devices that send, and a swipe from one to the other and back. The
first is live at the first timer; the other, shown next, is not any more
at the second; the first is at the third, with a packet that came while
it was not shown, and falls silent. -/
def visits : List (ℕ × Event) :=
  [(0, .packet (packetFrom 65)), (400, .packet (packetFrom 66)), (1000, .timer),
    (1500, .gesture .top), (3000, .packet (packetFrom 65)), (6000, .timer),
    (6500, .gesture .bottom), (7000, .timer), (9000, .timer)]

/-- What is shown is live as long as it is fresh. -/
theorem fresh_visits :
    Fresh .zero visits ∧
      [3, 6, 8, 9].map (fun n => (runFrom .zero (visits.take n)).dataReceived) =
        [true, false, true, false] :=
  have hmono : visits.Pairwise fun e e' => e.1 ≤ e'.1 := by simp [visits]
  have hspan : ∀ e ∈ visits, 0 ≤ e.1 ∧ e.1 < 0 + 2 ^ 32 := by simp [visits]
  ⟨(fresh_iff hmono).2 (ageTold_of_lt hmono hspan), by decide +kernel⟩

/-- Two devices at the start, silent from then on. The flag is taken back,
and set by a swipe, 49.7 days after. -/
def wrapped : List (ℕ × Event) :=
  [(0, .packet (packetFrom 65)), (0, .packet (packetFrom 66)), (6000, .timer),
    (2 ^ 32 + 100, .gesture .top), (2 ^ 32 + 500, .timer)]

/-- And it stays, with data that is as old. -/
theorem not_fresh_wrapped : ¬ ∀ (shown : SysInfoSingle) (events : List (ℕ × Event)),
    (events.Pairwise fun e e' => e.1 ≤ e'.1) → Fresh shown events := by
  intro hall
  have hfresh := hall .zero wrapped (by simp [wrapped])
  have hlast := hfresh (wrapped.take 4) (2 ^ 32 + 500) ⟨[], rfl⟩ (by decide +kernel)
  have hzero : lastReceived (wrapped.take 4) (displayed (runFrom .zero (wrapped.take 4))) =
      some 0 := by
    decide +kernel
  obtain ⟨t, ht, hle⟩ := hlast
  obtain rfl := Option.some.inj (ht.symm.trans hzero)
  omega

end Lvgl

end ObcSdk
