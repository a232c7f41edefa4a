import Mathlib.Tactic.Linarith
import ObcSdk.Amp.TimerP
/-!
# What a timer's period is programmed to

The check for an overflow looks at whole milliseconds and rejects nothing
that fits; what it lets through is counted in 64 bits, where nothing
wraps. Of a period that comes to no count at all nothing is said: it is
taken, and the counter loaded for the longest period there is.
-/

namespace ObcSdk

namespace Amp

/-- The counts a period comes to, with the clock in kHz rounded to
nearest. -/
def periodCounts (frequency period : UInt32) : ℕ :=
  (frequency.toNat + 500) / 1000 * period.toNat / 1000

/-- A counter that counts up from a value is at zero again after so many
counts, for the first time. -/
def OverflowsAfter (load : UInt32) (n : ℕ) : Prop :=
  0 < n ∧ load + UInt32.ofNat n = 0 ∧ ∀ m, 0 < m → m < n → load + UInt32.ofNat m ≠ 0

/-- The timer's counter. -/
def counterOf (soc : Soc) (timer : TimerStruct) (regs : Regs) : UInt32 :=
  (regs (getTimerBaseAddr soc timer.timerId)).counter

/-- What the counter is loaded with at an overflow. -/
def reloadOf (soc : Soc) (timer : TimerStruct) (regs : Regs) : UInt32 :=
  (regs (getTimerBaseAddr soc timer.timerId)).reload

/-- **A period is programmed right**: it is taken where its counts fit the
counter, the counter then overflows after them, also as it is started,
and a period that is not taken leaves the timer as it was. -/
structure ProgramsPeriod (soc : Soc) (timer : TimerStruct) (period : UInt32) (regs : Regs) :
    Prop where
  taken : (dmTimerSetMicroSeconds soc timer period regs).1 = true ↔
    1 ≤ periodCounts timer.frequency period ∧ periodCounts timer.frequency period ≤ 2 ^ 32 - 1
  counted : ∀ timer' regs', dmTimerSetMicroSeconds soc timer period regs = (true, timer', regs') →
    timer.runMode = runModeContinuous ∨ timer.runMode = runModeOneshot →
      OverflowsAfter (counterOf soc timer regs') (periodCounts timer.frequency period) ∧
      reloadOf soc timer regs' = counterOf soc timer regs' ∧
      counterOf soc timer (timerStart soc timer' regs').2 = counterOf soc timer regs'
  refused : ∀ timer' regs', dmTimerSetMicroSeconds soc timer period regs = (false, timer', regs') →
    timer'.period = timer.period ∧ timer'.periodType = timer.periodType

section Period

variable {soc : Soc} {timer : TimerStruct} {period frequency a b counts : UInt32} {regs : Regs}
  {n : ℕ}

variable (frequency) in
theorem toNat_freqKHz : (freqKHz frequency).toNat = (frequency.toNat + 500) / 1000 := by
  have hlt := frequency.toNat_lt
  have hdiv : (frequency / 1000).toNat = frequency.toNat / 1000 := UInt32.toNat_div _ _
  have hround : 500 ≤ frequency % 1000 ↔ 500 ≤ frequency.toNat % 1000 := UInt32.le_iff_toNat_le
  have hone : (1 : UInt32).toNat = 1 := rfl
  have hzero : (0 : UInt32).toNat = 0 := rfl
  rw [freqKHz, UInt32.toNat_add, hdiv]
  by_cases h : 500 ≤ frequency % 1000
  · have := hround.1 h
    rw [if_pos h, hone]
    omega
  · have := mt hround.2 h
    rw [if_neg h, hzero]
    omega

/-- **The check for an overflow** is one of the product. -/
theorem dmTimerCheckOverflow_iff :
    dmTimerCheckOverflow a b = true ↔ 2 ^ 32 - 1 < a.toNat * b.toNat := by
  have hpos : 0 < b ↔ 0 < b.toNat := UInt32.lt_iff_toNat_lt
  have hdiv : timerMaxPeriod / b < a ↔ (2 ^ 32 - 1) / b.toNat < a.toNat := by
    rw [UInt32.lt_iff_toNat_lt, UInt32.toNat_div]
    rfl
  rw [dmTimerCheckOverflow, Bool.and_eq_true, decide_eq_true_eq, decide_eq_true_eq, hpos, hdiv]
  constructor
  · rintro ⟨hb, hlt⟩
    exact (Nat.div_lt_iff_lt_mul hb).1 hlt
  · intro hlt
    have hb : 0 < b.toNat := by
      rcases Nat.eq_zero_or_pos b.toNat with hzero | hb
      · rw [hzero, Nat.mul_zero] at hlt
        omega
      · exact hb
    exact ⟨hb, (Nat.div_lt_iff_lt_mul hb).2 hlt⟩

variable (soc timer period regs) in
/-- **What is done with a period**: it is taken where its counts do not
overflow the counter. -/
theorem dmTimerSetMicroSeconds_eq : dmTimerSetMicroSeconds soc timer period regs =
    if 2 ^ 32 - 1 < periodCounts timer.frequency period then (false, timer, regs)
    else (true,
      { timer with
        period := UInt32.ofNat (periodCounts timer.frequency period)
        periodType := periodTypeCounts },
      loadCounter (getTimerBaseAddr soc timer.timerId) timer.runMode
        (UInt32.ofNat (periodCounts timer.frequency period)) regs) := by
  have hk := toNat_freqKHz timer.frequency
  have hf := timer.frequency.toNat_lt
  have hp := period.toNat_lt
  have hprod : (freqKHz timer.frequency).toNat * period.toNat < 2 ^ 64 := by
    have hkle : (freqKHz timer.frequency).toNat ≤ 2 ^ 32 := by omega
    nlinarith
  have hcounts : ((freqKHz timer.frequency).toUInt64 * period.toUInt64 / 1000).toNat =
      periodCounts timer.frequency period := by
    have hthousand : (1000 : UInt64).toNat = 1000 := rfl
    rw [UInt64.toNat_div, UInt64.toNat_mul, UInt32.toNat_toUInt64, UInt32.toNat_toUInt64,
      Nat.mod_eq_of_lt hprod, hk, hthousand, periodCounts]
  have hmax : (0xFFFFFFFF : UInt64) <
      (freqKHz timer.frequency).toUInt64 * period.toUInt64 / 1000 ↔
        2 ^ 32 - 1 < periodCounts timer.frequency period := by
    rw [UInt64.lt_iff_toNat_lt, hcounts]
    rfl
  have hcut : ((freqKHz timer.frequency).toUInt64 * period.toUInt64 / 1000).toUInt32 =
      UInt32.ofNat (periodCounts timer.frequency period) := by
    rw [← hcounts, UInt64.toUInt32]
  rw [dmTimerSetMicroSeconds]
  simp only
  by_cases hover : dmTimerCheckOverflow (freqKHz timer.frequency) (period / 1000) = true
  · have hlarge : 2 ^ 32 - 1 < periodCounts timer.frequency period := by
      have hmul := dmTimerCheckOverflow_iff.1 hover
      have hdiv : (period / 1000).toNat = period.toNat / 1000 := UInt32.toNat_div _ _
      rw [hdiv, hk] at hmul
      exact hmul.trans_le (Nat.mul_div_le_mul_div_assoc _ _ _)
    rw [if_pos hover, if_pos hlarge]
  · rw [if_neg hover]
    by_cases hlarge : 2 ^ 32 - 1 < periodCounts timer.frequency period
    · rw [if_pos (hmax.2 hlarge), if_pos hlarge]
    · rw [if_neg (mt hmax.1 hlarge), if_neg hlarge, hcut]

theorem getTimerBaseAddr_ne (h : timer.timerId.toNat < soc.numTimerDevices) :
    getTimerBaseAddr soc timer.timerId ≠ 0 := by
  rw [getTimerBaseAddr, if_pos h]
  exact soc.baseAddr_ne _ h

/-- **An up-counter** loaded with zero less a number of counts overflows
after them. -/
theorem overflowsAfter_sub (hpos : 0 < n) (hlt : n < 2 ^ 32) :
    OverflowsAfter (0 - UInt32.ofNat n) n := by
  have hsum : ∀ m : ℕ, (0 - UInt32.ofNat n + UInt32.ofNat m).toNat =
      (2 ^ 32 - n + m) % 2 ^ 32 := by
    intro m
    have hzero : (0 : UInt32).toNat = 0 := rfl
    rw [UInt32.toNat_add, UInt32.toNat_sub, UInt32.toNat_ofNat', UInt32.toNat_ofNat', hzero]
    omega
  refine ⟨hpos, UInt32.toNat_inj.1 ?_, fun m hm hmn hzero => ?_⟩
  · rw [hsum, Nat.sub_add_cancel hlt.le]
    rfl
  · have hback := hsum m
    rw [hzero, UInt32.toNat_zero] at hback
    omega

variable (counts regs) in
theorem loadCounter_counts {base runMode : UInt32} (hbase : base ≠ 0)
    (hmode : runMode = runModeContinuous ∨ runMode = runModeOneshot) :
    (loadCounter base runMode counts regs base).counter = 0 - counts ∧
      (loadCounter base runMode counts regs base).reload = 0 - counts := by
  rw [loadCounter, if_pos hmode, timerReloadSet, if_pos hbase, timerCounterSet, if_pos hbase]
  simp

/-- **A timer started** counts what was programmed. -/
theorem counterOf_timerStart (hid : timer.timerId.toNat < soc.numTimerDevices)
    (hmode : timer.runMode = runModeContinuous ∨ timer.runMode = runModeOneshot) :
    counterOf soc timer (timerStart soc timer regs).2 = 0 - timer.period := by
  have hbase := getTimerBaseAddr_ne hid
  rw [counterOf, timerStart, if_neg hbase]
  simp only [if_pos hmode]
  rw [timerCounterSet, if_pos hbase]
  simp

/-- A period that is programmed right comes to a count. -/
theorem ProgramsPeriod.one_le (h : ProgramsPeriod soc timer period regs) :
    1 ≤ periodCounts timer.frequency period := by
  have hset := dmTimerSetMicroSeconds_eq soc timer period regs
  by_cases hlarge : 2 ^ 32 - 1 < periodCounts timer.frequency period
  · omega
  · have htaken := h.taken
    rw [hset, if_neg hlarge] at htaken
    exact (htaken.1 rfl).1

/-- A period that overflows the counter is refused. -/
theorem programsPeriod_of_overflow
    (hlarge : 2 ^ 32 - 1 < periodCounts timer.frequency period) :
    ProgramsPeriod soc timer period regs := by
  have hset := dmTimerSetMicroSeconds_eq soc timer period regs
  rw [if_pos hlarge] at hset
  refine ⟨?_, ?_, ?_⟩
  · rw [hset]
    exact iff_of_false Bool.false_ne_true (by omega)
  · intro timer' regs' h
    rw [hset] at h
    cases h
  · intro timer' regs' h
    rw [hset] at h
    cases h
    exact ⟨rfl, rfl⟩

/-- A period of as many counts as the counter has is programmed right. -/
theorem programsPeriod_of_fits (hid : timer.timerId.toNat < soc.numTimerDevices)
    (hpos : 1 ≤ periodCounts timer.frequency period)
    (hfits : periodCounts timer.frequency period ≤ 2 ^ 32 - 1) :
    ProgramsPeriod soc timer period regs := by
  have hset := dmTimerSetMicroSeconds_eq soc timer period regs
  rw [if_neg (not_lt.2 hfits)] at hset
  refine ⟨?_, ?_, ?_⟩
  · rw [hset]
    exact iff_of_true rfl ⟨hpos, hfits⟩
  · intro timer' regs' h hmode
    rw [hset] at h
    cases h
    obtain ⟨hcounter, hreload⟩ :=
      loadCounter_counts (UInt32.ofNat (periodCounts timer.frequency period)) regs
        (getTimerBaseAddr_ne hid) hmode
    refine ⟨?_, ?_, ?_⟩
    · rw [counterOf, hcounter]
      exact overflowsAfter_sub (by omega) (by omega)
    · rw [counterOf, reloadOf, hcounter, hreload]
    · rw [counterOf, counterOf, hcounter]
      let timer' : TimerStruct :=
        { timer with
          period := UInt32.ofNat (periodCounts timer.frequency period)
          periodType := periodTypeCounts }
      have hid' : timer'.timerId.toNat < soc.numTimerDevices := hid
      exact counterOf_timerStart hid' hmode
  · intro timer' regs' h
    rw [hset] at h
    cases h

variable (period regs) in
/-- **A period is programmed right** exactly where it comes to a count. -/
theorem programsPeriod_iff (hid : timer.timerId.toNat < soc.numTimerDevices) :
    ProgramsPeriod soc timer period regs ↔
      1000 ≤ (timer.frequency.toNat + 500) / 1000 * period.toNat := by
  have hone : 1 ≤ periodCounts timer.frequency period ↔
      1000 ≤ (timer.frequency.toNat + 500) / 1000 * period.toNat := by
    rw [periodCounts, Nat.le_div_iff_mul_le (by decide), Nat.one_mul]
  rw [← hone]
  refine ⟨ProgramsPeriod.one_le, fun hpos => ?_⟩
  by_cases hlarge : 2 ^ 32 - 1 < periodCounts timer.frequency period
  · exact programsPeriod_of_overflow hlarge
  · exact programsPeriod_of_fits hid hpos (not_lt.1 hlarge)

end Period

/-- A timer of the AM62x, by its frequency. -/
def am62xTimer (frequency : UInt32) : TimerStruct :=
  ⟨true, 0, 0, frequency, 0, 0, 0, true, 0, true⟩

/-- A tick of a millisecond. -/
theorem programsPeriod_tick :
    ProgramsPeriod .am62x (am62xTimer 25000000) 1000 fun _ => ⟨0, 0⟩ :=
  (programsPeriod_iff _ _ (by decide)).2 (by decide)

/-- Thirty microseconds of a clock of 32768 Hz come to no count, are taken,
and the counter is left at zero. -/
theorem not_programsPeriod_short :
    ¬ ProgramsPeriod .am62x (am62xTimer 32768) 30 (fun _ => ⟨0, 0⟩) ∧
    (dmTimerSetMicroSeconds .am62x (am62xTimer 32768) 30 fun _ => ⟨0, 0⟩).1 = true ∧
    counterOf .am62x (am62xTimer 32768)
      (dmTimerSetMicroSeconds .am62x (am62xTimer 32768) 30 fun _ => ⟨7, 7⟩).2.2 = 0 := by
  refine ⟨fun h => ?_, by decide +kernel, by decide +kernel⟩
  exact absurd h.one_le (by decide)

end Amp

end ObcSdk
