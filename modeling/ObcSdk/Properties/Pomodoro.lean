import Mathlib.Algebra.Group.Nat.Defs
import ObcSdk.Lib.Runs
import ObcSdk.Properties.PauseResume
/-!
# The timer over its runs

Whatever is started, paused, reset and set, the timer's times stay those
of the sliders, no more remains than there was, the arc's value is a
percentage, and a timer at rest is set for a work period. The count is
that of the work periods over, and every fourth of them is followed by a
long break.
-/

namespace ObcSdk

namespace Lvgl

/-- The settings are those of the sliders, in seconds. -/
structure TomatoConfig.InRange (c : TomatoConfig) : Prop where
  workTime : 60 ≤ c.workTime.toNat ∧ c.workTime.toNat ≤ 3600
  shortBreakTime : 60 ≤ c.shortBreakTime.toNat ∧ c.shortBreakTime.toNat ≤ 1800
  longBreakTime : 600 ≤ c.longBreakTime.toNat ∧ c.longBreakTime.toNat ≤ 3600
  longBreakInterval : c.longBreakInterval = 4

/-- The times of a timer. -/
structure TimesHold (s : Tomato) : Prop where
  total : 0 < s.data.totalTime.toNat ∧ s.data.totalTime.toNat ≤ 3600
  remaining : s.data.remainingTime.toNat ≤ s.data.totalTime.toNat
  idle : s.data.state = .idle →
    s.data.remainingTime = s.config.workTime ∧ s.data.totalTime = s.config.workTime

/-- What every event keeps. -/
structure TomatoInv (s : Tomato) : Prop where
  config : s.config.InRange
  times : TimesHold s

/-- An event that ends a work period. -/
def Completes (s : Tomato) : TomatoEvent → Prop
  | .tick => s.data.state = .working ∧ s.data.remainingTime = 0
  | _ => False

instance (s : Tomato) (e : TomatoEvent) : Decidable (Completes s e) := by
  cases e <;> unfold Completes <;> infer_instance

/-- The timer after a run of events, and how many work periods were over
in it. -/
def tally (events : List TomatoEvent) : Tomato × ℕ :=
  events.foldl (fun r e => (r.1.step e, if Completes r.1 e then r.2 + 1 else r.2)) (.initial, 0)

/-- How many work periods were over in a run. -/
def completed (events : List TomatoEvent) : ℕ := (tally events).2

/-- **The timer holds over a run**: its times do, the arc's value is a
percentage computed without overflow, the count is that of the work
periods over, one more for each and for nothing else, the break after each
is a long one where it is a fourth, and a work period that is left to itself
is over once its time has run out. -/
structure PomodoroHolds (events : List TomatoEvent) : Prop where
  times : TimesHold (Tomato.run events)
  arc : (Tomato.run events).data.remainingTime.toNat * 100 < 2 ^ 32 ∧
    (arcValue (Tomato.run events).data).toNat =
      (Tomato.run events).data.remainingTime.toNat * 100 /
        (Tomato.run events).data.totalTime.toNat ∧
    (arcValue (Tomato.run events).data).toNat ≤ 100
  count : (Tomato.run events).data.tomatoCount = UInt32.ofNat (completed events)
  counted : ∀ p e, p ++ [e] <+: events → Completes (Tomato.run p) e →
    (Tomato.run (p ++ [e])).data.tomatoCount = (Tomato.run p).data.tomatoCount + 1 ∧
      (Tomato.run (p ++ [e])).data.state =
        if 4 ∣ completed (p ++ [e]) then .longBreak else .shortBreak
  uncounted : ∀ p e, p ++ [e] <+: events → ¬ Completes (Tomato.run p) e →
    (Tomato.run (p ++ [e])).data.tomatoCount = (Tomato.run p).data.tomatoCount
  runs_out : (Tomato.run events).data.state = .idle →
    (∀ k ≤ (Tomato.run events).config.workTime.toNat,
      (Tomato.run (events ++ .start :: List.replicate k .tick)).data.state = .working ∧
        (Tomato.run (events ++ .start :: List.replicate k .tick)).data.remainingTime.toNat =
          (Tomato.run events).config.workTime.toNat - k) ∧
      Completes (Tomato.run (events ++
        .start :: List.replicate (Tomato.run events).config.workTime.toNat .tick)) .tick

section Pomodoro

variable {s : Tomato} {c : TomatoConfig} {d : TomatoData} {events p : List TomatoEvent}
  {e : TomatoEvent} {state : TomatoState} {time : UInt32}

/-! ## The settings -/

/-- A slider's minutes, in seconds. -/
theorem toNat_seconds {low high : Int32} (value : SliderValue low high) (hlow : 0 ≤ low.toInt)
    (hhigh : high.toInt ≤ 60) : (value.1 * 60).toUInt32.toNat = 60 * value.1.toInt.toNat ∧
      low.toInt ≤ value.1.toInt ∧ value.1.toInt ≤ high.toInt := by
  obtain ⟨value, hge, hle⟩ := value
  rw [Int32.le_iff_toInt_le] at hge hle
  have hall : ∀ n : Fin 61, (Int32.ofNat n.val * 60).toUInt32.toNat = 60 * n.val := by decide
  have hvalue : Int32.ofNat value.toInt.toNat = value := by
    have hcast : ((value.toInt.toNat : ℕ) : ℤ) = value.toInt := by omega
    rw [← Int32.toInt_inj, Int32.toInt_ofNat', hcast]
    simp
  have hat := hall ⟨value.toInt.toNat, by omega⟩
  simp only [hvalue] at hat
  exact ⟨hat, hge, hle⟩

/-- **A slider** keeps the settings in range. -/
theorem TomatoConfig.InRange.moved (h : c.InRange) (move : SliderMove) :
    (c.moved move).InRange := by
  cases move with
  | workTime value =>
    have hsec : _ ∧ (1 : ℤ) ≤ _ ∧ _ ≤ (60 : ℤ) := toNat_seconds value (by decide) (by decide)
    exact ⟨by simp only [TomatoConfig.moved]; omega, h.shortBreakTime, h.longBreakTime,
      h.longBreakInterval⟩
  | shortBreak value =>
    have hsec : _ ∧ (1 : ℤ) ≤ _ ∧ _ ≤ (30 : ℤ) := toNat_seconds value (by decide) (by decide)
    exact ⟨h.workTime, by simp only [TomatoConfig.moved]; omega, h.longBreakTime,
      h.longBreakInterval⟩
  | longBreak value =>
    have hsec : _ ∧ (10 : ℤ) ≤ _ ∧ _ ≤ (60 : ℤ) := toNat_seconds value (by decide) (by decide)
    exact ⟨h.workTime, h.shortBreakTime, by simp only [TomatoConfig.moved]; omega,
      h.longBreakInterval⟩

/-! ## The times -/

/-- A phase starts with all of its time. -/
theorem timesHold_phase (htime : 0 < time.toNat ∧ time.toNat ≤ 3600)
    (hidle : state = .idle → time = s.config.workTime) :
    TimesHold { s with data := d.phase state time } where
  total := htime
  remaining := Nat.le_refl _
  idle h := ⟨hidle h, hidle h⟩

/-- A timer that runs or is paused keeps its times. -/
theorem TimesHold.of_ne_idle (h : TimesHold s) {config : TomatoConfig} {timer : Bool}
    (hne : state ≠ .idle) : TimesHold ⟨config, { s.data with state := state }, timer⟩ where
  total := h.total
  remaining := h.remaining
  idle hidle := absurd hidle hne

theorem TomatoInv.start (h : TomatoInv s) : TomatoInv (tomatoStart s) := by
  refine ⟨h.config, ?_⟩
  have hwork := h.config.workTime
  rw [tomatoStart]
  simp only
  split
  · exact timesHold_phase (s := { s with timer := true }) (by omega) fun h => by cases h
  · split
    · split
      · refine h.times.of_ne_idle ?_
        rw [resumedState]
        split
        · decide
        · split <;> decide
      · exact ⟨h.times.total, h.times.remaining, h.times.idle⟩
    · exact ⟨h.times.total, h.times.remaining, h.times.idle⟩

theorem TomatoInv.pause (h : TomatoInv s) : TomatoInv (tomatoPause s) := by
  rw [tomatoPause]
  split
  · exact ⟨h.config, h.times.of_ne_idle (by decide)⟩
  · exact h

theorem TomatoInv.reset (h : TomatoInv s) : TomatoInv (tomatoReset s) := by
  have hwork := h.config.workTime
  exact ⟨h.config, timesHold_phase (by omega) fun _ => rfl⟩

theorem TomatoInv.workDone (h : TomatoInv s) : TomatoInv s.workDone := by
  have hshort := h.config.shortBreakTime
  have hlong := h.config.longBreakTime
  rw [Tomato.workDone]
  simp only
  split
  · exact ⟨h.config, timesHold_phase (by omega) fun h => by cases h⟩
  · exact ⟨h.config, timesHold_phase (by omega) fun h => by cases h⟩

theorem TomatoInv.tick (h : TomatoInv s) : TomatoInv (tomatoTimerCb s) := by
  have hwork := h.config.workTime
  rcases tomatoTimerCb_cases (s := s) with
    ⟨-, heq⟩ | ⟨hactive, hpos, heq⟩ | ⟨-, -, heq⟩ | ⟨-, -, heq⟩ <;> rw [heq]
  · exact h
  · refine ⟨h.config, h.times.total, ?_, ?_⟩
    · have hone : 1 ≤ s.data.remainingTime := by
        rw [UInt32.le_iff_toNat_le, UInt32.toNat_one]
        exact UInt32.lt_iff_toNat_lt.1 hpos
      have hle := h.times.remaining
      simp only
      rw [UInt32.toNat_sub_of_le _ _ hone]
      omega
    · intro hidle
      simp only at hidle
      rw [hidle] at hactive
      rcases hactive with h | h | h <;> cases h
  · exact h.workDone
  · exact ⟨h.config, timesHold_phase (by omega) fun _ => rfl⟩

theorem TomatoInv.move (h : TomatoInv s) (move : SliderMove) : TomatoInv (s.move move) := by
  have hmoved := h.config.moved move
  by_cases hidle : s.data.state = .idle
  · cases move with
    | workTime value =>
      have hwork := hmoved.workTime
      simp only [Tomato.move, workTimeSliderCb, if_pos hidle]
      refine ⟨hmoved, timesHold_phase (s := { s with config := s.config.moved (.workTime value) })
        ?_ fun _ => rfl⟩
      simp only [TomatoConfig.moved] at hwork
      omega
    | shortBreak value => exact ⟨hmoved, h.times.total, h.times.remaining, h.times.idle⟩
    | longBreak value => exact ⟨hmoved, h.times.total, h.times.remaining, h.times.idle⟩
  · rw [move_of_ne_idle hidle]
    exact ⟨hmoved, h.times.total, h.times.remaining, fun hst => absurd hst hidle⟩

/-- **Every event keeps** the settings and the times. -/
theorem TomatoInv.step (h : TomatoInv s) : TomatoInv (s.step e) := by
  cases e with
  | start => exact h.start
  | pause => exact h.pause
  | reset => exact h.reset
  | tick => exact h.tick
  | slider move => exact h.move move

theorem tomatoInv_initial : TomatoInv .initial :=
  ⟨⟨by decide, by decide, by decide, rfl⟩, ⟨by decide, by decide, fun _ => ⟨rfl, rfl⟩⟩⟩

theorem run_concat : Tomato.run (p ++ [e]) = (Tomato.run p).step e := foldl_concat

/-- And so does every run. -/
theorem tomatoInv_run : TomatoInv (Tomato.run events) := by
  induction events using List.reverseRecOn with
  | nil => exact tomatoInv_initial
  | append_singleton events e ih =>
    rw [run_concat]
    exact ih.step

/-- **The arc's value** is a percentage. -/
theorem arcValue_eq (h : TimesHold s) : s.data.remainingTime.toNat * 100 < 2 ^ 32 ∧
    (arcValue s.data).toNat = s.data.remainingTime.toNat * 100 / s.data.totalTime.toNat ∧
    (arcValue s.data).toNat ≤ 100 := by
  obtain ⟨hpos, hmax⟩ := h.total
  have hle := h.remaining
  have hfit : s.data.remainingTime.toNat * 100 < 2 ^ 32 := by omega
  have htotal : 0 < s.data.totalTime := UInt32.lt_iff_toNat_lt.2 hpos
  have heq : (arcValue s.data).toNat =
      s.data.remainingTime.toNat * 100 / s.data.totalTime.toNat := by
    rw [arcValue, if_pos htotal, UInt32.toNat_div, UInt32.toNat_mul,
      show (100 : UInt32).toNat = 100 from rfl, Nat.mod_eq_of_lt hfit]
  refine ⟨hfit, heq, ?_⟩
  rw [heq]
  exact Nat.div_le_of_le_mul (Nat.mul_le_mul_right 100 hle)

/-! ## The count -/

/-- The count goes on with a work period over, and with nothing else. -/
theorem step_tomatoCount : (s.step e).data.tomatoCount =
    if Completes s e then s.data.tomatoCount + 1 else s.data.tomatoCount := by
  cases e with
  | start =>
    rw [if_neg (show ¬ Completes s .start from id)]
    rw [Tomato.step, tomatoStart]
    simp only
    split
    · rfl
    · split
      · split <;> rfl
      · rfl
  | pause =>
    rw [if_neg (show ¬ Completes s .pause from id)]
    rw [Tomato.step, tomatoPause]
    split <;> rfl
  | reset =>
    rw [if_neg (show ¬ Completes s .reset from id)]
    rfl
  | tick =>
    rw [Tomato.step]
    rcases tomatoTimerCb_cases (s := s) with
      ⟨hidle, heq⟩ | ⟨-, hpos, heq⟩ | ⟨hwork, hzero, heq⟩ | ⟨hbreak, -, heq⟩
    · rw [heq, if_neg]
      rintro ⟨hwork, -⟩
      exact hidle (Or.inl hwork)
    · rw [heq, if_neg]
      rintro ⟨-, hzero⟩
      rw [hzero] at hpos
      cases hpos
    · rw [heq, workDone_tomatoCount, if_pos ⟨hwork, hzero⟩]
    · rw [heq, if_neg]
      · rfl
      · rintro ⟨hwork, -⟩
        rw [hwork] at hbreak
        rcases hbreak with h | h <;> cases h
  | slider move =>
    rw [if_neg (show ¬ Completes s (.slider move) from id)]
    cases move with
    | workTime value =>
      simp only [Tomato.step, Tomato.move, workTimeSliderCb]
      split <;> rfl
    | shortBreak value => rfl
    | longBreak value => rfl

theorem tally_fst : (tally events).1 = Tomato.run events := by
  induction events using List.reverseRecOn with
  | nil => rfl
  | append_singleton events e ih =>
    rw [tally, foldl_concat, run_concat, ← ih]
    rfl

theorem completed_concat : completed (p ++ [e]) =
    if Completes (Tomato.run p) e then completed p + 1 else completed p := by
  rw [completed, tally, foldl_concat, ← tally, tally_fst]
  rfl

/-- **The count** is that of the work periods over. -/
theorem tomatoCount_run :
    (Tomato.run events).data.tomatoCount = UInt32.ofNat (completed events) := by
  induction events using List.reverseRecOn with
  | nil => rfl
  | append_singleton events e ih =>
    rw [run_concat, step_tomatoCount, completed_concat, ih]
    split
    · rw [UInt32.ofNat_add]
      rfl
    · rfl

/-- Every fourth count is a multiple of four, also when it wraps. -/
theorem ofNat_mod_four_iff {n : ℕ} : UInt32.ofNat n % 4 = 0 ↔ 4 ∣ n := by
  rw [← UInt32.toNat_inj, UInt32.toNat_mod, UInt32.toNat_ofNat']
  change n % 2 ^ 32 % 4 = 0 ↔ 4 ∣ n
  omega

/-- **The break** after a work period is a long one where it is a
fourth. -/
theorem state_of_completes (h : Completes (Tomato.run p) e) :
    (Tomato.run (p ++ [e])).data.state =
      if 4 ∣ completed (p ++ [e]) then .longBreak else .shortBreak := by
  have hcount : (Tomato.run p).data.tomatoCount + 1 = UInt32.ofNat (completed (p ++ [e])) := by
    rw [← tomatoCount_run, run_concat, step_tomatoCount, if_pos h]
  have hfour : (Tomato.run p).config.longBreakInterval = 4 :=
    tomatoInv_run.config.longBreakInterval
  cases e with
  | tick =>
    have hwork : (Tomato.run p).step .tick = (Tomato.run p).workDone := by
      rcases tomatoTimerCb_cases (s := Tomato.run p) with
        ⟨hidle, -⟩ | ⟨-, hpos, -⟩ | ⟨-, -, heq⟩ | ⟨hbreak, -, -⟩
      · exact absurd (Or.inl h.1) hidle
      · rw [h.2] at hpos
        cases hpos
      · exact heq
      · rw [h.1] at hbreak
        rcases hbreak with h | h <;> cases h
    rw [run_concat, hwork, Tomato.workDone]
    simp only [hcount, hfour, ofNat_mod_four_iff]
    split <;> rfl
  | start => cases h
  | pause => cases h
  | reset => cases h
  | slider move => cases h

/-! ## A work period -/

/-- Seconds of a work period, with nothing between them. -/
theorem foldl_tick (hwork : s.data.state = .working) {k : ℕ}
    (hk : k ≤ s.data.remainingTime.toNat) :
    ((List.replicate k .tick).foldl Tomato.step s).data.state = .working ∧
      ((List.replicate k .tick).foldl Tomato.step s).data.remainingTime.toNat =
        s.data.remainingTime.toNat - k := by
  induction k generalizing s with
  | zero => exact ⟨hwork, rfl⟩
  | succ k ih =>
    have hpos : 0 < s.data.remainingTime := UInt32.lt_iff_toNat_lt.2 (by simp; omega)
    have hone : 1 ≤ s.data.remainingTime := by
      rw [UInt32.le_iff_toNat_le, UInt32.toNat_one]
      omega
    have htick : s.step .tick =
        { s with data := { s.data with remainingTime := s.data.remainingTime - 1 } } := by
      rcases tomatoTimerCb_cases (s := s) with
        ⟨hidle, -⟩ | ⟨-, -, heq⟩ | ⟨-, hzero, -⟩ | ⟨hbreak, -⟩
      · exact absurd (Or.inl hwork) hidle
      · exact heq
      · rw [hzero] at hpos
        cases hpos
      · rw [hwork] at hbreak
        rcases hbreak with h | h <;> cases h
    have hrest : (s.data.remainingTime - 1).toNat = s.data.remainingTime.toNat - 1 := by
      rw [UInt32.toNat_sub_of_le _ _ hone, UInt32.toNat_one]
    obtain ⟨hstate, hremaining⟩ := ih (s := s.step .tick) (by rw [htick]; exact hwork)
      (by rw [htick]; simp only [hrest]; omega)
    rw [List.replicate_succ, List.foldl_cons]
    refine ⟨hstate, hremaining.trans ?_⟩
    rw [htick]
    simp only [hrest]
    omega

/-- A work period that was started counts down. -/
theorem run_start_ticks (hidle : (Tomato.run events).data.state = .idle) {k : ℕ}
    (hk : k ≤ (Tomato.run events).config.workTime.toNat) :
    (Tomato.run (events ++ .start :: List.replicate k .tick)).data.state = .working ∧
      (Tomato.run (events ++ .start :: List.replicate k .tick)).data.remainingTime.toNat =
        (Tomato.run events).config.workTime.toNat - k := by
  have hstart : ((Tomato.run events).step .start).data =
      (Tomato.run events).data.phase .working (Tomato.run events).config.workTime := by
    rw [Tomato.step, tomatoStart]
    exact if_pos hidle
  have hrun : Tomato.run (events ++ .start :: List.replicate k .tick) =
      (List.replicate k .tick).foldl Tomato.step ((Tomato.run events).step .start) := by
    rw [Tomato.run, List.foldl_append, List.foldl_cons]
    rfl
  rw [hrun]
  have hticks := foldl_tick (s := (Tomato.run events).step .start) (k := k)
    (by rw [hstart]; rfl) (by rw [hstart]; exact hk)
  rw [hstart] at hticks
  exact hticks

variable (events) in
/-- **The timer holds over every run.** -/
theorem pomodoroHolds : PomodoroHolds events where
  times := tomatoInv_run.times
  arc := arcValue_eq tomatoInv_run.times
  count := tomatoCount_run
  counted p e _ h := ⟨by rw [run_concat, step_tomatoCount, if_pos h], state_of_completes h⟩
  uncounted p e _ h := by rw [run_concat, step_tomatoCount, if_neg h]
  runs_out hidle := by
    refine ⟨fun k hk => run_start_ticks hidle hk, ?_⟩
    obtain ⟨hwork, hzero⟩ := run_start_ticks hidle (Nat.le_refl _)
    rw [Nat.sub_self] at hzero
    exact ⟨hwork, UInt32.toNat_inj.1 hzero⟩

end Pomodoro

end Lvgl

end ObcSdk
