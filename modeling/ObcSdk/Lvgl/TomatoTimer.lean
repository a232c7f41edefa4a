import Mathlib.Data.List.Basic
/-!
# The pomodoro timer

`tomato_timer.c`: the timer's state, what its two buttons do, the callback of
every second and the three sliders of the settings. What is drawn is left
out but for the arc's value.
-/

namespace ObcSdk

namespace Lvgl

/-! ## The data -/

/-- `tomato_state_t`. -/
inductive TomatoState where
  | idle
  | working
  | shortBreak
  | longBreak
  | paused
deriving DecidableEq

/-- `tomato_config_t`, in seconds. -/
structure TomatoConfig where
  workTime : UInt32
  shortBreakTime : UInt32
  longBreakTime : UInt32
  longBreakInterval : UInt32
deriving DecidableEq

/-- `tomato_data_t`. -/
structure TomatoData where
  state : TomatoState
  remainingTime : UInt32
  totalTime : UInt32
  tomatoCount : UInt32
  todayTomatoCount : UInt32
deriving DecidableEq

/-- The timer's variables. -/
structure Tomato where
  config : TomatoConfig
  data : TomatoData
  /-- Whether `g_tomato_timer` is there. -/
  timer : Bool
deriving DecidableEq

/-- The variables at the start. -/
def Tomato.initial : Tomato where
  config := ⟨25 * 60, 5 * 60, 15 * 60, 4⟩
  data := ⟨.idle, 25 * 60, 25 * 60, 0, 0⟩
  timer := false

/-- The arc's value in `tomato_update_display`. -/
def arcValue (d : TomatoData) : UInt32 :=
  if 0 < d.totalTime then d.remainingTime * 100 / d.totalTime else 0

/-! ## The functions -/

/-- The time of a phase, all of which remains. -/
def TomatoData.phase (d : TomatoData) (state : TomatoState) (time : UInt32) : TomatoData :=
  { d with state := state, remainingTime := time, totalTime := time }

/-- `tomato_timer_cb`. -/
def tomatoTimerCb (s : Tomato) : Tomato :=
  if s.data.state ≠ .working ∧ s.data.state ≠ .shortBreak ∧ s.data.state ≠ .longBreak then s
  else if 0 < s.data.remainingTime then
    { s with data := { s.data with remainingTime := s.data.remainingTime - 1 } }
  else if s.data.state = .working then
    let d := { s.data with
      tomatoCount := s.data.tomatoCount + 1
      todayTomatoCount := s.data.todayTomatoCount + 1 }
    if d.tomatoCount % s.config.longBreakInterval = 0 then
      { s with data := d.phase .longBreak s.config.longBreakTime }
    else { s with data := d.phase .shortBreak s.config.shortBreakTime }
  else { s with data := s.data.phase .idle s.config.workTime }

/-- The state that `tomato_start` takes a pause to be of. -/
def resumedState (config : TomatoConfig) (totalTime : UInt32) : TomatoState :=
  if totalTime = config.workTime then .working
  else if totalTime = config.shortBreakTime then .shortBreak
  else .longBreak

/-- `tomato_start`. -/
def tomatoStart (s : Tomato) : Tomato :=
  let d :=
    if s.data.state = .idle then s.data.phase .working s.config.workTime
    else if s.data.state = .paused then
      if 0 < s.data.remainingTime then
        { s.data with state := resumedState s.config s.data.totalTime }
      else s.data
    else s.data
  { s with data := d, timer := true }

/-- `tomato_pause`. -/
def tomatoPause (s : Tomato) : Tomato :=
  if s.data.state = .working ∨ s.data.state = .shortBreak ∨ s.data.state = .longBreak then
    { s with data := { s.data with state := .paused } }
  else s

/-- `tomato_reset`. -/
def tomatoReset (s : Tomato) : Tomato :=
  { s with data := s.data.phase .idle s.config.workTime }

/-- `work_time_slider_cb`, at a value in minutes. -/
def workTimeSliderCb (s : Tomato) (value : Int32) : Tomato :=
  let s := { s with config := { s.config with workTime := (value * 60).toUInt32 } }
  if s.data.state = .idle then { s with data := s.data.phase .idle s.config.workTime } else s

/-- `short_break_slider_cb`. -/
def shortBreakSliderCb (s : Tomato) (value : Int32) : Tomato :=
  { s with config := { s.config with shortBreakTime := (value * 60).toUInt32 } }

/-- `long_break_slider_cb`. -/
def longBreakSliderCb (s : Tomato) (value : Int32) : Tomato :=
  { s with config := { s.config with longBreakTime := (value * 60).toUInt32 } }

/-! ## What happens -/

/-- A value of a slider, in its range. -/
abbrev SliderValue (low high : Int32) : Type := { value : Int32 // low ≤ value ∧ value ≤ high }

/-- A move of one of the sliders. -/
inductive SliderMove where
  | workTime (value : SliderValue 1 60)
  | shortBreak (value : SliderValue 1 30)
  | longBreak (value : SliderValue 10 60)

/-- What the timer's variables change with. -/
inductive TomatoEvent where
  | start
  | pause
  | reset
  | tick
  | slider (move : SliderMove)

def Tomato.move (s : Tomato) : SliderMove → Tomato
  | .workTime value => workTimeSliderCb s value.1
  | .shortBreak value => shortBreakSliderCb s value.1
  | .longBreak value => longBreakSliderCb s value.1

def Tomato.step (s : Tomato) : TomatoEvent → Tomato
  | .start => tomatoStart s
  | .pause => tomatoPause s
  | .reset => tomatoReset s
  | .tick => tomatoTimerCb s
  | .slider move => s.move move

/-- The timer after a run of events. -/
def Tomato.run (events : List TomatoEvent) : Tomato := events.foldl Tomato.step .initial

/-! ## What the functions do -/

/-- The timer runs. -/
def TomatoState.Active (state : TomatoState) : Prop :=
  state = .working ∨ state = .shortBreak ∨ state = .longBreak

/-- A work period over: it is counted, and a break chosen. -/
def Tomato.workDone (s : Tomato) : Tomato :=
  let d := { s.data with
    tomatoCount := s.data.tomatoCount + 1
    todayTomatoCount := s.data.todayTomatoCount + 1 }
  if d.tomatoCount % s.config.longBreakInterval = 0 then
    { s with data := d.phase .longBreak s.config.longBreakTime }
  else { s with data := d.phase .shortBreak s.config.shortBreakTime }

section Functions

variable {s : Tomato} {c : TomatoConfig}

/-- **What a second does**: nothing while the timer does not run; time
passes; a work period is over, or a break. -/
theorem tomatoTimerCb_cases :
    (¬ s.data.state.Active ∧ tomatoTimerCb s = s) ∨
    (s.data.state.Active ∧ 0 < s.data.remainingTime ∧ tomatoTimerCb s =
      { s with data := { s.data with remainingTime := s.data.remainingTime - 1 } }) ∨
    (s.data.state = .working ∧ s.data.remainingTime = 0 ∧ tomatoTimerCb s = s.workDone) ∨
    ((s.data.state = .shortBreak ∨ s.data.state = .longBreak) ∧ s.data.remainingTime = 0 ∧
      tomatoTimerCb s = { s with data := s.data.phase .idle s.config.workTime }) := by
  have hzero : ¬ 0 < s.data.remainingTime → s.data.remainingTime = 0 := by
    intro hno
    rw [UInt32.lt_iff_toNat_lt, UInt32.toNat_zero, Nat.not_lt, Nat.le_zero] at hno
    exact UInt32.toNat_inj.1 hno
  by_cases hactive : s.data.state.Active
  swap
  · refine Or.inl ⟨hactive, ?_⟩
    rw [TomatoState.Active, not_or, not_or] at hactive
    rw [tomatoTimerCb, if_pos hactive]
  refine Or.inr ?_
  have hrun : ¬ (s.data.state ≠ .working ∧ s.data.state ≠ .shortBreak ∧
      s.data.state ≠ .longBreak) := by
    rintro ⟨hwork, hshort, hlong⟩
    rcases hactive with h | h | h
    · exact hwork h
    · exact hshort h
    · exact hlong h
  rw [tomatoTimerCb, if_neg hrun]
  by_cases hpos : 0 < s.data.remainingTime
  · exact Or.inl ⟨hactive, hpos, if_pos hpos⟩
  rw [if_neg hpos]
  refine Or.inr ?_
  rcases hactive with h | h
  · exact Or.inl ⟨h, hzero hpos, if_pos h⟩
  · refine Or.inr ⟨h, hzero hpos, if_neg ?_⟩
    rcases h with h | h <;> simp [h]

end Functions

end Lvgl

end ObcSdk
