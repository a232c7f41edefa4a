import Mathlib.Logic.Function.Iterate
import Mathlib.Tactic.Common
import ObcSdk.Lvgl.TomatoTimer
/-!
# Pausing and resuming

A pause forgets the phase it is of. What `tomato_start` resumes is told
from the phase's whole time, by the settings of that moment, and nothing
is resumed in the second in which no time remains. The phase is the one
paused exactly where its time is that of the settings, and of no phase
asked for before it.
-/

namespace ObcSdk

namespace Lvgl

/-- What may happen while the timer is paused: a second passes, or a
slider is moved. -/
def whilePaused : Option SliderMove → TomatoEvent
  | none => .tick
  | some move => .slider move

/-- The timer paused and resumed. -/
def resumed (s : Tomato) (es : List (Option SliderMove)) : Tomato :=
  ((es.map whilePaused).foldl Tomato.step (s.step .pause)).step .start

/-- The settings with a slider moved. -/
def TomatoConfig.moved (c : TomatoConfig) : SliderMove → TomatoConfig
  | .workTime value => { c with workTime := (value.1 * 60).toUInt32 }
  | .shortBreak value => { c with shortBreakTime := (value.1 * 60).toUInt32 }
  | .longBreak value => { c with longBreakTime := (value.1 * 60).toUInt32 }

/-- The settings after a pause. -/
def settingsAfter (c : TomatoConfig) (es : List (Option SliderMove)) : TomatoConfig :=
  es.foldl (fun c e => e.elim c c.moved) c

/-- **Pausing is transparent**: the timer goes on as it was, and the phase
is counted, when its time is over, where it is a work period. -/
structure Transparent (s : Tomato) (es : List (Option SliderMove)) : Prop where
  state : (resumed s es).data.state = s.data.state
  remaining : (resumed s es).data.remainingTime = s.data.remainingTime
  total : (resumed s es).data.totalTime = s.data.totalTime
  counted : (tomatoTimerCb^[s.data.remainingTime.toNat + 1] (resumed s es)).data.tomatoCount =
    if s.data.state = .working then s.data.tomatoCount + 1 else s.data.tomatoCount

/-- **A phase can be told** by the settings: some of its time remains, and
the whole is the time of its kind, and not that of a kind asked for
before. -/
def Told (c : TomatoConfig) (d : TomatoData) : Prop :=
  0 < d.remainingTime ∧
    (d.state = .working → d.totalTime = c.workTime) ∧
    (d.state = .shortBreak → d.totalTime ≠ c.workTime ∧ d.totalTime = c.shortBreakTime) ∧
    (d.state = .longBreak → d.totalTime ≠ c.workTime ∧ d.totalTime ≠ c.shortBreakTime)

instance (c : TomatoConfig) (d : TomatoData) : Decidable (Told c d) :=
  inferInstanceAs (Decidable (_ ∧ _ ∧ _ ∧ _))

section Pause

variable {s : Tomato} {c : TomatoConfig} {es : List (Option SliderMove)}

theorem move_of_ne_idle (h : s.data.state ≠ .idle) (move : SliderMove) :
    s.move move = { s with config := s.config.moved move } := by
  cases move with
  | workTime value => simp only [Tomato.move, workTimeSliderCb, if_neg h, TomatoConfig.moved]
  | shortBreak value => rfl
  | longBreak value => rfl

/-- **A paused timer** stays as it is but for the settings. -/
theorem foldl_whilePaused (h : s.data.state = .paused) :
    (es.map whilePaused).foldl Tomato.step s =
      { s with config := settingsAfter s.config es } := by
  induction es generalizing s with
  | nil => rfl
  | cons e es ih =>
    cases e with
    | none =>
      have htick : s.step .tick = s := by
        rw [Tomato.step, tomatoTimerCb, if_pos (by simp [h])]
      rw [List.map_cons, List.foldl_cons, whilePaused, htick, ih h]
      rfl
    | some move =>
      have hmove : s.step (.slider move) = { s with config := s.config.moved move } :=
        move_of_ne_idle (by rw [h]; decide) move
      rw [List.map_cons, List.foldl_cons, whilePaused, hmove]
      exact ih (s := { s with config := s.config.moved move }) h

/-- **What is resumed**: the times are those of the pause, and the state
is told where time remains. -/
theorem resumed_eq (h : s.data.state.Active) : resumed s es =
    { config := settingsAfter s.config es
      data := { s.data with
        state := if 0 < s.data.remainingTime then
          resumedState (settingsAfter s.config es) s.data.totalTime else .paused }
      timer := true } := by
  have hpause : s.step .pause = { s with data := { s.data with state := .paused } } := by
    rw [Tomato.step, tomatoPause]
    exact if_pos h
  rw [resumed, hpause, foldl_whilePaused rfl, Tomato.step, tomatoStart]
  simp only [reduceCtorEq, if_false, if_true]
  split <;> rfl

/-! ## The next completion -/

theorem tomatoTimerCb_of_pos (h : s.data.state.Active) (hpos : 0 < s.data.remainingTime) :
    tomatoTimerCb s =
      { s with data := { s.data with remainingTime := s.data.remainingTime - 1 } } := by
  have hno : s.data.remainingTime ≠ 0 := by
    intro hzero
    rw [hzero] at hpos
    cases hpos
  rcases tomatoTimerCb_cases (s := s) with ⟨hidle, -⟩ | ⟨-, -, heq⟩ | ⟨-, hzero, -⟩ | ⟨-, hzero, -⟩
  · exact absurd h hidle
  · exact heq
  · exact absurd hzero hno
  · exact absurd hzero hno

/-- A work period over is counted. -/
@[simp] theorem workDone_tomatoCount :
    s.workDone.data.tomatoCount = s.data.tomatoCount + 1 := by
  rw [Tomato.workDone]
  simp only
  split <;> rfl

/-- A phase over is counted where it is a work period. -/
theorem tomatoCount_of_zero (h : s.data.state.Active) (hzero : s.data.remainingTime = 0) :
    (tomatoTimerCb s).data.tomatoCount =
      if s.data.state = .working then s.data.tomatoCount + 1 else s.data.tomatoCount := by
  rcases tomatoTimerCb_cases (s := s) with
    ⟨hidle, -⟩ | ⟨-, hpos, -⟩ | ⟨hwork, -, heq⟩ | ⟨hbreak, -, heq⟩
  · exact absurd h hidle
  · rw [hzero] at hpos
    cases hpos
  · rw [heq, if_pos hwork, workDone_tomatoCount]
  · rw [heq, if_neg (by rcases hbreak with h | h <;> simp [h])]
    rfl

/-- **A phase that is not paused** is counted when its time is over. -/
theorem tomatoCount_iterate (h : s.data.state.Active) :
    (tomatoTimerCb^[s.data.remainingTime.toNat + 1] s).data.tomatoCount =
      if s.data.state = .working then s.data.tomatoCount + 1 else s.data.tomatoCount := by
  induction hn : s.data.remainingTime.toNat generalizing s with
  | zero =>
    rw [Function.iterate_one]
    exact tomatoCount_of_zero h (UInt32.toNat_inj.1 hn)
  | succ n ih =>
    have hpos : 0 < s.data.remainingTime := by
      rw [UInt32.lt_iff_toNat_lt, hn]
      exact Nat.succ_pos n
    rw [Function.iterate_succ_apply, tomatoTimerCb_of_pos h hpos]
    refine ih h ?_
    simp only
    rw [UInt32.toNat_sub_of_le _ _ (UInt32.le_iff_toNat_le.2 (by rw [hn]; simp)), hn]
    rfl

/-! ## Transparency -/

/-- Where time remains, the state resumed is the one paused where the
phase is told. -/
theorem resumedState_eq_iff {d : TomatoData} (h : d.state.Active) (hpos : 0 < d.remainingTime) :
    resumedState c d.totalTime = d.state ↔ Told c d := by
  rw [resumedState, Told, and_iff_right hpos]
  by_cases hwork : d.totalTime = c.workTime
  · rw [if_pos hwork]
    rcases h with h | h | h <;> simp [h, hwork]
  · rw [if_neg hwork]
    by_cases hshort : d.totalTime = c.shortBreakTime
    · rw [if_pos hshort]
      rcases h with h | h | h <;> simp [h, hshort, hshort ▸ hwork]
    · rw [if_neg hshort]
      rcases h with h | h | h <;> simp [h, hwork, hshort]

/-- **Pausing is transparent** exactly where the phase can be told by the
settings of the moment of resuming. -/
theorem transparent_iff (h : s.data.state.Active) :
    Transparent s es ↔ Told (settingsAfter s.config es) s.data := by
  have hstate : (resumed s es).data.state = s.data.state ↔
      Told (settingsAfter s.config es) s.data := by
    rw [resumed_eq h]
    by_cases hpos : 0 < s.data.remainingTime
    · simp only [if_pos hpos]
      exact resumedState_eq_iff h hpos
    · simp only [if_neg hpos]
      refine iff_of_false ?_ fun htold => hpos htold.1
      intro hpaused
      rw [← hpaused] at h
      rcases h with h | h | h <;> cases h
  constructor
  · intro ht
    exact hstate.1 ht.state
  · intro htold
    have hsame : (resumed s es).data = s.data := by
      have hst := hstate.2 htold
      rw [resumed_eq h] at hst ⊢
      simp only at hst ⊢
      rw [hst]
    refine ⟨by rw [hsame], by rw [hsame], by rw [hsame], ?_⟩
    have hcount := tomatoCount_iterate (s := resumed s es) (by rw [hsame]; exact h)
    rwa [hsame] at hcount

end Pause

/-- A work period paused and resumed as it was. -/
theorem transparent_work :
    Transparent (Tomato.run [.start, .tick]) [none, some (.longBreak ⟨20, by decide⟩)] :=
  (transparent_iff (Or.inl rfl)).2 (by decide +kernel)

/-- With the work slider moved in between it goes on as a long break, and
without a second left it does not go on. -/
theorem not_transparent_moved :
    (¬ ∀ events es, (Tomato.run events).data.state.Active → Transparent (Tomato.run events) es) ∧
    (resumed (Tomato.run [.start]) [some (.workTime ⟨30, by decide⟩)]).data.state = .longBreak ∧
    (resumed (Tomato.run (.slider (.workTime ⟨1, by decide⟩) :: .start ::
      List.replicate 60 .tick)) []).data.state = .paused := by
  have hlong : (resumed (Tomato.run [.start]) [some (.workTime ⟨30, by decide⟩)]).data.state =
      .longBreak := by
    decide +kernel
  refine ⟨fun hall => ?_, hlong, by decide +kernel⟩
  have hsame := (hall [.start] [some (.workTime ⟨30, by decide⟩)] (Or.inl rfl)).state
  rw [hlong] at hsame
  cases hsame

end Lvgl

end ObcSdk
