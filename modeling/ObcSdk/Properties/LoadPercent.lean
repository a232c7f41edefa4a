import Mathlib.Tactic.Linarith
import ObcSdk.Amp.LoadP
import ObcSdk.Lib.Runs
/-!
# When load percentages are defined

The percentage is a quotient by a hundredth of the total, rounded down.
There is none while the total is below a hundred, as it is behind a
reset; with a small total the hundredth is far from it, and a quotient of
more than 32 bits is cut off before it is capped.
-/

namespace ObcSdk

namespace Amp

/-- The calls of `LoadP`, with what the counters read. -/
inductive LoadCall where
  | addTask (handle : TaskHandle) (taskId : TaskId)
  | removeTask (taskId : TaskId)
  | reset
  | update (c : Counters)
  | getTaskLoad (handle : TaskHandle) (taskId : TaskId) (stats : Bool) (c : Counters)
  | getCPULoad (c : Counters)

/-- The state after a call. -/
def LoadP.call (s : LoadP) : LoadCall → LoadP
  | .addTask handle taskId => s.addTask handle taskId
  | .removeTask taskId => s.removeTask taskId
  | .reset => s.reset
  | .update c => s.update c
  | .getTaskLoad handle taskId stats c => (s.getTaskLoad handle taskId stats c).1
  | .getCPULoad c => (s.getCPULoad c).1

def LoadP.runCalls (calls : List LoadCall) : LoadP := calls.foldl LoadP.call .initial

/-- The share of a time in the total, in percent, capped. -/
def share (time total : UInt64) : ℕ := min 100 (100 * time.toNat / total.toNat)

/-- **A percentage is right**: there is one, it is between 0 and 100, and
it differs from what it should be by one at most, where there is a
total. -/
def PercentRight (total : UInt64) (should : ℕ) (result : Option UInt32) : Prop :=
  ∃ percent, result = some percent ∧ percent.toNat ≤ 100 ∧
    (0 < total → percent.toNat ≤ should + 1 ∧ should ≤ percent.toNat + 1)

/-- A call gives a right percentage, if it gives one. -/
def CallRight (s : LoadP) : LoadCall → Prop
  | .getTaskLoad handle taskId stats c =>
    (s.getTaskLoad handle taskId stats c).2 = some none ∨
      ∃ st, (s.getTaskLoad handle taskId stats c).2 = some (some st) ∧
        PercentRight st.totalTime (share st.threadTime st.totalTime) (some st.percentLoad)
  | .getCPULoad c =>
    PercentRight (s.getCPULoad c).1.totalTime
      (100 - share (s.getCPULoad c).1.idlTskTime (s.getCPULoad c).1.totalTime) (s.getCPULoad c).2
  | _ => True

/-- **A time has a share** that its quotient by the rounded hundredth is
close to: there is a hundredth; the quotient fits 32 bits, or what is
left of it is large; and no percentage is reached two too early. -/
structure Shares (time total : UInt64) : Prop where
  hundredth : 100 ≤ total.toNat
  fits : time.toNat / (total.toNat / 100) < 2 ^ 32 ∨
    99 ≤ time.toNat / (total.toNat / 100) % 2 ^ 32
  close : ∀ k, k ≤ 100 → k * (total.toNat / 100) ≤ time.toNat →
    (k - 1) * total.toNat ≤ 100 * time.toNat

/-- The sums a call divides have a share. -/
def CallShares (s : LoadP) : LoadCall → Prop
  | .getTaskLoad handle taskId stats c =>
    stats = true → handle ≠ 0 → ((s.update c).taskLoadObj taskId).used = true →
      ((s.update c).taskLoadObj taskId).handle = handle →
      Shares ((s.update c).taskLoadObj taskId).threadTime (s.update c).totalTime
  | .getCPULoad c => Shares (s.update c).idlTskTime (s.update c).totalTime
  | _ => True

section Percent

variable {time total : UInt64} {s : LoadP} {e : LoadCall} {calls : List LoadCall} {t T q : ℕ}

/-- The quotient by the rounded hundredth is no smaller than the share. -/
theorem div_le_div_hundredth (hq : 0 < T / 100) : 100 * t / T ≤ t / (T / 100) := by
  rw [Nat.le_div_iff_mul_le hq]
  have hle : 100 * t / T * T ≤ 100 * t := Nat.div_mul_le_self _ _
  have hT : T / 100 * 100 ≤ T := Nat.div_mul_le_self _ _
  nlinarith

/-- A quotient of more than 32 bits is of more than the total. -/
theorem hundred_le_of_two_pow_le (hq : 0 < T / 100) (h : 2 ^ 32 ≤ t / (T / 100)) :
    100 * T ≤ 100 * t := by
  rw [Nat.le_div_iff_mul_le hq] at h
  omega

/-- No percentage is reached two too early exactly where the capped quotient
is one too large at most. -/
theorem close_iff (hq : 0 < T / 100) :
    (∀ k, k ≤ 100 → k * (T / 100) ≤ t → (k - 1) * T ≤ 100 * t) ↔
      min 100 (t / (T / 100)) ≤ min 100 (100 * t / T) + 1 := by
  have hT : 0 < T := by omega
  constructor
  · intro h
    have hk : min 100 (t / (T / 100)) * (T / 100) ≤ t :=
      (Nat.le_div_iff_mul_le hq).1 (min_le_right _ _)
    have hlast := (Nat.le_div_iff_mul_le hT).2 (h _ (min_le_left _ _) hk)
    omega
  · intro h k hk hle
    have hkq := (Nat.le_div_iff_mul_le hq).2 hle
    rw [← Nat.le_div_iff_mul_le hT]
    generalize t / (T / 100) = quotient at h hkq
    generalize 100 * t / T = should at h ⊢
    omega

/-- With a total of 9900 no percentage is reached two too early. -/
theorem close_of_le (h : 9900 ≤ T) (k : ℕ) (hk : k ≤ 100) (hle : k * (T / 100) ≤ t) :
    (k - 1) * T ≤ 100 * t := by
  have hT : T ≤ 100 * (T / 100) + 99 := by omega
  have hmul : k * T ≤ k * (100 * (T / 100) + 99) := Nat.mul_le_mul_left k hT
  rw [Nat.sub_mul, Nat.one_mul, Nat.sub_le_iff_le_add]
  nlinarith

variable (time) in
theorem toNat_calcPercentLoad (h : 100 ≤ total.toNat) : ∃ percent,
    calcPercentLoad time total = some percent ∧
      percent.toNat = min 100 (time.toNat / (total.toNat / 100) % 2 ^ 32) := by
  have hdiv : (total / 100).toNat = total.toNat / 100 := UInt64.toNat_div _ _
  have hne : total / 100 ≠ 0 := by
    intro hzero
    rw [hzero] at hdiv
    have : (0 : UInt64).toNat = 0 := rfl
    omega
  have hcut : ((time / (total / 100)).toUInt32).toNat =
      time.toNat / (total.toNat / 100) % 2 ^ 32 := by
    rw [UInt64.toNat_toUInt32, UInt64.toNat_div, hdiv]
  rw [calcPercentLoad, if_neg hne]
  refine ⟨_, rfl, ?_⟩
  have hhundred : (100 : UInt32).toNat = 100 := rfl
  split
  · rename_i hlt
    have := UInt32.lt_iff_toNat_lt.1 hlt
    omega
  · rename_i hno
    have := mt UInt32.lt_iff_toNat_lt.2 hno
    omega

/-- Below a hundred there is no percentage. -/
theorem calcPercentLoad_eq_none (h : total.toNat < 100) : calcPercentLoad time total = none := by
  refine if_pos (UInt64.toNat_inj.1 ?_)
  have hdiv : (total / 100).toNat = total.toNat / 100 := UInt64.toNat_div _ _
  rw [hdiv, UInt64.toNat_zero]
  omega

/-- **The percentage** is close to the share exactly where the sums have
one. -/
theorem percentRight_iff :
    PercentRight total (share time total) (calcPercentLoad time total) ↔ Shares time total := by
  rcases Nat.lt_or_ge total.toNat 100 with hsmall | hge
  · refine iff_of_false ?_ fun h => by
      have := h.hundredth
      omega
    rintro ⟨percent, heq, -⟩
    rw [calcPercentLoad_eq_none hsmall] at heq
    cases heq
  obtain ⟨percent, heq, hpercent⟩ := toNat_calcPercentLoad time hge
  have hpos : 0 < total := UInt64.lt_iff_toNat_lt.2 (by
    have : (0 : UInt64).toNat = 0 := rfl
    omega)
  have hq : 0 < total.toNat / 100 := by omega
  have hle := div_le_div_hundredth (t := time.toNat) hq
  have hright : PercentRight total (share time total) (calcPercentLoad time total) ↔
      percent.toNat ≤ share time total + 1 ∧ share time total ≤ percent.toNat + 1 := by
    rw [heq, PercentRight]
    simp only [Option.some.injEq, exists_eq_left', hpos, true_imp_iff]
    exact and_iff_right (by omega)
  have hshares : Shares time total ↔
      (time.toNat / (total.toNat / 100) < 2 ^ 32 ∨
        99 ≤ time.toNat / (total.toNat / 100) % 2 ^ 32) ∧
      min 100 (time.toNat / (total.toNat / 100)) ≤ share time total + 1 := by
    rw [share, ← close_iff hq]
    exact ⟨fun h => ⟨h.fits, h.close⟩, fun h => ⟨hge, h.1, h.2⟩⟩
  rw [hright, hshares, hpercent]
  rcases Nat.lt_or_ge (time.toNat / (total.toNat / 100)) (2 ^ 32) with hfit | hcut
  · rw [Nat.mod_eq_of_lt hfit, and_iff_right (Or.inl hfit), and_iff_left]
    rw [share]
    omega
  · have hfull : share time total = 100 := by
      rw [share, Nat.min_eq_left]
      rw [Nat.le_div_iff_mul_le (by omega)]
      exact hundred_le_of_two_pow_le hq hcut
    rw [hfull]
    omega

/-- **A time that is part of a total** of 9900 at least has a share. -/
theorem shares_of_le (htotal : 9900 ≤ total.toNat) (htime : time.toNat ≤ total.toNat) :
    Shares time total := by
  refine ⟨by omega, Or.inl ?_, close_of_le htotal⟩
  have hquot : time.toNat / (total.toNat / 100) < 103 := by
    rw [Nat.div_lt_iff_lt_mul (by omega)]
    omega
  omega

/-- **The CPU load** is close to what is left of the share where that is. -/
theorem percentRight_sub_iff :
    PercentRight total (100 - share time total)
      ((calcPercentLoad time total).map fun percentLoad => 100 - percentLoad) ↔
      Shares time total := by
  rw [← percentRight_iff]
  rcases Nat.lt_or_ge total.toNat 100 with hsmall | hge
  · rw [calcPercentLoad_eq_none hsmall]
    simp [PercentRight]
  obtain ⟨percent, heq, hpercent⟩ := toNat_calcPercentLoad time hge
  have hsub : (100 - percent).toNat = 100 - percent.toNat := by
    rw [UInt32.toNat_sub_of_le _ _ (UInt32.le_iff_toNat_le.2 (by
      have : (100 : UInt32).toNat = 100 := rfl
      omega))]
    rfl
  have hshare : share time total ≤ 100 := Nat.min_le_left _ _
  rw [heq, Option.map_some, PercentRight, PercentRight]
  simp only [Option.some.injEq, exists_eq_left', hsub]
  refine and_congr (by omega) (imp_congr_right fun _ => by omega)

/-! ## Over runs -/

/-- **A call** gives a right percentage exactly where the sums it divides
have a share. -/
theorem callRight_iff : CallRight s e ↔ CallShares s e := by
  cases e with
  | addTask handle taskId => exact Iff.rfl
  | removeTask taskId => exact Iff.rfl
  | reset => exact Iff.rfl
  | update c => exact Iff.rfl
  | getCPULoad c => exact percentRight_sub_iff
  | getTaskLoad handle taskId stats c =>
    rw [CallRight, CallShares, LoadP.getTaskLoad]
    by_cases hargs : stats = true ∧ handle ≠ 0
    · rw [if_pos hargs]
      simp only
      by_cases huse : ((s.update c).taskLoadObj taskId).used = true ∧
          ((s.update c).taskLoadObj taskId).handle = handle
      · rw [if_pos huse, ← percentRight_iff]
        rw [imp_iff_right hargs.1, imp_iff_right hargs.2, imp_iff_right huse.1,
          imp_iff_right huse.2]
        cases hpercent : calcPercentLoad ((s.update c).taskLoadObj taskId).threadTime
          (s.update c).totalTime with
        | none => simp [PercentRight]
        | some percent => simp
      · rw [if_neg huse]
        exact iff_of_true (Or.inl rfl) fun _ _ h1 h2 => absurd ⟨h1, h2⟩ huse
    · rw [if_neg hargs]
      exact iff_of_true (Or.inl rfl) fun h1 h2 => absurd ⟨h1, h2⟩ hargs

variable (calls) in
/-- **Every percentage is right**, in runs of any length, exactly where the
sums divided have a share each time. -/
theorem percentagesRight_iff :
    (∀ p e, p ++ [e] <+: calls → CallRight (.runCalls p) e) ↔
      ∀ p e, p ++ [e] <+: calls → CallShares (.runCalls p) e :=
  forall₃_congr fun _ _ _ => callRight_iff

end Percent

/-- A task that has run 20 of 40 milliseconds, and a reset just before the
next reading. -/
def resetCalls : List LoadCall :=
  [.addTask 1 ⟨0, by decide⟩, .update ⟨20000, 40000, fun _ => 20000⟩, .reset]

/-- Behind a reset there is nothing to divide by, and with a total of 199
the load is far off. -/
theorem not_callRight_reset :
    ¬ CallRight (.runCalls resetCalls) (.getCPULoad ⟨20040, 40050, fun _ => 20000⟩) ∧
    ¬ CallRight (.runCalls []) (.getCPULoad ⟨99, 199, fun _ => 0⟩) ∧
    (LoadP.initial.getCPULoad ⟨99, 199, fun _ => 0⟩).2 = some 1 := by
  refine ⟨fun h => ?_, fun h => ?_, by decide +kernel⟩
  · have hsum : ((LoadP.runCalls resetCalls).update
        ⟨20040, 40050, fun _ => 20000⟩).totalTime.toNat = 50 := by
      decide +kernel
    have hshares : Shares _ _ := callRight_iff.1 h
    have := hshares.hundredth
    omega
  · have hshares : Shares _ _ := callRight_iff.1 h
    exact absurd (hshares.close 99 (by decide) (by decide +kernel)) (by decide +kernel)

end Amp

end ObcSdk
