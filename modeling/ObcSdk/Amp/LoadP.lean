import Mathlib.Algebra.Group.Nat.Defs
import Mathlib.Data.Fin.Basic
import Mathlib.Logic.Function.Basic
import Mathlib.Tactic.Common
/-!
# Load accounting on the A53 core

`LoadP_freertos.c`: the run time of the idle task, of all tasks together
and of each of them, summed up in 64 bits from counters of 32, and the
percentages taken from the sums. A division by zero gives no result.
-/

namespace ObcSdk

namespace Amp

/-- `OSAL_FREERTOS_CONFIGNUM_TASK`. -/
def osalFreertosConfignumTask : ℕ := 128

/-- An index of the pool of tasks, which is what a task's `taskId` is. -/
abbrev TaskId : Type := Fin osalFreertosConfignumTask

/-- `TaskP_Handle`, zero for `NULL`. -/
abbrev TaskHandle : Type := ℕ

/-- `LoadP_taskLoadObj`. -/
structure TaskLoadObj where
  used : Bool
  handle : TaskHandle
  threadTime : UInt64
  lastUpdateThreadTime : UInt32

/-- `gLoadP_freertos`, and `gLoadP_initDone`. -/
structure LoadP where
  taskLoadObj : TaskId → TaskLoadObj
  idlTskTime : UInt64
  totalTime : UInt64
  lastUpdateIdlTskTime : UInt32
  lastUpdateTotalTime : UInt32
  initDone : Bool

/-- What the three run-time counters read. -/
structure Counters where
  idle : UInt32
  total : UInt32
  thread : TaskHandle → UInt32

/-- `LoadP_calcCounterDiff`. -/
def calcCounterDiff (cur last : UInt32) : UInt32 :=
  if last ≤ cur then cur - last else (0xFFFFFFFF - last) + cur

/-- `LoadP_calcPercentLoad`. -/
def calcPercentLoad (threadTime totalTime : UInt64) : Option UInt32 :=
  if totalTime / 100 = 0 then none
  else
    let percentLoad := (threadTime / (totalTime / 100)).toUInt32
    some (if 100 < percentLoad then 100 else percentLoad)

namespace LoadP

/-- The variables zeroed; `gLoadP_initDone` is not one of them. -/
def zeroed (s : LoadP) : LoadP where
  taskLoadObj := fun _ => ⟨false, 0, 0, 0⟩
  idlTskTime := 0
  totalTime := 0
  lastUpdateIdlTskTime := 0
  lastUpdateTotalTime := 0
  initDone := s.initDone

/-- The variables at the start. -/
def initial : LoadP where
  taskLoadObj := fun _ => ⟨false, 0, 0, 0⟩
  idlTskTime := 0
  totalTime := 0
  lastUpdateIdlTskTime := 0
  lastUpdateTotalTime := 0
  initDone := false

/-- `LoadP_addTask`. -/
def addTask (handle : TaskHandle) (taskId : TaskId) (s : LoadP) : LoadP :=
  let s := if s.initDone then s else { s.zeroed with initDone := true }
  { s with taskLoadObj := Function.update s.taskLoadObj taskId ⟨true, handle, 0, 0⟩ }

/-- `LoadP_removeTask`. -/
def removeTask (taskId : TaskId) (s : LoadP) : LoadP :=
  { s with
    taskLoadObj := Function.update s.taskLoadObj taskId
      { s.taskLoadObj taskId with used := false } }

/-- `LoadP_reset`. -/
def reset (s : LoadP) : LoadP :=
  { s with
    idlTskTime := 0
    totalTime := 0
    taskLoadObj := fun i =>
      if (s.taskLoadObj i).used then { s.taskLoadObj i with threadTime := 0 }
      else s.taskLoadObj i }

/-- A task's part of `LoadP_update`. -/
def updateTask (c : Counters) (taskObj : TaskLoadObj) : TaskLoadObj :=
  if taskObj.used ∧ taskObj.handle ≠ 0 then
    { taskObj with
      lastUpdateThreadTime := c.thread taskObj.handle
      threadTime := taskObj.threadTime +
        (calcCounterDiff (c.thread taskObj.handle) taskObj.lastUpdateThreadTime).toUInt64 }
  else taskObj

/-- `LoadP_update`. Without a task added yet it zeroes the variables, each
time. -/
def update (c : Counters) (s : LoadP) : LoadP :=
  let s := if s.initDone then s else { s.zeroed with initDone := false }
  { s with
    lastUpdateIdlTskTime := c.idle
    idlTskTime := s.idlTskTime + (calcCounterDiff c.idle s.lastUpdateIdlTskTime).toUInt64
    lastUpdateTotalTime := c.total
    totalTime := s.totalTime + (calcCounterDiff c.total s.lastUpdateTotalTime).toUInt64
    taskLoadObj := fun i => updateTask c (s.taskLoadObj i) }

/-- `LoadP_Stats`, without the task's name. -/
structure Stats where
  threadTime : UInt64
  totalTime : UInt64
  percentLoad : UInt32

/-- `LoadP_getTaskLoad`: the statistics of a task, or `none` for
`LoadP_FAILURE`. `taskId` is what `TaskP_getTaskId` gives for the handle;
`stats` is whether the caller has a place for the statistics. -/
def getTaskLoad (handle : TaskHandle) (taskId : TaskId) (stats : Bool) (c : Counters) (s : LoadP) :
    LoadP × Option (Option Stats) :=
  if stats ∧ handle ≠ 0 then
    let s := s.update c
    let taskObj := s.taskLoadObj taskId
    if taskObj.used ∧ taskObj.handle = handle then
      (s, (calcPercentLoad taskObj.threadTime s.totalTime).map fun percentLoad =>
        some ⟨taskObj.threadTime, s.totalTime, percentLoad⟩)
    else (s, some none)
  else (s, some none)

/-- `LoadP_getCPULoad`. -/
def getCPULoad (c : Counters) (s : LoadP) : LoadP × Option UInt32 :=
  let s := s.update c
  (s, (calcPercentLoad s.idlTskTime s.totalTime).map fun percentLoad => 100 - percentLoad)

end LoadP

/-! ## What the functions do -/

section Functions

variable {s : LoadP} {c : Counters} {cur last : UInt32} {t n : ℕ}

theorem LoadP.update_of_initDone (h : s.initDone = true) : s.update c =
    { s with
      lastUpdateIdlTskTime := c.idle
      idlTskTime := s.idlTskTime + (calcCounterDiff c.idle s.lastUpdateIdlTskTime).toUInt64
      lastUpdateTotalTime := c.total
      totalTime := s.totalTime + (calcCounterDiff c.total s.lastUpdateTotalTime).toUInt64
      taskLoadObj := fun i => updateTask c (s.taskLoadObj i) } := by
  rw [LoadP.update, if_pos h]

/-- **The difference of two readings**, the first of a counter not yet
wrapped: it is right until the counter wraps, and then one too small. -/
theorem toNat_calcCounterDiff (hlast : last = UInt32.ofNat t) (hcur : cur = UInt32.ofNat n)
    (ht : t < 2 ^ 32) (hle : t ≤ n) (hlt : n < t + 2 ^ 32) :
    (calcCounterDiff cur last).toNat = if n < 2 ^ 32 then n - t else n - t - 1 := by
  have hl : last.toNat = t := by rw [hlast, UInt32.toNat_ofNat', Nat.mod_eq_of_lt ht]
  have hc : cur.toNat = n % 2 ^ 32 := by rw [hcur, UInt32.toNat_ofNat']
  rw [calcCounterDiff]
  by_cases hsmall : n < 2 ^ 32
  · have hge : last ≤ cur := UInt32.le_iff_toNat_le.2 (by omega)
    rw [if_pos hge, if_pos hsmall, UInt32.toNat_sub_of_le _ _ hge]
    omega
  · have hno : ¬ last ≤ cur := fun h => by
      have := UInt32.le_iff_toNat_le.1 h
      omega
    have hmax : (0xFFFFFFFF - last).toNat = 0xFFFFFFFF - t := by
      rw [UInt32.toNat_sub_of_le _ _ (UInt32.le_iff_toNat_le.2 (by
        have : (0xFFFFFFFF : UInt32).toNat = 0xFFFFFFFF := rfl
        omega)), hl]
      rfl
    rw [if_neg hno, if_neg hsmall, UInt32.toNat_add, hmax, hc]
    omega

end Functions

end Amp

end ObcSdk
