import Mathlib.Data.BitVec
import Mathlib.Data.Fintype.Basic
import Mathlib.Tactic.Common
/-!
# Timers on the A53 core

`TimerP_freertos.c`: the pool of timer structs, the mask of the hardware
timers still to be had, and what is programmed into a timer's counter.
The other registers, the interrupt's number and the argument of the tick
function are left out; whether the interrupt could be registered is told
from outside.
-/

namespace ObcSdk

namespace Amp

/-! ## The data -/

/-- The timers of a chip: `osal_soc.h` and `gDmTimerPInfoTbl`. Each of them
may be had at first, and is somewhere. -/
structure Soc where
  numTimerDevices : ℕ
  anyMask : BitVec 32
  availableMask : BitVec 32
  baseAddr : ℕ → UInt32
  timerFreq : UInt32
  num_le : numTimerDevices ≤ 32
  available : ∀ i, i < numTimerDevices → availableMask.getLsbD i = true
  baseAddr_ne : ∀ i, i < numTimerDevices → baseAddr i ≠ 0

/-- The AM62x. -/
def Soc.am62x : Soc where
  numTimerDevices := 1
  anyMask := 0x1
  availableMask := 0x1
  baseAddr := fun _ => 0x02410000
  timerFreq := 25000000
  num_le := by decide
  available := by decide
  baseAddr_ne := by decide

/-- The VS919L. -/
def Soc.vs919l : Soc where
  numTimerDevices := 16
  anyMask := 0xFFFF
  availableMask := 0xFFFF
  baseAddr := fun i => 0x0C008000 + 0x1000 * UInt32.ofNat (i / 2) + 0x20 * UInt32.ofNat (i % 2)
  timerFreq := 3000000
  num_le := by decide
  available := by decide
  baseAddr_ne := by decide

/-- `TimerP_Status`. -/
inductive TimerStatus where
  | ok
  | failure
  | notAvailable
  | isrHookErr
deriving DecidableEq

/-- `TimerP_ANY`. -/
def timerAny : UInt32 := 0xFFFFFFFF
/-- `TimerP_MAX_PERIOD`. -/
def timerMaxPeriod : UInt32 := 0xFFFFFFFF
/-- `TimerP_USE_DEFAULT`. -/
def timerUseDefault : Int32 := -1
/-- `TimerP_PeriodType_MICROSECS`. -/
def periodTypeMicrosecs : UInt32 := 0
/-- `TimerP_PeriodType_COUNTS`. -/
def periodTypeCounts : UInt32 := 1
/-- `TimerP_RunMode_CONTINUOUS`. -/
def runModeContinuous : UInt32 := 0
/-- `TimerP_RunMode_ONESHOT`. -/
def runModeOneshot : UInt32 := 1
/-- `TimerP_StartMode_AUTO`. -/
def startModeAuto : UInt32 := 0

/-- `TimerP_Params`. -/
structure TimerParams where
  periodType : UInt32
  frequency : Int32
  startMode : UInt32
  runMode : UInt32
  period : UInt32

/-- `TimerP_Params_init`. -/
def TimerParams.init : TimerParams where
  periodType := periodTypeMicrosecs
  frequency := timerUseDefault
  startMode := startModeAuto
  runMode := runModeContinuous
  period := 0

/-- `TimerP_Struct`; of the tick function and the interrupt handle it is
only told whether they are there. -/
structure TimerStruct where
  used : Bool
  timerId : UInt32
  periodType : UInt32
  frequency : UInt32
  startMode : UInt32
  runMode : UInt32
  period : UInt32
  tickFxn : Bool
  availMask : BitVec 32
  hwi : Bool

/-- A timer's counter, and what it is loaded with at an overflow. -/
structure TimerRegs where
  counter : UInt32
  reload : UInt32

/-- The registers, by base address. -/
abbrev Regs : Type := UInt32 → TimerRegs

/-- The variables of the module, and the registers. The pool has a struct
for each timer, `OSAL_NONOS_CONFIGNUM_TIMER`. -/
structure TimerP (soc : Soc) where
  timerStructs : Fin soc.numTimerDevices → TimerStruct
  timerInitDone : Bool
  timerAnyMask : BitVec 32
  timerAllocCnt : UInt32
  timerPeak : UInt32
  regs : Regs

/-- The variables at the start. -/
def TimerP.initial (soc : Soc) (regs : Regs) : TimerP soc where
  timerStructs := fun _ => ⟨false, 0, 0, 0, 0, 0, 0, false, 0, false⟩
  timerInitDone := false
  timerAnyMask := 0
  timerAllocCnt := 0
  timerPeak := 0
  regs := regs

/-! ## A timer -/

/-- `TIMERCounterSet`. -/
def timerCounterSet (baseAddr counter : UInt32) (regs : Regs) : Regs :=
  if baseAddr ≠ 0 then Function.update regs baseAddr { regs baseAddr with counter := counter }
  else regs

/-- `TIMERReloadSet`. -/
def timerReloadSet (baseAddr reload : UInt32) (regs : Regs) : Regs :=
  if baseAddr ≠ 0 then Function.update regs baseAddr { regs baseAddr with reload := reload }
  else regs

/-- `TimerP_getTimerBaseAddr`. -/
def getTimerBaseAddr (soc : Soc) (timerId : UInt32) : UInt32 :=
  if timerId.toNat < soc.numTimerDevices then soc.baseAddr timerId.toNat else 0

/-- `TimerP_dmTimerInitDevice`. -/
def dmTimerInitDevice (baseAddr : UInt32) (regs : Regs) : Regs :=
  timerReloadSet baseAddr 0 (timerCounterSet baseAddr 0 regs)

/-- `TimerP_dmTimerCheckOverflow`. -/
def dmTimerCheckOverflow (a b : UInt32) : Bool := 0 < b && timerMaxPeriod / b < a

/-- The clock in kHz, rounded. -/
def freqKHz (frequency : UInt32) : UInt32 :=
  frequency / 1000 + if 500 ≤ frequency % 1000 then 1 else 0

/-- The counter is loaded for so many counts, or with zero where the timer
runs free. -/
def loadCounter (baseAddr runMode counts : UInt32) (regs : Regs) : Regs :=
  if runMode = runModeContinuous ∨ runMode = runModeOneshot then
    timerReloadSet baseAddr (0 - counts) (timerCounterSet baseAddr (0 - counts) regs)
  else timerCounterSet baseAddr 0 regs

/-- `TimerP_dmTimerSetMicroSeconds`. -/
def dmTimerSetMicroSeconds (soc : Soc) (timer : TimerStruct) (period : UInt32) (regs : Regs) :
    Bool × TimerStruct × Regs :=
  let baseAddr := getTimerBaseAddr soc timer.timerId
  let freqKHz := freqKHz timer.frequency
  if dmTimerCheckOverflow freqKHz (period / 1000) then (false, timer, regs)
  else
    let counts := freqKHz.toUInt64 * period.toUInt64 / 1000
    if 0xFFFFFFFF < counts then (false, timer, regs)
    else
      let prdCounts := counts.toUInt32
      (true, { timer with period := prdCounts, periodType := periodTypeCounts },
        loadCounter baseAddr timer.runMode prdCounts regs)

/-- `TimerP_dmTimerDeviceCfg`. -/
def dmTimerDeviceCfg (soc : Soc) (timer : TimerStruct) (baseAddr : UInt32) (regs : Regs) :
    TimerStatus × TimerStruct × Regs :=
  let regs := dmTimerInitDevice baseAddr regs
  if timer.periodType = periodTypeMicrosecs then
    let r := dmTimerSetMicroSeconds soc timer timer.period regs
    (if r.1 then .ok else .failure, r.2)
  else (.ok, timer, loadCounter baseAddr timer.runMode timer.period regs)

/-- `TimerP_dmTimerInitObj`. -/
def dmTimerInitObj (soc : Soc) (timer : TimerStruct) (tickFxn : Bool) (params : TimerParams) :
    TimerStruct :=
  { timer with
    tickFxn := tickFxn
    frequency :=
      if params.frequency ≠ timerUseDefault then params.frequency.toUInt32 else soc.timerFreq
    period := params.period
    periodType := params.periodType
    startMode := params.startMode
    runMode := params.runMode }

/-- `TimerP_start`. -/
def timerStart (soc : Soc) (timer : TimerStruct) (regs : Regs) : TimerStatus × Regs :=
  let baseAddr := getTimerBaseAddr soc timer.timerId
  if baseAddr = 0 then (.notAvailable, regs)
  else
    let regs :=
      if timer.runMode = runModeContinuous ∨ timer.runMode = runModeOneshot then
        timerCounterSet baseAddr (0 - timer.period) regs
      else timerCounterSet baseAddr 0 regs
    (if timer.hwi then .ok else .failure, regs)

/-! ## The pool -/

/-- `1u << i`. -/
def shift (i : ℕ) : BitVec 32 := BitVec.twoPow 32 i

/-- The hardware timer that is taken, out of those left: the one asked for,
or any that may be had so. -/
def takeTimer (soc : Soc) (id : UInt32) (availMask : BitVec 32) : Option ℕ :=
  if id = timerAny then
    (List.range soc.numTimerDevices).find? fun i =>
      soc.anyMask &&& shift i ≠ 0 && availMask &&& shift i ≠ 0
  else if availMask &&& shift id.toNat ≠ 0 then some id.toNat
  else none

namespace TimerP

variable {soc : Soc}

/-- A struct of the pool stored. -/
def setStruct (g : TimerP soc) (k : Fin soc.numTimerDevices) (timer : TimerStruct) : TimerP soc :=
  { g with timerStructs := Function.update g.timerStructs k timer }

/-- `TimerP_dmTimerInstanceInit`, for the struct `k`. -/
def dmTimerInstanceInit (g : TimerP soc) (k : Fin soc.numTimerDevices) (id : UInt32)
    (tickFxn : Bool) (params : TimerParams) (registered : Bool) : TimerStatus × TimerP soc :=
  if id ≠ timerAny ∧ soc.numTimerDevices ≤ id.toNat then (.failure, g)
  else
    let g := if g.timerInitDone then g
      else { g with timerAnyMask := soc.availableMask, timerInitDone := true }
    match takeTimer soc id g.timerAnyMask with
    | none =>
      (.notAvailable, g.setStruct k
        { g.timerStructs k with availMask := g.timerAnyMask, timerId := 0xFFFF })
    | some i =>
      let availMask := g.timerAnyMask &&& ~~~shift i
      let timer : TimerStruct :=
        { g.timerStructs k with availMask := availMask, timerId := UInt32.ofNat i }
      let g := { g with timerAnyMask := availMask }
      let baseAddr := getTimerBaseAddr soc timer.timerId
      if baseAddr = 0 then (.notAvailable, g.setStruct k timer)
      else
        let timer := dmTimerInitObj soc timer tickFxn params
        let timer : TimerStruct := { timer with hwi := timer.tickFxn && registered }
        if timer.tickFxn && !timer.hwi then (.isrHookErr, g.setStruct k timer)
        else
          let r := dmTimerDeviceCfg soc timer baseAddr g.regs
          let regs := if r.2.1.startMode = startModeAuto then (timerStart soc r.2.1 r.2.2).2
            else r.2.2
          (r.1, { g.setStruct k r.2.1 with regs := regs })

/-- A struct given back by a create that fails. -/
def giveBack (g : TimerP soc) (k : Fin soc.numTimerDevices) : TimerP soc :=
  g.setStruct k { g.timerStructs k with used := false }

/-- The first struct of the pool that is free. -/
def firstFree (g : TimerP soc) : Option (Fin soc.numTimerDevices) :=
  (List.finRange soc.numTimerDevices).find? fun k => !(g.timerStructs k).used

/-- A struct taken. -/
def takeStruct (g : TimerP soc) (k : Fin soc.numTimerDevices) (id : UInt32) : TimerP soc :=
  let cnt := g.timerAllocCnt + 1
  { g.setStruct k { g.timerStructs k with used := true, timerId := id } with
    timerAllocCnt := cnt
    timerPeak := if g.timerPeak < cnt then cnt else g.timerPeak }

/-- `TimerP_create`: the handle, which is an index of the pool, or none for
`NULL`. -/
def create (g : TimerP soc) (id : UInt32) (tickFxn : Bool) (inParams : Option TimerParams)
    (registered : Bool) : Option (Fin soc.numTimerDevices) × TimerP soc :=
  let params := inParams.getD .init
  match g.firstFree with
  | none => (none, g)
  | some k =>
    let r := (g.takeStruct k id).dmTimerInstanceInit k id tickFxn params registered
    if r.1 ≠ .ok then (none, r.2.giveBack k)
    else if params.startMode = startModeAuto then
      let st := timerStart soc (r.2.timerStructs k) r.2.regs
      let g := { r.2 with regs := st.2 }
      if st.1 ≠ .ok then (none, g.giveBack k) else (some k, g)
    else (some k, r.2)

/-- `TimerP_delete`. -/
def delete (g : TimerP soc) (k : Fin soc.numTimerDevices) : TimerStatus × TimerP soc :=
  let timer := g.timerStructs k
  if timer.used then
    let bit := shift timer.timerId.toNat
    let left := g.timerAnyMask &&& bit = 0
    let g := g.giveBack k
    (if left then .ok else .failure,
      { g with
        timerAnyMask := if left then g.timerAnyMask ||| bit else g.timerAnyMask
        timerAllocCnt := if 0 < g.timerAllocCnt then g.timerAllocCnt - 1 else g.timerAllocCnt })
  else (.failure, g)

end TimerP

end Amp

end ObcSdk
