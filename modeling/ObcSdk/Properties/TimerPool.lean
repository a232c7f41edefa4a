import Mathlib.Data.Finset.Card
import ObcSdk.Lib.Runs
import ObcSdk.Properties.TimerPeriod
/-!
# The pool of timers

A struct is taken and counted before anything is tried with it, and a
hardware timer before its interrupt. A create that fails gives the struct
back, but neither the count nor the timer, so that the pool is kept
exactly by the creates that find no struct and by those that complete.
-/

namespace ObcSdk

namespace Amp

/-- The calls the pool changes with. -/
inductive TimerEvent (soc : Soc) where
  | create (id : UInt32) (tickFxn : Bool) (inParams : Option TimerParams) (registered : Bool)
  | delete (k : Fin soc.numTimerDevices)

namespace TimerP

variable {soc : Soc}

def step (g : TimerP soc) : TimerEvent soc → TimerP soc
  | .create id tickFxn inParams registered => (g.create id tickFxn inParams registered).2
  | .delete k => (g.delete k).2

/-- The pool behind a sequence of calls. -/
def run (regs : Regs) (events : List (TimerEvent soc)) : TimerP soc :=
  events.foldl step (.initial soc regs)

/-- A struct is used. -/
def Used (g : TimerP soc) (k : Fin soc.numTimerDevices) : Prop := (g.timerStructs k).used = true

instance (g : TimerP soc) : DecidablePred g.Used := fun k =>
  inferInstanceAs (Decidable ((g.timerStructs k).used = true))

/-- The structs used. -/
def usedStructs (g : TimerP soc) : Finset (Fin soc.numTimerDevices) :=
  Finset.univ.filter g.Used

/-- The struct is that of a hardware timer. -/
def Holds (g : TimerP soc) (k : Fin soc.numTimerDevices) (i : ℕ) : Prop :=
  g.Used k ∧ (g.timerStructs k).timerId.toNat = i

/-- **The books are right**: the count is that of the structs used, and a
timer's bit is clear exactly where one struct has it. -/
structure Conserved (g : TimerP soc) : Prop where
  count : g.timerAllocCnt.toNat = g.usedStructs.card
  mask : ∀ i, i < soc.numTimerDevices →
    (g.timerAnyMask.getLsbD i = false ↔ ∃! k, g.Holds k i)

/-- The pool as it was. -/
structure SamePool (g g' : TimerP soc) : Prop where
  used : ∀ k, g'.Used k ↔ g.Used k
  count : g'.timerAllocCnt = g.timerAllocCnt
  mask : g'.timerAnyMask = g.timerAnyMask

/-- The mask a create looks at: it is set at the first one. -/
def standingMask (g : TimerP soc) : BitVec 32 :=
  if g.timerInitDone then g.timerAnyMask else soc.availableMask

end TimerP

/-- The handles given to delete are live. -/
def LiveDeletes {soc : Soc} (regs : Regs) (events : List (TimerEvent soc)) : Prop :=
  ∀ p k, p ++ [.delete k] <+: events → (TimerP.run regs p).Used k

/-- A create fails. -/
def TimerEvent.Fails {soc : Soc} (g : TimerP soc) : TimerEvent soc → Prop
  | .create id tickFxn inParams registered => (g.create id tickFxn inParams registered).1 = none
  | .delete _ => False

/-- **The pool is conserved**: the books are right after every call, and a
create that fails leaves the pool as it was. -/
def PoolConserved {soc : Soc} (regs : Regs) (events : List (TimerEvent soc)) : Prop :=
  ∀ p e, p ++ [e] <+: events → (TimerP.run regs (p ++ [e])).Conserved ∧
    (e.Fails (TimerP.run regs p) → (TimerP.run regs p).SamePool (TimerP.run regs (p ++ [e])))

/-- The timer asked for is there. -/
def TimerLeft (soc : Soc) (id : UInt32) (mask : BitVec 32) : Prop :=
  (id = timerAny ∧ ∃ i, i < soc.numTimerDevices ∧ soc.anyMask.getLsbD i = true ∧
      mask.getLsbD i = true) ∨
    id.toNat < soc.numTimerDevices ∧ mask.getLsbD id.toNat = true

/-- The clock the parameters ask for. -/
def paramsFrequency (soc : Soc) (params : TimerParams) : UInt32 :=
  if params.frequency ≠ timerUseDefault then params.frequency.toUInt32 else soc.timerFreq

/-- A timer can be set up: its interrupt can be registered, and its period
fits the counter. -/
structure SetsUp (soc : Soc) (tickFxn : Bool) (params : TimerParams) (registered : Bool) :
    Prop where
  interrupt : tickFxn = true → registered = true
  period : params.periodType = periodTypeMicrosecs →
    periodCounts (paramsFrequency soc params) params.period ≤ 2 ^ 32 - 1

/-- What a create has to be given, with a struct free: a timer that is
left, one that can be set up, and where it is to be started, a tick
function. -/
structure Completes {soc : Soc} (g : TimerP soc) (id : UInt32) (tickFxn : Bool)
    (params : TimerParams) (registered : Bool) : Prop where
  left : TimerLeft soc id g.standingMask
  setsUp : SetsUp soc tickFxn params registered
  start : params.startMode = startModeAuto → tickFxn = true

/-- A create that finds no struct, or completes. -/
def TimerEvent.Settles {soc : Soc} (g : TimerP soc) : TimerEvent soc → Prop
  | .create id tickFxn inParams registered =>
    (∀ k, g.Used k) ∨ Completes g id tickFxn (inParams.getD .init) registered
  | .delete _ => True

/-- What the books rest on: no two structs share a timer, and the mask has
the bits of the timers that are left. -/
structure PoolInv {soc : Soc} (g : TimerP soc) : Prop where
  count : g.timerAllocCnt.toNat = g.usedStructs.card
  inited : ∀ k, g.Used k → g.timerInitDone = true
  lt : ∀ k, g.Used k → (g.timerStructs k).timerId.toNat < soc.numTimerDevices
  inj : ∀ j k i, g.Holds j i → g.Holds k i → j = k
  mask : g.timerInitDone = true → ∀ i, i < soc.numTimerDevices →
    (g.timerAnyMask.getLsbD i = false ↔ ∃ k, g.Holds k i)

section Bits

variable {m : BitVec 32} {i j : ℕ}

theorem and_shift_ne_zero : m &&& shift i ≠ 0 ↔ m.getLsbD i = true := by
  rw [shift, BitVec.and_twoPow]
  by_cases h : m.getLsbD i = true
  · have hi : i < 32 := BitVec.lt_of_getLsbD h
    have hbit : (BitVec.twoPow 32 i).getLsbD i = true := by
      rw [BitVec.getLsbD_twoPow]
      simp [hi]
    rw [if_pos h]
    refine iff_of_true (fun hzero => ?_) h
    rw [hzero] at hbit
    simp at hbit
  · rw [if_neg h]
    exact iff_of_false (fun hne => hne rfl) h

theorem getLsbD_take (hj : j < 32) :
    (m &&& ~~~shift i).getLsbD j = (m.getLsbD j && !decide (i = j)) := by
  rw [BitVec.getLsbD_and, BitVec.getLsbD_not, shift, BitVec.getLsbD_twoPow]
  by_cases h : i = j
  · subst h
    simp [hj]
  · simp [hj, h]

theorem getLsbD_give (hj : j < 32) :
    (m ||| shift i).getLsbD j = (m.getLsbD j || decide (i = j)) := by
  rw [BitVec.getLsbD_or, shift, BitVec.getLsbD_twoPow]
  by_cases h : i = j
  · subst h
    simp [hj]
  · simp [h]

end Bits

section Create

variable {soc : Soc} {g g' : TimerP soc} {k : Fin soc.numTimerDevices} {id baseAddr : UInt32}
  {mask : BitVec 32} {tickFxn registered : Bool} {params : TimerParams} {timer : TimerStruct}
  {regs : Regs} {i : ℕ}

/-- What is taken is a timer that was left. -/
theorem takeTimer_some (hid : id = timerAny ∨ id.toNat < soc.numTimerDevices)
    (h : takeTimer soc id mask = some i) : i < soc.numTimerDevices ∧ mask.getLsbD i = true := by
  rw [takeTimer] at h
  by_cases hany : id = timerAny
  · rw [if_pos hany] at h
    have hmem := List.mem_of_find?_eq_some h
    have hbits := List.find?_some h
    rw [Bool.and_eq_true, decide_eq_true_eq, decide_eq_true_eq] at hbits
    exact ⟨List.mem_range.1 hmem, and_shift_ne_zero.1 hbits.2⟩
  · rw [if_neg hany] at h
    by_cases hbit : mask &&& shift id.toNat ≠ 0
    · rw [if_pos hbit] at h
      obtain rfl := Option.some.inj h
      exact ⟨hid.resolve_left hany, and_shift_ne_zero.1 hbit⟩
    · rw [if_neg hbit] at h
      cases h

/-- A timer is taken where the one asked for is left. -/
theorem takeTimer_isSome_iff (hid : id = timerAny ∨ id.toNat < soc.numTimerDevices) :
    (takeTimer soc id mask).isSome = true ↔ TimerLeft soc id mask := by
  have hnum := soc.num_le
  rw [takeTimer, TimerLeft]
  by_cases hany : id = timerAny
  · subst hany
    have hbig : ¬ timerAny.toNat < soc.numTimerDevices := by
      have htop : timerAny.toNat = 2 ^ 32 - 1 := rfl
      rw [htop]
      omega
    rw [if_pos rfl, List.find?_isSome, or_iff_left fun h => hbig h.1, and_iff_right rfl]
    simp only [List.mem_range, Bool.and_eq_true, decide_eq_true_eq, and_shift_ne_zero]
  · rw [if_neg hany, or_iff_right fun h => hany h.1, and_iff_right (hid.resolve_left hany),
      ← and_shift_ne_zero]
    by_cases hbit : mask &&& shift id.toNat ≠ 0
    · rw [if_pos hbit]
      exact iff_of_true rfl hbit
    · rw [if_neg hbit]
      exact iff_of_false Bool.false_ne_true hbit

variable (soc timer baseAddr regs) in
/-- **A timer configured** is the same one, with a period in counts. -/
theorem dmTimerDeviceCfg_eq : ∃ period periodType regs',
    dmTimerDeviceCfg soc timer baseAddr regs =
      (if timer.periodType = periodTypeMicrosecs ∧
          2 ^ 32 - 1 < periodCounts timer.frequency timer.period then .failure else .ok,
        { timer with period := period, periodType := periodType }, regs') := by
  rw [dmTimerDeviceCfg]
  by_cases hmicro : timer.periodType = periodTypeMicrosecs
  · simp only [if_pos hmicro, and_iff_right hmicro]
    rw [dmTimerSetMicroSeconds_eq]
    by_cases hlarge : 2 ^ 32 - 1 < periodCounts timer.frequency timer.period
    · simp only [if_pos hlarge]
      exact ⟨_, _, _, rfl⟩
    · simp only [if_neg hlarge]
      exact ⟨_, _, _, rfl⟩
  · simp only [if_neg hmicro, if_neg fun h : timer.periodType = periodTypeMicrosecs ∧ _ =>
      hmicro h.1]
    exact ⟨_, _, _, rfl⟩

variable (soc timer regs) in
/-- **A timer starts** where there is one, with an interrupt. -/
theorem timerStart_ok_iff :
    (timerStart soc timer regs).1 = .ok ↔ timer.timerId.toNat < soc.numTimerDevices ∧
      timer.hwi = true := by
  rw [timerStart]
  by_cases hid : timer.timerId.toNat < soc.numTimerDevices
  · simp only [if_neg (getTimerBaseAddr_ne hid)]
    by_cases hhwi : timer.hwi = true
    · simp only [if_pos hhwi]
      exact iff_of_true trivial ⟨hid, hhwi⟩
    · simp only [if_neg hhwi]
      exact iff_of_false TimerStatus.noConfusion fun h => hhwi h.2
  · have hbase : getTimerBaseAddr soc timer.timerId = 0 := by rw [getTimerBaseAddr, if_neg hid]
    simp only [if_pos hbase]
    exact iff_of_false TimerStatus.noConfusion fun h => hid h.1

end Create

/-- Of the pool nothing but a struct that stays used or free, and the
mask, is touched. -/
structure TimerP.OnlyStruct {soc : Soc} (g g' : TimerP soc) (k : Fin soc.numTimerDevices) :
    Prop where
  used : ∀ j, g'.Used j ↔ g.Used j
  timerId : ∀ j, j ≠ k → (g'.timerStructs j).timerId = (g.timerStructs j).timerId
  count : g'.timerAllocCnt = g.timerAllocCnt

/-- A hardware timer is taken for a struct. -/
structure TimerP.Took {soc : Soc} (g g' : TimerP soc) (k : Fin soc.numTimerDevices) (i : ℕ)
    (tickFxn : Bool) : Prop where
  lt : i < soc.numTimerDevices
  left : g.standingMask.getLsbD i = true
  timerId : (g'.timerStructs k).timerId.toNat = i
  hwi : (g'.timerStructs k).hwi = tickFxn
  mask : g'.timerAnyMask = g.standingMask &&& ~~~shift i
  inited : g'.timerInitDone = true

section Instance

variable {soc : Soc} {g g₁ : TimerP soc} {k : Fin soc.numTimerDevices} {id : UInt32}
  {tickFxn registered : Bool} {params : TimerParams} {timer : TimerStruct}
  {mask : BitVec 32} {done : Bool} {regs : Regs} {i : ℕ}

/-- A struct stored with its flag as it was. -/
theorem onlyStruct_setStruct (hused : timer.used = (g.timerStructs k).used) :
    g.OnlyStruct
      { g.setStruct k timer with timerAnyMask := mask, timerInitDone := done, regs := regs } k := by
  refine ⟨fun j => ?_, fun j hj => ?_, rfl⟩
  · by_cases hj : j = k
    · subst hj
      simp only [TimerP.Used, TimerP.setStruct, Function.update_self, hused]
    · simp only [TimerP.Used, TimerP.setStruct, Function.update_of_ne hj]
  · simp only [TimerP.setStruct, Function.update_of_ne hj]

theorem toNat_timerId (hlt : i < soc.numTimerDevices) : (UInt32.ofNat i).toNat = i := by
  have hnum := soc.num_le
  rw [UInt32.toNat_ofNat', Nat.mod_eq_of_lt (by omega)]

/-- The first create sets the mask. -/
theorem init_eq : (if g.timerInitDone = true then g
    else { g with timerAnyMask := soc.availableMask, timerInitDone := true }) =
    { g with timerAnyMask := g.standingMask, timerInitDone := true } := by
  rw [TimerP.standingMask]
  by_cases hdone : g.timerInitDone = true
  · rw [if_pos hdone, if_pos hdone, ← hdone]
  · rw [if_neg hdone, if_neg hdone]

variable (g k tickFxn registered params i) in
/-- The struct as its counter is to be set up. -/
def readied : TimerStruct :=
  { dmTimerInitObj soc
      { g.timerStructs k with
        availMask := g.standingMask &&& ~~~shift i
        timerId := UInt32.ofNat i } tickFxn params with
    hwi := tickFxn && registered }

/-- What is done for a timer that is taken. -/
theorem dmTimerInstanceInit_of_take
    (hid : ¬ (id ≠ timerAny ∧ soc.numTimerDevices ≤ id.toNat))
    (htake : takeTimer soc id g.standingMask = some i) (hlt : i < soc.numTimerDevices) :
    g.dmTimerInstanceInit k id tickFxn params registered =
      let g' := { g with timerAnyMask := g.standingMask &&& ~~~shift i, timerInitDone := true }
      let timer := readied g k tickFxn registered params i
      if (tickFxn && !(tickFxn && registered)) = true then (.isrHookErr, g'.setStruct k timer)
      else
        let r := dmTimerDeviceCfg soc timer (getTimerBaseAddr soc timer.timerId) g.regs
        (r.1,
          { g'.setStruct k r.2.1 with
            regs :=
              if r.2.1.startMode = startModeAuto then (timerStart soc r.2.1 r.2.2).2
              else r.2.2 }) := by
  have hnum := soc.num_le
  have hbase : getTimerBaseAddr soc (UInt32.ofNat i) ≠ 0 := by
    rw [getTimerBaseAddr, toNat_timerId hlt, if_pos hlt]
    exact soc.baseAddr_ne i hlt
  rw [TimerP.dmTimerInstanceInit, if_neg hid]
  simp only [init_eq, htake, if_neg hbase]
  rfl

variable (k tickFxn registered params) in
/-- **A timer that is taken** is set up, or something for that is missing. -/
theorem dmTimerInstanceInit_taken
    (hid : ¬ (id ≠ timerAny ∧ soc.numTimerDevices ≤ id.toNat))
    (htake : takeTimer soc id g.standingMask = some i) (hlt : i < soc.numTimerDevices)
    (hbit : g.standingMask.getLsbD i = true) :
    g.OnlyStruct (g.dmTimerInstanceInit k id tickFxn params registered).2 k ∧
    ((g.dmTimerInstanceInit k id tickFxn params registered).1 = .ok ∧
        SetsUp soc tickFxn params registered ∧
        g.Took (g.dmTimerInstanceInit k id tickFxn params registered).2 k i tickFxn ∨
      (g.dmTimerInstanceInit k id tickFxn params registered).1 ≠ .ok ∧
        ¬ SetsUp soc tickFxn params registered) := by
  rw [dmTimerInstanceInit_of_take hid htake hlt]
  by_cases hhook : (tickFxn && !(tickFxn && registered)) = true
  · simp only [if_pos hhook]
    refine ⟨onlyStruct_setStruct rfl, .inr ⟨TimerStatus.noConfusion, fun h => ?_⟩⟩
    obtain ⟨htick, hno⟩ := Bool.and_eq_true_iff.1 hhook
    rw [htick, h.interrupt htick] at hno
    exact absurd hno (by decide)
  have hreg : tickFxn = true → registered = true := by
    rintro rfl
    simpa using hhook
  have hhwi : (tickFxn && registered) = tickFxn := by
    cases tickFxn with
    | true => exact hreg rfl
    | false => rfl
  obtain ⟨period, periodType, regs', hcfg⟩ :=
    dmTimerDeviceCfg_eq soc
      (getTimerBaseAddr soc (readied g k tickFxn registered params i).timerId)
      (readied g k tickFxn registered params i) g.regs
  simp only [if_neg hhook, hcfg]
  refine ⟨onlyStruct_setStruct rfl, ?_⟩
  by_cases hover : params.periodType = periodTypeMicrosecs ∧
      2 ^ 32 - 1 < periodCounts (paramsFrequency soc params) params.period
  · refine .inr ⟨fun h => ?_, fun h => absurd (h.period hover.1) (not_le.2 hover.2)⟩
    exact TimerStatus.noConfusion ((if_pos hover).symm.trans h)
  · refine .inl ⟨if_neg hover, ⟨hreg, fun hmicro => ?_⟩, hlt, hbit, ?_, ?_, rfl, rfl⟩
    · exact not_lt.1 fun hlarge => hover ⟨hmicro, hlarge⟩
    · simp only [TimerP.setStruct, Function.update_self]
      exact toNat_timerId hlt
    · simp only [TimerP.setStruct, Function.update_self]
      exact hhwi

variable (g k id tickFxn registered params) in
/-- **A struct set up**: either all of it succeeds and a timer is taken,
or something it needs is missing. -/
theorem dmTimerInstanceInit_cases :
    g.OnlyStruct (g.dmTimerInstanceInit k id tickFxn params registered).2 k ∧
    ((g.dmTimerInstanceInit k id tickFxn params registered).1 = .ok ∧
        TimerLeft soc id g.standingMask ∧ SetsUp soc tickFxn params registered ∧
        (∃ i, g.Took (g.dmTimerInstanceInit k id tickFxn params registered).2 k i tickFxn) ∨
      (g.dmTimerInstanceInit k id tickFxn params registered).1 ≠ .ok ∧
        ¬ (TimerLeft soc id g.standingMask ∧ SetsUp soc tickFxn params registered)) := by
  by_cases hbad : id ≠ timerAny ∧ soc.numTimerDevices ≤ id.toNat
  · rw [TimerP.dmTimerInstanceInit, if_pos hbad]
    refine ⟨⟨fun _ => Iff.rfl, fun _ _ => rfl, rfl⟩, .inr ⟨TimerStatus.noConfusion, ?_⟩⟩
    rintro ⟨⟨hany, -⟩ | ⟨hlt, -⟩, -⟩
    · exact hbad.1 hany
    · omega
  have hid : id = timerAny ∨ id.toNat < soc.numTimerDevices := by
    by_cases hany : id = timerAny
    · exact .inl hany
    · exact .inr (not_le.1 fun hle => hbad ⟨hany, hle⟩)
  cases htake : takeTimer soc id g.standingMask with
  | none =>
    rw [TimerP.dmTimerInstanceInit, if_neg hbad]
    simp only [init_eq, htake]
    refine ⟨onlyStruct_setStruct rfl, .inr ⟨TimerStatus.noConfusion, fun h => ?_⟩⟩
    have hsome := (takeTimer_isSome_iff hid).2 h.1
    rw [htake] at hsome
    cases hsome
  | some i =>
    obtain ⟨hlt, hbit⟩ := takeTimer_some hid htake
    have hleft := (takeTimer_isSome_iff hid).1 (by rw [htake]; rfl)
    obtain ⟨honly, ⟨hok, hsets, htook⟩ | ⟨hfail, hno⟩⟩ :=
      dmTimerInstanceInit_taken k tickFxn registered params hbad htake hlt hbit
    · exact ⟨honly, .inl ⟨hok, hleft, hsets, i, htook⟩⟩
    · exact ⟨honly, .inr ⟨hfail, fun h => hno h.2⟩⟩

end Instance

/-- A create that completes gains the pool a struct, with a timer. -/
structure TimerP.Gained {soc : Soc} (g g' : TimerP soc) (k : Fin soc.numTimerDevices) (i : ℕ) :
    Prop where
  free : ¬ g.Used k
  used : ∀ j, g'.Used j ↔ j = k ∨ g.Used j
  timerId : (g'.timerStructs k).timerId.toNat = i
  timerId_of_ne : ∀ j, j ≠ k → (g'.timerStructs j).timerId = (g.timerStructs j).timerId
  lt : i < soc.numTimerDevices
  left : g.standingMask.getLsbD i = true
  mask : g'.timerAnyMask = g.standingMask &&& ~~~shift i
  inited : g'.timerInitDone = true
  count : g'.timerAllocCnt = g.timerAllocCnt + 1

/-- A create that fails with a struct free leaves the struct free, and
counted. -/
structure TimerP.Leaked {soc : Soc} (g g' : TimerP soc) : Prop where
  used : ∀ j, g'.Used j ↔ g.Used j
  count : g'.timerAllocCnt = g.timerAllocCnt + 1

section Calls

variable {soc : Soc} {g g' : TimerP soc} {k : Fin soc.numTimerDevices} {id : UInt32}
  {tickFxn registered : Bool} {inParams : Option TimerParams} {i : ℕ}

theorem firstFree_eq_none_iff : g.firstFree = none ↔ ∀ k, g.Used k := by
  rw [TimerP.firstFree, List.find?_eq_none]
  constructor
  · intro h k
    simpa [TimerP.Used] using h k (List.mem_finRange k)
  · intro h k _
    simpa [TimerP.Used] using h k

theorem not_used_of_firstFree (h : g.firstFree = some k) : ¬ g.Used k := by
  have hfree := List.find?_some h
  simpa [TimerP.Used] using hfree

theorem used_takeStruct {j : Fin soc.numTimerDevices} :
    (g.takeStruct k id).Used j ↔ j = k ∨ g.Used j := by
  by_cases hj : j = k
  · subst hj
    simp [TimerP.takeStruct, TimerP.Used, TimerP.setStruct]
  · simp [TimerP.takeStruct, TimerP.Used, TimerP.setStruct, hj]

theorem timerId_takeStruct {j : Fin soc.numTimerDevices} (hj : j ≠ k) :
    ((g.takeStruct k id).timerStructs j).timerId = (g.timerStructs j).timerId := by
  simp [TimerP.takeStruct, TimerP.setStruct, hj]

theorem used_giveBack {j : Fin soc.numTimerDevices} :
    (g.giveBack k).Used j ↔ j ≠ k ∧ g.Used j := by
  by_cases hj : j = k
  · subst hj
    simp [TimerP.giveBack, TimerP.Used, TimerP.setStruct]
  · simp [TimerP.giveBack, TimerP.Used, TimerP.setStruct, hj]

/-- A struct given back is free, as it was, but the count has gone up. -/
theorem TimerP.OnlyStruct.leaked (h : (g.takeStruct k id).OnlyStruct g' k) (hk : ¬ g.Used k)
    (regs : Regs) : g.Leaked (TimerP.giveBack { g' with regs := regs } k) := by
  refine ⟨fun j => ?_, h.count⟩
  have hj : TimerP.Used { g' with regs := regs } j ↔ j = k ∨ g.Used j :=
    (h.used j).trans used_takeStruct
  rw [used_giveBack, hj]
  constructor
  · rintro ⟨hne, heq | hused⟩
    · exact absurd heq hne
    · exact hused
  · intro hused
    exact ⟨fun heq => hk (heq ▸ hused), .inr hused⟩

/-- A struct taken is gained with the timer that is taken for it. -/
theorem TimerP.OnlyStruct.gained (h : (g.takeStruct k id).OnlyStruct g' k) (hk : ¬ g.Used k)
    (htook : (g.takeStruct k id).Took g' k i tickFxn) (regs : Regs) :
    g.Gained { g' with regs := regs } k i := by
  refine ⟨hk, fun j => (h.used j).trans used_takeStruct, htook.timerId, fun j hj => ?_, htook.lt,
    htook.left, htook.mask, htook.inited, h.count⟩
  exact (h.timerId j hj).trans (timerId_takeStruct hj)

variable (id tickFxn registered inParams) in
/-- **A create with a struct free** completes, or leaks. -/
theorem create_cases (hfree : g.firstFree = some k) :
    (Completes g id tickFxn (inParams.getD .init) registered ∧
        (g.create id tickFxn inParams registered).1 = some k ∧
        ∃ i, g.Gained (g.create id tickFxn inParams registered).2 k i) ∨
      ¬ Completes g id tickFxn (inParams.getD .init) registered ∧
        (g.create id tickFxn inParams registered).1 = none ∧
        g.Leaked (g.create id tickFxn inParams registered).2 := by
  have hk := not_used_of_firstFree hfree
  obtain ⟨honly, hcases⟩ := dmTimerInstanceInit_cases (g.takeStruct k id) k id tickFxn registered
    (inParams.getD .init)
  have hmask : (g.takeStruct k id).standingMask = g.standingMask := rfl
  rw [TimerP.create, hfree]
  simp only
  generalize (g.takeStruct k id).dmTimerInstanceInit k id tickFxn (inParams.getD .init)
    registered = r at honly hcases ⊢
  rw [hmask] at hcases
  rcases hcases with ⟨hok, hleft, hsets, i, htook⟩ | ⟨hfail, hno⟩
  · rw [if_neg fun h => h hok]
    by_cases hauto : (inParams.getD .init).startMode = startModeAuto
    · rw [if_pos hauto]
      have hstart := timerStart_ok_iff soc (r.2.timerStructs k) r.2.regs
      rw [htook.timerId, htook.hwi, and_iff_right htook.lt] at hstart
      by_cases htick : tickFxn = true
      · rw [if_neg fun h => h (hstart.2 htick)]
        exact .inl ⟨⟨hleft, hsets, fun _ => htick⟩, rfl, i, honly.gained hk htook _⟩
      · rw [if_pos (mt hstart.1 htick)]
        exact .inr ⟨fun h => htick (h.start hauto), rfl, honly.leaked hk _⟩
    · rw [if_neg hauto]
      exact .inl ⟨⟨hleft, hsets, fun h => absurd h hauto⟩, rfl, i,
        honly.gained hk htook r.2.regs⟩
  · rw [if_pos hfail]
    exact .inr ⟨fun h => hno ⟨h.left, h.setsUp⟩, rfl, honly.leaked hk r.2.regs⟩

end Calls

section Invariant

variable {soc : Soc} {g g' : TimerP soc} {k : Fin soc.numTimerDevices} {i : ℕ} {regs : Regs}
  {id : UInt32} {tickFxn registered : Bool} {inParams : Option TimerParams}

theorem mem_usedStructs : k ∈ g.usedStructs ↔ g.Used k := by
  rw [TimerP.usedStructs, Finset.mem_filter, and_iff_right (Finset.mem_univ k)]

theorem usedStructs_congr (h : ∀ j, g'.Used j ↔ g.Used j) : g'.usedStructs = g.usedStructs :=
  Finset.ext fun j => mem_usedStructs.trans ((h j).trans mem_usedStructs.symm)

/-- There are no more structs than there are timers. -/
theorem card_usedStructs_le : g.usedStructs.card ≤ 32 := by
  have hcard := Finset.card_le_univ g.usedStructs
  rw [Fintype.card_fin] at hcard
  exact hcard.trans soc.num_le

variable (soc regs) in
theorem poolInv_initial : PoolInv (.initial soc regs) := by
  have hfree : ∀ k, ¬ (TimerP.initial soc regs).Used k := fun _ => Bool.false_ne_true
  refine ⟨?_, fun k hk => absurd hk (hfree k), fun k hk => absurd hk (hfree k),
    fun j _ _ hj _ => absurd hj.1 (hfree j), fun h => absurd h Bool.false_ne_true⟩
  have hempty : (TimerP.initial soc regs).usedStructs = ∅ :=
    Finset.eq_empty_of_forall_notMem fun k hk => hfree k (mem_usedStructs.1 hk)
  rw [hempty]
  rfl

/-- The mask a create looks at has the bits of the timers left. -/
theorem PoolInv.standing (h : PoolInv g) (hi : i < soc.numTimerDevices) :
    g.standingMask.getLsbD i = false ↔ ∃ k, g.Holds k i := by
  rw [TimerP.standingMask]
  by_cases hdone : g.timerInitDone = true
  · rw [if_pos hdone]
    exact h.mask hdone i hi
  · rw [if_neg hdone, soc.available i hi]
    refine iff_of_false (Bool.false_ne_true ∘ Eq.symm) ?_
    rintro ⟨k, hk, -⟩
    exact hdone (h.inited k hk)

/-- A timer that is left is no struct's. -/
theorem PoolInv.not_holds_of_left (h : PoolInv g) (hi : i < soc.numTimerDevices)
    (hleft : g.standingMask.getLsbD i = true) : ¬ g.Holds k i := by
  intro hk
  have hclear := (h.standing hi).2 ⟨k, hk⟩
  rw [hleft] at hclear
  exact Bool.false_ne_true hclear.symm

/-- What structs hold, with one gained. -/
theorem TimerP.Gained.holds_iff (hg : g.Gained g' k i) {j : Fin soc.numTimerDevices} {i' : ℕ} :
    g'.Holds j i' ↔ j = k ∧ i' = i ∨ j ≠ k ∧ g.Holds j i' := by
  by_cases hj : j = k
  · subst hj
    rw [TimerP.Holds, hg.timerId, and_iff_right ((hg.used j).2 (.inl rfl)), and_iff_right rfl,
      or_iff_left fun hne => hne.1 rfl]
    exact eq_comm
  · rw [TimerP.Holds, TimerP.Holds, hg.used, or_iff_right hj, hg.timerId_of_ne j hj,
      or_iff_right fun heq => hj heq.1, and_iff_right hj]

theorem TimerP.Gained.usedStructs_eq (hg : g.Gained g' k i) :
    g'.usedStructs = insert k g.usedStructs := by
  ext j
  rw [mem_usedStructs, hg.used, Finset.mem_insert, mem_usedStructs]

/-- The bit of the timer gained is cleared, and no other. -/
theorem PoolInv.gained_mask (h : PoolInv g) (hg : g.Gained g' k i) {i' : ℕ}
    (hi' : i' < soc.numTimerDevices) :
    g'.timerAnyMask.getLsbD i' = false ↔ ∃ j, g'.Holds j i' := by
  have hnum := soc.num_le
  rw [hg.mask, getLsbD_take (by omega)]
  by_cases heq : i = i'
  · subst heq
    refine iff_of_true ?_ ⟨k, hg.holds_iff.2 (.inl ⟨rfl, rfl⟩)⟩
    rw [decide_eq_true rfl, Bool.not_true, Bool.and_false]
  · rw [decide_eq_false heq, Bool.not_false, Bool.and_true, h.standing hi']
    constructor
    · rintro ⟨j, hj⟩
      have hjk : j ≠ k := fun hjk => hg.free (hjk ▸ hj.1)
      exact ⟨j, hg.holds_iff.2 (.inr ⟨hjk, hj⟩)⟩
    · rintro ⟨j, hj⟩
      rcases hg.holds_iff.1 hj with ⟨-, hi⟩ | ⟨-, hj⟩
      · exact absurd hi.symm heq
      · exact ⟨j, hj⟩

/-- **A create that completes** keeps the books right. -/
theorem PoolInv.gained (h : PoolInv g) (hg : g.Gained g' k i) : PoolInv g' := by
  have hnone : ∀ j, ¬ g.Holds j i := fun j => h.not_holds_of_left hg.lt hg.left
  refine ⟨?_, fun _ _ => hg.inited, fun j hj => ?_, fun j j' i' hj hj' => ?_,
    fun _ i' hi' => h.gained_mask hg hi'⟩
  · have hle := card_usedStructs_le (g := g)
    have hone : (1 : UInt32).toNat = 1 := rfl
    rw [hg.usedStructs_eq, Finset.card_insert_of_notMem fun hk => hg.free (mem_usedStructs.1 hk),
      hg.count, UInt32.toNat_add, h.count, hone, Nat.mod_eq_of_lt (by omega)]
  · rcases hg.holds_iff.1 ⟨hj, rfl⟩ with ⟨-, hi⟩ | ⟨-, hold⟩
    · rw [hi]
      exact hg.lt
    · rw [← hold.2]
      exact h.lt j hold.1
  · rcases hg.holds_iff.1 hj with ⟨hjk, hi⟩ | ⟨-, hold⟩
    · rcases hg.holds_iff.1 hj' with ⟨hjk', -⟩ | ⟨-, hold'⟩
      · exact hjk.trans hjk'.symm
      · exact absurd (hi ▸ hold') (hnone j')
    · rcases hg.holds_iff.1 hj' with ⟨-, hi⟩ | ⟨-, hold'⟩
      · exact absurd (hi ▸ hold) (hnone j)
      · exact h.inj j j' i' hold hold'

/-- What a delete of a live handle leaves. -/
theorem delete_eq (h : PoolInv g) (hk : g.Used k) : (g.delete k).2 =
    { g.giveBack k with
      timerAnyMask := g.timerAnyMask ||| shift (g.timerStructs k).timerId.toNat
      timerAllocCnt := g.timerAllocCnt - 1 } := by
  have hused : (g.timerStructs k).used = true := hk
  have hclear := (h.mask (h.inited k hk) _ (h.lt k hk)).2 ⟨k, hk, rfl⟩
  have hbit : g.timerAnyMask &&& shift (g.timerStructs k).timerId.toNat = 0 := by
    by_contra hne
    rw [and_shift_ne_zero.1 hne] at hclear
    cases hclear
  have hpos : 0 < (g.giveBack k).timerAllocCnt := by
    rw [UInt32.lt_iff_toNat_lt]
    exact (Finset.card_pos.2 ⟨k, mem_usedStructs.2 hk⟩).trans_eq h.count.symm
  rw [TimerP.delete, if_pos hused]
  simp only [hbit, if_true, if_pos hpos]
  rfl

theorem PoolInv.used_delete (h : PoolInv g) (hk : g.Used k) {j : Fin soc.numTimerDevices} :
    (g.delete k).2.Used j ↔ j ≠ k ∧ g.Used j := by
  rw [delete_eq h hk]
  exact used_giveBack

/-- What structs hold, with one given back. -/
theorem PoolInv.holds_delete (h : PoolInv g) (hk : g.Used k) {j : Fin soc.numTimerDevices} :
    (g.delete k).2.Holds j i ↔ j ≠ k ∧ g.Holds j i := by
  rw [TimerP.Holds, h.used_delete hk, TimerP.Holds, and_assoc, delete_eq h hk]
  by_cases hj : j = k
  · exact iff_of_false (fun hne => hne.1 hj) fun hne => hne.1 hj
  · simp only [TimerP.giveBack, TimerP.setStruct, Function.update_of_ne hj]

theorem PoolInv.usedStructs_delete (h : PoolInv g) (hk : g.Used k) :
    (g.delete k).2.usedStructs = g.usedStructs.erase k := by
  ext j
  rw [mem_usedStructs, h.used_delete hk, Finset.mem_erase, mem_usedStructs]

/-- The bit of the timer given back is set, and no other. -/
theorem PoolInv.mask_delete (h : PoolInv g) (hk : g.Used k) (hi : i < soc.numTimerDevices) :
    (g.delete k).2.timerAnyMask.getLsbD i = false ↔ ∃ j, (g.delete k).2.Holds j i := by
  have hnum := soc.num_le
  have hold := h.mask (h.inited k hk) i hi
  have hmask : (g.delete k).2.timerAnyMask =
      g.timerAnyMask ||| shift (g.timerStructs k).timerId.toNat := by rw [delete_eq h hk]
  rw [hmask, getLsbD_give (by omega)]
  by_cases heq : (g.timerStructs k).timerId.toNat = i
  · rw [decide_eq_true heq, Bool.or_true]
    refine iff_of_false (Bool.false_ne_true ∘ Eq.symm) ?_
    rintro ⟨j, hj⟩
    obtain ⟨hne, hj⟩ := (h.holds_delete hk).1 hj
    exact hne (h.inj j k i hj ⟨hk, heq⟩)
  · rw [decide_eq_false heq, Bool.or_false, hold]
    constructor
    · rintro ⟨j, hj⟩
      have hne : j ≠ k := fun hjk => heq (hjk ▸ hj.2)
      exact ⟨j, (h.holds_delete hk).2 ⟨hne, hj⟩⟩
    · rintro ⟨j, hj⟩
      exact ⟨j, ((h.holds_delete hk).1 hj).2⟩

/-- **A delete** keeps the books right. -/
theorem PoolInv.delete (h : PoolInv g) (hk : g.Used k) : PoolInv (g.delete k).2 := by
  refine ⟨?_, fun j hj => ?_, fun j hj => ?_, fun j j' i hj hj' => ?_,
    fun _ i hi => h.mask_delete hk hi⟩
  · have hmem := mem_usedStructs.2 hk
    have hpos := Finset.card_pos.2 ⟨k, hmem⟩
    have hone : (1 : UInt32).toNat = 1 := rfl
    rw [h.usedStructs_delete hk, Finset.card_erase_of_mem hmem, delete_eq h hk, ← h.count]
    refine UInt32.toNat_sub_of_le _ _ ?_
    rw [UInt32.le_iff_toNat_le, h.count, hone]
    exact hpos
  · rw [delete_eq h hk]
    exact h.inited j ((h.used_delete hk).1 hj).2
  · obtain ⟨-, hold⟩ := (h.holds_delete hk).1 ⟨hj, rfl⟩
    rw [← hold.2]
    exact h.lt j hold.1
  · exact h.inj j j' i ((h.holds_delete hk).1 hj).2 ((h.holds_delete hk).1 hj').2

/-- The books are right where the mask is set, as it is by the first
create. -/
theorem PoolInv.conserved (h : PoolInv g)
    (hset : soc.numTimerDevices = 0 ∨ g.timerInitDone = true) : g.Conserved := by
  refine ⟨h.count, fun i hi => ?_⟩
  have hdone := hset.resolve_left (by omega)
  rw [h.mask hdone i hi]
  constructor
  · rintro ⟨k, hk⟩
    exact ⟨k, hk, fun j hj => h.inj j k i hj hk⟩
  · rintro ⟨k, hk, -⟩
    exact ⟨k, hk⟩

theorem TimerP.Leaked.count_ne (h : PoolInv g) (hl : g.Leaked g') :
    g'.timerAllocCnt.toNat ≠ g'.usedStructs.card := by
  intro hcount
  have hle := card_usedStructs_le (g := g)
  have hone : (1 : UInt32).toNat = 1 := rfl
  rw [usedStructs_congr hl.used, hl.count, UInt32.toNat_add, h.count, hone] at hcount
  omega

/-- A create that finds no struct does nothing. -/
theorem create_of_full (hfull : ∀ k, g.Used k) :
    g.create id tickFxn inParams registered = (none, g) := by
  rw [TimerP.create, firstFree_eq_none_iff.2 hfull]

/-- **A call whose count is right** settles. -/
theorem PoolInv.settles {e : TimerEvent soc} (h : PoolInv g)
    (hcount : (g.step e).timerAllocCnt.toNat = (g.step e).usedStructs.card) : e.Settles g := by
  cases e with
  | delete k => trivial
  | create id tickFxn inParams registered =>
    cases hfree : g.firstFree with
    | none => exact .inl (firstFree_eq_none_iff.1 hfree)
    | some k =>
      rcases create_cases id tickFxn registered inParams hfree with ⟨hok, -⟩ | ⟨-, -, hleak⟩
      · exact .inr hok
      · exact absurd hcount (hleak.count_ne h)

/-- **A call that settles** keeps the books right, and the pool as it was
where it is a create that fails. -/
theorem PoolInv.step {e : TimerEvent soc} (h : PoolInv g)
    (hlive : ∀ k, e = .delete k → g.Used k) (he : e.Settles g) :
    PoolInv (g.step e) ∧ (g.step e).Conserved ∧ (e.Fails g → g.SamePool (g.step e)) := by
  cases e with
  | delete k =>
    have hk := hlive k rfl
    have hinv := h.delete hk
    refine ⟨hinv, hinv.conserved (.inr ?_), False.elim⟩
    rw [delete_eq h hk]
    exact h.inited k hk
  | create id tickFxn inParams registered =>
    cases hfree : g.firstFree with
    | none =>
      have hfull := firstFree_eq_none_iff.1 hfree
      rw [TimerP.step, create_of_full hfull]
      refine ⟨h, h.conserved ?_, fun _ => ⟨fun _ => Iff.rfl, rfl, rfl⟩⟩
      rcases Nat.eq_zero_or_pos soc.numTimerDevices with hzero | hpos
      · exact .inl hzero
      · exact .inr (h.inited ⟨0, hpos⟩ (hfull _))
    | some k =>
      have hk := not_used_of_firstFree hfree
      rcases create_cases id tickFxn registered inParams hfree with
        ⟨-, hsome, i, hgain⟩ | ⟨hno, -⟩
      · have hinv := h.gained hgain
        refine ⟨hinv, hinv.conserved (.inr hgain.inited), fun hfails => ?_⟩
        rw [TimerEvent.Fails, hsome] at hfails
        cases hfails
      · rcases he with hfull | hok
        · exact absurd (hfull k) hk
        · exact absurd hok hno

variable (regs) in
/-- **The pool is conserved**, by sequences of any length, exactly where
every create settles. -/
theorem poolConserved_iff {events : List (TimerEvent soc)} (hlive : LiveDeletes regs events) :
    PoolConserved regs events ↔
      ∀ p e, p ++ [e] <+: events → e.Settles (TimerP.run regs p) := by
  have hstep : ∀ p e, p ++ [e] <+: events → PoolInv (TimerP.run regs p) →
      (PoolInv ((TimerP.run regs p).step e) ↔ e.Settles (TimerP.run regs p)) := fun p e hp h =>
    ⟨fun hinv => h.settles hinv.count, fun he => (h.step (fun k hk => hlive p k (hk ▸ hp)) he).1⟩
  have hinv := foldl_invariant_iff (fun g e => TimerEvent.Settles g e)
    (poolInv_initial soc regs) hstep
  constructor
  · intro hcons
    refine hinv.1 fun p => ?_
    induction p using List.reverseRecOn with
    | nil => exact fun _ => poolInv_initial soc regs
    | append_singleton p e ih =>
      intro hp
      have hp' := ih ((List.prefix_append _ _).trans hp)
      have hcount := (hcons p e hp).1.count
      rw [TimerP.run, foldl_concat] at hcount
      rw [foldl_concat]
      exact (hstep p e hp hp').2 (hp'.settles hcount)
  · intro hall p e hp
    have hp' := hinv.2 hall p ((List.prefix_append _ _).trans hp)
    rw [TimerP.run, TimerP.run, foldl_concat]
    exact (PoolInv.step hp' (fun k hk => hlive p k (hk ▸ hp)) (hall p e hp)).2

end Invariant

/-- A create of any timer of the AM62x, with the default parameters and a
tick function. -/
def createAny (registered : Bool) : TimerEvent .am62x := .create timerAny true none registered

/-- A timer made and given back, and made again. -/
theorem poolConserved_again : PoolConserved (fun _ => ⟨0, 0⟩)
    [createAny true, .delete ⟨0, by decide⟩, createAny true] := by
  refine (poolConserved_iff _ fun p k hp => ?_).2 ?_
  · match p with
    | [] => simp [createAny] at hp
    | [e] =>
      obtain ⟨rfl, rfl⟩ : e = createAny true ∧ k = ⟨0, by decide⟩ := by simpa using hp
      decide
    | [e, e'] => simp [createAny] at hp
    | e :: e' :: e'' :: p => simp at hp
  · have hok : ∀ g : TimerP .am62x, TimerLeft .am62x timerAny g.standingMask →
        (createAny true).Settles g := fun g hleft =>
      .inr ⟨hleft, ⟨fun _ => rfl, fun _ => by decide⟩, fun _ => rfl⟩
    exact forall_prefix_cons.2 ⟨hok _ (.inl ⟨rfl, 0, by decide⟩),
      forall_prefix_cons.2 ⟨trivial,
        forall_prefix_cons.2 ⟨hok _ (.inl ⟨rfl, 0, by decide⟩), forall_prefix_nil⟩⟩⟩

/-- An interrupt that cannot be registered once leaves the chip without a
timer: a struct is counted that is free, and no later create succeeds. -/
theorem not_poolConserved : (¬ ∀ regs (events : List (TimerEvent .am62x)),
      LiveDeletes regs events → PoolConserved regs events) ∧
    ((TimerP.run (fun _ => ⟨0, 0⟩) [createAny false]).create timerAny true none true).1 =
      none := by
  refine ⟨fun hall => ?_, by decide⟩
  have hlive : LiveDeletes (fun _ => ⟨0, 0⟩) [createAny false] := by
    intro p k hp
    match p with
    | [] => simp [createAny] at hp
    | e :: p => simp at hp
  have hcount := (hall _ _ hlive [] (createAny false) (by simp)).1.count
  exact absurd hcount (by decide)

end Amp

end ObcSdk
