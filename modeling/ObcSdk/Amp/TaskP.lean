import ObcSdk.Amp.LoadP
import ObcSdk.Lib.Slots
/-!
# Tasks on the A53 core

`TaskP_freertos.c`, over the load accounting it reports to: the pool of
task structs, what creating and deleting do to it, and the calls that look
a task up. One call runs at a time. Of the kernel, the model has which of
the static task objects hold a task that runs. A call gives no result
where an assertion stops it, and where the kernel leaves it undefined.
-/

namespace ObcSdk

namespace Amp

/-- Where the two arrays are: `gOsalTaskPfreertosPool` with its structs of
56 bytes, and `gOsalFreertosTaskObjPool`. -/
structure TaskMemory where
  pool : ℕ
  objPool : ℕ
  sizeofStaticTask : ℕ
  pool_pos : 0 < pool
  objPool_pos : 0 < objPool
  sizeof_pos : 0 < sizeofStaticTask

/-- The `TaskP_Handle` of a struct. -/
def TaskMemory.handle (m : TaskMemory) (i : TaskId) : TaskHandle := m.pool + 56 * i

/-- The address of a static task object, which is the `TaskHandle_t` of a
task in it. -/
def TaskMemory.taskObj (m : TaskMemory) (i : TaskId) : ℕ := m.objPool + m.sizeofStaticTask * i

/-- `TaskP_freertos`, zero for `NULL`. -/
structure TaskStruct where
  used : Bool
  taskId : TaskId
  taskObj : ℕ
  task : ℕ
  taskFxn : ℕ
  arg0 : ℕ
  arg1 : ℕ
  terminated : Bool

theorem zero_lt_numTask : 0 < osalFreertosConfignumTask := Nat.zero_lt_succ _

/-- A struct with all its bytes zero. -/
def TaskStruct.zero : TaskStruct := ⟨false, ⟨0, zero_lt_numTask⟩, 0, 0, 0, 0, 0, false⟩

/-- `TaskP_Params`, with the fields a create reads; the task's name, the
depth of its stack and its user data go to the kernel as they are. -/
structure TaskParams where
  stack : ℕ
  priority : UInt8
  arg0 : ℕ
  arg1 : ℕ

/-- `TaskP_PRIORITY_HIGHEST`. -/
def taskPriorityHighest : UInt8 := 15
/-- `TaskP_PRIORITY_LOWEST`. -/
def taskPriorityLowest : UInt8 := 0

/-- The priority a create hands to the kernel. -/
def TaskParams.kernelPriority (p : TaskParams) : UInt8 :=
  let priority := if taskPriorityHighest < p.priority then taskPriorityHighest else p.priority
  if priority ≤ taskPriorityLowest then taskPriorityLowest else priority

/-- The variables, and the kernel's side: which task objects hold a task,
and the priorities of these. -/
structure TaskP where
  pool : TaskId → TaskStruct
  allocCnt : ℕ
  peak : ℕ
  load : LoadP
  running : TaskId → Bool
  priority : TaskId → UInt8

namespace TaskP

variable (m : TaskMemory)

/-- Before the first call. -/
def initial : TaskP where
  pool := fun _ => .zero
  allocCnt := 0
  peak := 0
  load := .initial
  running := fun _ => false
  priority := fun _ => 0

/-- Which structs are used. -/
def used (s : TaskP) (i : TaskId) : Bool := (s.pool i).used

/-- A struct is written. -/
def write (s : TaskP) (i : TaskId) (x : TaskStruct) : TaskP :=
  { s with pool := Function.update s.pool i x }

/-- A create's `memset` of the two arrays, where the count is zero. -/
def zeroed (s : TaskP) : TaskP :=
  if s.allocCnt = 0 then { s with pool := fun _ => .zero, running := fun _ => false } else s

/-- A struct is given back, and the count goes down with it. -/
def giveBack (s : TaskP) (i : TaskId) (x : TaskStruct) : TaskP :=
  { s.write i x with allocCnt := s.allocCnt - 1 }

/-- The critical section of a create, for the struct it found. -/
def claim (s : TaskP) (i : TaskId) : TaskP :=
  { s.write i { s.pool i with used := true, taskObj := m.taskObj i } with
    allocCnt := s.allocCnt + 1
    peak := max s.peak (s.allocCnt + 1) }

/-- The kernel makes the task of a struct, and the load accounting has it. -/
def launch (s : TaskP) (i : TaskId) (x : TaskStruct) (priority : UInt8) : TaskP :=
  { s.write i { x with task := x.taskObj } with
    load := s.load.addTask (m.handle i) i
    running := Function.update s.running i true
    priority := Function.update s.priority i priority }

/-- `TaskP_create` behind its assertions, and the handle it returns. -/
def createTask (taskFxn : ℕ) (params : TaskParams) (s : TaskP) : TaskP × TaskHandle :=
  let s := s.zeroed
  match Slots.firstUnused s.used with
  | none => (s, 0)
  | some i =>
    let s := s.claim m i
    let x : TaskStruct :=
      { s.pool i with
        taskId := i
        taskFxn := taskFxn
        arg0 := params.arg0
        arg1 := params.arg1
        terminated := false }
    -- the kernel makes no task without a stack
    if params.stack = 0 then
      (s.giveBack i { x with task := 0, used := false }, 0)
    else
      (s.launch m i x params.kernelPriority, m.handle i)

/-- `TaskP_create`. -/
def create (taskFxn : ℕ) (params : TaskParams) (s : TaskP) : Option (TaskP × TaskHandle) :=
  if taskFxn = 0 ∨ params.stack = 0 then none else some (s.createTask m taskFxn params)

/-- `TaskP_delete` of a struct, by the task whose `TaskHandle_t` is
`current`: the state and whether it returned `TaskP_OK`. A task that
deletes itself does not get to return, and keeps its struct. -/
def delete (current : ℕ) (i : TaskId) (s : TaskP) : Option (TaskP × Bool) :=
  let x := s.pool i
  if x.used = false then some (s, false)
  else if s.running i = false then none
  else
    let s := { s with running := Function.update s.running i false }
    if current = x.task then some (s, true)
    else
      let s := { s with load := s.load.removeTask x.taskId }
      some (s.giveBack i
        { x with used := false, taskObj := 0, task := 0, taskFxn := 0, arg0 := 0, arg1 := 0 }, true)

/-- The end of `TaskP_Function`, which the task's function returned to. -/
def finish (i : TaskId) (s : TaskP) : TaskP :=
  s.write i { s.pool i with terminated := true }

/-- `TaskP_self`, for the task whose `TaskHandle_t` is `xTask`. -/
def self (xTask : ℕ) (s : TaskP) : TaskHandle :=
  if xTask = 0 then 0
  else
    match (List.finRange osalFreertosConfignumTask).find? fun i =>
        (s.pool i).used ∧ (s.pool i).task = xTask with
    | some i => m.handle i
    | none => 0

/-- What the update of the load reads for a handle: the run time of the
task that the handle's struct names, as `vTaskGetInfo` has it. -/
def threadCounter (runTime : ℕ → UInt32) (s : TaskP) (handle : TaskHandle) : UInt32 :=
  match (List.finRange osalFreertosConfignumTask).find? fun i => m.handle i = handle with
  | some i => runTime (s.pool i).task
  | none => 0

/-- What the counters of the kernel read, by `TaskHandle_t`. -/
structure KernelCounters where
  idle : UInt32
  total : UInt32
  runTime : ℕ → UInt32

/-- What an update of the load reads. -/
def counters (c : KernelCounters) (s : TaskP) : Counters where
  idle := c.idle
  total := c.total
  thread := s.threadCounter m c.runTime

/-- No assertion stops an update of the load: the tasks it asks for have
used structs. -/
def UpdateReturns (s : TaskP) : Prop :=
  s.load.initDone = true → ∀ i, (s.load.taskLoadObj i).used = true →
    (s.load.taskLoadObj i).handle ≠ 0 →
      ∃ j, m.handle j = (s.load.taskLoadObj i).handle ∧ s.used j = true

instance (s : TaskP) : Decidable (s.UpdateReturns m) :=
  inferInstanceAs (Decidable (_ → ∀ _, _ → _ → ∃ _, _))

/-- A call, or the return of a task's function. -/
inductive Call where
  | create (taskFxn : ℕ) (params : TaskParams)
  | delete (current : ℕ) (i : TaskId)
  | finish (i : TaskId)
  | loadReset
  | loadUpdate (c : KernelCounters)

/-- One call. -/
def step (s : TaskP) : Call → Option TaskP
  | .create taskFxn params => (s.create m taskFxn params).map Prod.fst
  | .delete current i => (s.delete current i).map Prod.fst
  | .finish i => some (s.finish i)
  | .loadReset => some { s with load := s.load.reset }
  | .loadUpdate c =>
    if s.UpdateReturns m then some { s with load := s.load.update (s.counters m c) } else none

/-- A run of calls, one after the other. -/
def run (s : TaskP) (calls : List Call) : Option TaskP :=
  calls.foldlM (step m) s

/-- `LoadP_getTaskLoad` of a struct's handle. -/
def getTaskLoad (c : KernelCounters) (i : TaskId) (s : TaskP) :
    Option (LoadP × Option (Option LoadP.Stats)) :=
  if s.UpdateReturns m ∧ s.used i = true then
    some (s.load.getTaskLoad (m.handle i) (s.pool i).taskId true (s.counters m c))
  else none

end TaskP

end Amp

end ObcSdk
