import ObcSdk.Amp.TaskP
/-!
# The pool of tasks and the load accounting agree

A task struct is used exactly when the accounting has an entry for it, and
the entry is its own. So the load of a task can be asked for while its
struct is used, a task finds its own handle, and a struct is lost only
where a task deleted itself.
-/

namespace ObcSdk

namespace Amp

namespace TaskP

variable {m : TaskMemory} {s s' : TaskP} {i j : TaskId} {x : TaskStruct} {call : Call}
  {calls : List Call} {taskFxn current : ℕ} {params : TaskParams}

/-! ## Addresses -/

theorem handle_inj : m.handle i = m.handle j ↔ i = j := by
  have h : m.pool + 56 * (i : ℕ) = m.pool + 56 * (j : ℕ) ↔ (i : ℕ) = j := by omega
  exact h.trans Fin.ext_iff.symm

theorem handle_ne_zero : m.handle i ≠ 0 := by
  have hpos := m.pool_pos
  have h : m.pool + 56 * (i : ℕ) ≠ 0 := by omega
  exact h

theorem taskObj_inj : m.taskObj i = m.taskObj j ↔ i = j := by
  have hpos := m.sizeof_pos
  rw [TaskMemory.taskObj, TaskMemory.taskObj, Fin.ext_iff, Nat.add_left_cancel_iff,
    Nat.mul_right_inj (by omega)]

theorem taskObj_ne_zero : m.taskObj i ≠ 0 := by
  have hpos := m.objPool_pos
  rw [TaskMemory.taskObj]
  omega

/-! ## The books -/

/-- **The pool, the accounting and the kernel agree** on every task. -/
structure Agree (m : TaskMemory) (s : TaskP) : Prop where
  count : s.allocCnt = Slots.inUse s.used
  accounted : ∀ i, (s.load.taskLoadObj i).used = s.used i
  handle : ∀ i, s.used i = true → (s.load.taskLoadObj i).handle = m.handle i
  task : ∀ i, s.used i = true → (s.pool i).taskId = i ∧ (s.pool i).task = m.taskObj i
  running : ∀ i, s.running i = true → s.used i = true
  started : s.load.initDone = false → ∀ i, s.used i = false

theorem agree_initial : Agree m initial where
  count := (Slots.inUse_eq_zero_iff.2 fun _ => rfl).symm
  accounted _ := rfl
  handle i h := by cases h
  task i h := by cases h
  running i h := by cases h
  started _ _ := rfl

theorem write_used : (s.write i x).used = Function.update s.used i x.used := by
  funext j
  by_cases hj : j = i
  · subst hj
    simp [used, write]
  · simp [used, write, hj]

namespace Agree

/-- A pool that a create zeroes has no struct in use. -/
theorem zeroed (h : Agree m s) : Agree m s.zeroed := by
  rw [TaskP.zeroed]
  split
  · rename_i hcnt
    have hunused : ∀ i, s.used i = false := by
      rw [h.count] at hcnt
      exact Slots.inUse_eq_zero_iff.1 hcnt
    refine ⟨?_, fun i => ?_, fun i hi => ?_, fun i hi => ?_, fun i hi => ?_, fun _ _ => rfl⟩
    · change s.allocCnt = _
      rw [hcnt]
      exact (Slots.inUse_eq_zero_iff.2 fun _ => rfl).symm
    · change (s.load.taskLoadObj i).used = false
      rw [h.accounted, hunused]
    · cases hi
    · cases hi
    · cases hi
  · exact h

/-- A create that found a struct and could not make its task. -/
theorem refused (h : Agree m s) (hu : s.used i = false) (hx : x.used = false) :
    Agree m ((s.claim m i).giveBack i x) := by
  have hused : ((s.claim m i).giveBack i x).used = s.used := by
    change (((s.write i _).write i x)).used = s.used
    rw [write_used, write_used, Function.update_idem, hx, ← hu, Function.update_eq_self]
  have hpool : ∀ j, j ≠ i → ((s.claim m i).giveBack i x).pool j = s.pool j := by
    intro j hj
    simp [giveBack, claim, write, hj]
  have hne : ∀ j, s.used j = true → j ≠ i := by
    rintro j hj rfl
    rw [hu] at hj
    cases hj
  refine ⟨?_, fun j => ?_, fun j hj => ?_, fun j hj => ?_, fun j hj => ?_, fun hno => ?_⟩
  · rw [hused, ← h.count]
    exact Nat.add_sub_cancel s.allocCnt 1
  · rw [hused]
    exact h.accounted j
  · rw [hused] at hj
    exact h.handle j hj
  · rw [hused] at hj
    rw [hpool j (hne j hj)]
    exact h.task j hj
  · rw [hused]
    exact h.running j hj
  · rw [hused]
    exact h.started hno

/-- An entry that is added: the zeroing that comes with the first one finds
none in use. -/
theorem added (h : Agree m s) (i : TaskId) (handle : TaskHandle) :
    ((s.load.addTask handle i).taskLoadObj i = ⟨true, handle, 0, 0⟩) ∧
      ∀ j, j ≠ i → ((s.load.addTask handle i).taskLoadObj j).used = s.used j ∧
        (s.used j = true →
          ((s.load.addTask handle i).taskLoadObj j).handle = (s.load.taskLoadObj j).handle) := by
  rw [LoadP.addTask]
  refine ⟨by simp, fun j hj => ?_⟩
  simp only [Function.update_of_ne hj]
  by_cases hdone : s.load.initDone = true
  · rw [if_pos hdone]
    exact ⟨h.accounted j, fun _ => rfl⟩
  · rw [if_neg hdone]
    have hu := h.started (Bool.not_eq_true _ ▸ hdone) j
    refine ⟨hu.symm, fun hj' => ?_⟩
    rw [hu] at hj'
    cases hj'

/-- A create that made a task. -/
theorem launched (h : Agree m s) (hu : s.used i = false) (hx : x.used = true) (hid : x.taskId = i)
    (hobj : x.taskObj = m.taskObj i) {priority : UInt8} :
    Agree m ((s.claim m i).launch m i x priority) := by
  obtain ⟨hi, hothers⟩ := h.added i (m.handle i)
  have hload : ((s.claim m i).launch m i x priority).load = s.load.addTask (m.handle i) i := rfl
  have hused : ((s.claim m i).launch m i x priority).used = Function.update s.used i true := by
    change ((s.write i _).write i _).used = _
    rw [write_used, write_used, Function.update_idem]
    exact congrArg _ hx
  have hpool : ∀ j, j ≠ i → ((s.claim m i).launch m i x priority).pool j = s.pool j := by
    intro j hj
    simp [launch, claim, write, hj]
  have hself : ((s.claim m i).launch m i x priority).pool i = { x with task := x.taskObj } := by
    simp [launch, write]
  refine ⟨?_, fun j => ?_, fun j hj => ?_, fun j hj => ?_, fun j hj => ?_, fun hno => ?_⟩
  · rw [hused, Slots.inUse_update_true hu, ← h.count]
    rfl
  · rw [hload, hused]
    by_cases hji : j = i
    · rw [hji, hi, Function.update_self]
    · rw [Function.update_of_ne hji, (hothers j hji).1]
  · rw [hload]
    by_cases hji : j = i
    · rw [hji, hi]
    · rw [hused, Function.update_of_ne hji] at hj
      rw [(hothers j hji).2 hj, h.handle j hj]
  · by_cases hji : j = i
    · rw [hji, hself]
      exact ⟨hid, hobj⟩
    · rw [hused, Function.update_of_ne hji] at hj
      rw [hpool j hji]
      exact h.task j hj
  · rw [hused]
    by_cases hji : j = i
    · rw [hji, Function.update_self]
    · rw [Function.update_of_ne hji]
      refine h.running j ?_
      change Function.update s.running i true j = true at hj
      rwa [Function.update_of_ne hji] at hj
  · rw [hload, LoadP.addTask] at hno
    split at hno
    · rename_i hdone
      change s.load.initDone = false at hno
      rw [hdone] at hno
      cases hno
    · cases hno

/-- **A create keeps the books.** -/
theorem createTask (h : Agree m s) : Agree m (s.createTask m taskFxn params).1 := by
  have hz := h.zeroed
  rw [TaskP.createTask]
  simp only
  cases hfirst : Slots.firstUnused s.zeroed.used with
  | none => exact hz
  | some i =>
    have hu := Slots.firstUnused_eq_some hfirst
    have hpool : (s.zeroed.claim m i).pool i =
        { s.zeroed.pool i with used := true, taskObj := m.taskObj i } := by
      simp [claim, write]
    simp only
    split
    · exact hz.refused hu rfl
    · refine hz.launched hu ?_ rfl ?_
      · rw [hpool]
      · rw [hpool]

/-- **A delete keeps the books**, whether it returns or not. -/
theorem delete (h : Agree m s) {b : Bool} (hs : s.delete current i = some (s', b)) :
    Agree m s' := by
  rw [TaskP.delete] at hs
  simp only at hs
  split at hs
  · obtain ⟨rfl, -⟩ : s = s' ∧ false = b := by simpa using hs
    exact h
  rename_i hu
  have hu : s.used i = true := by
    rw [used]
    simpa using hu
  split at hs
  · cases hs
  obtain ⟨hid, -⟩ := h.task i hu
  split at hs
  · -- a task that deletes itself keeps its struct, and its entry
    obtain ⟨rfl, -⟩ : _ = s' ∧ true = b := by simpa using hs
    refine ⟨h.count, h.accounted, h.handle, h.task, fun j hj => ?_, h.started⟩
    by_cases hji : j = i
    · rw [hji]
      exact hu
    · refine h.running j ?_
      change Function.update s.running i false j = true at hj
      rwa [Function.update_of_ne hji] at hj
  · obtain ⟨hs, -⟩ : _ = s' ∧ true = b := by simpa using hs
    have hused : s'.used = Function.update s.used i false := by
      rw [← hs]
      exact write_used
    have hload : s'.load = s.load.removeTask i := by
      have hremoved : s'.load = s.load.removeTask (s.pool i).taskId := by
        rw [← hs]
        rfl
      rw [hremoved, hid]
    have hpool : ∀ j, j ≠ i → s'.pool j = s.pool j := by
      intro j hj
      rw [← hs]
      simp [giveBack, write, hj]
    have hrunning : s'.running = Function.update s.running i false := by
      rw [← hs]
      rfl
    refine ⟨?_, fun j => ?_, fun j hj => ?_, fun j hj => ?_, fun j hj => ?_, fun hno j => ?_⟩
    · have hless := Slots.inUse_update_false hu
      have hcount := h.count
      have hcnt : s'.allocCnt = s.allocCnt - 1 := by
        rw [← hs]
        rfl
      rw [hused, hcnt]
      omega
    · rw [hused, hload, LoadP.removeTask]
      by_cases hji : j = i
      · simp [hji]
      · simp only [Function.update_of_ne hji]
        exact h.accounted j
    · rw [hused] at hj
      by_cases hji : j = i
      · rw [hji, Function.update_self] at hj
        cases hj
      · rw [Function.update_of_ne hji] at hj
        rw [hload, LoadP.removeTask]
        simp only [Function.update_of_ne hji]
        exact h.handle j hj
    · rw [hused] at hj
      by_cases hji : j = i
      · rw [hji, Function.update_self] at hj
        cases hj
      · rw [Function.update_of_ne hji] at hj
        rw [hpool j hji]
        exact h.task j hj
    · rw [hrunning] at hj
      rw [hused]
      by_cases hji : j = i
      · rw [hji, Function.update_self] at hj
        cases hj
      · rw [Function.update_of_ne hji] at hj ⊢
        exact h.running j hj
    · rw [hused]
      by_cases hji : j = i
      · rw [hji, Function.update_self]
      · rw [Function.update_of_ne hji]
        rw [hload] at hno
        exact h.started hno j

theorem finish (h : Agree m s) : Agree m (s.finish i) := by
  have hused : (s.finish i).used = s.used := by
    rw [TaskP.finish, write_used]
    exact Function.update_eq_self i s.used
  refine ⟨?_, fun j => ?_, fun j hj => ?_, fun j hj => ?_, fun j hj => ?_, fun hno => ?_⟩
  · rw [hused]
    exact h.count
  · rw [hused]
    exact h.accounted j
  · rw [hused] at hj
    exact h.handle j hj
  · rw [hused] at hj
    by_cases hji : j = i
    · rw [hji] at hj ⊢
      simpa [TaskP.finish, write] using h.task i hj
    · simpa [TaskP.finish, write, hji] using h.task j hj
  · rw [hused]
    exact h.running j hj
  · rw [hused]
    exact h.started hno

theorem reset (h : Agree m s) : Agree m { s with load := s.load.reset } := by
  have hentry : ∀ j, (s.load.reset.taskLoadObj j).used = (s.load.taskLoadObj j).used ∧
      (s.load.reset.taskLoadObj j).handle = (s.load.taskLoadObj j).handle := by
    intro j
    simp only [LoadP.reset]
    split <;> exact ⟨rfl, rfl⟩
  exact ⟨h.count, fun j => (hentry j).1.trans (h.accounted j),
    fun j hj => (hentry j).2.trans (h.handle j hj), h.task, h.running, h.started⟩

/-- What an update leaves of an entry. -/
theorem updated (h : Agree m s) (c : Counters) (j : TaskId) :
    ((s.load.update c).taskLoadObj j).used = s.used j ∧
      (s.used j = true → ((s.load.update c).taskLoadObj j).handle = m.handle j) := by
  have htask : ∀ x, (LoadP.updateTask c x).used = x.used ∧
      (LoadP.updateTask c x).handle = x.handle := by
    intro x
    rw [LoadP.updateTask]
    split <;> exact ⟨rfl, rfl⟩
  rw [LoadP.update]
  simp only
  rw [(htask _).1, (htask _).2]
  by_cases hdone : s.load.initDone = true
  · rw [if_pos hdone]
    exact ⟨h.accounted j, h.handle j⟩
  · rw [if_neg hdone]
    have hu := h.started (Bool.not_eq_true _ ▸ hdone) j
    refine ⟨hu.symm, fun hj => ?_⟩
    rw [hu] at hj
    cases hj

theorem update (h : Agree m s) {c : Counters} : Agree m { s with load := s.load.update c } := by
  refine ⟨h.count, fun j => (h.updated c j).1, fun j => (h.updated c j).2, h.task, h.running,
    fun hno => ?_⟩
  refine h.started ?_
  change (s.load.update c).initDone = false at hno
  rw [LoadP.update] at hno
  simp only at hno
  split at hno
  · exact hno
  · rename_i hdone
    simpa using hdone

/-- **Every call keeps the books.** -/
theorem step (h : Agree m s) (hs : s.step m call = some s') : Agree m s' := by
  cases call with
  | create taskFxn params =>
    obtain ⟨r, hr, rfl⟩ := Option.map_eq_some_iff.1 hs
    rw [create] at hr
    split at hr
    · cases hr
    · obtain rfl := Option.some.inj hr
      exact h.createTask
  | delete current i =>
    obtain ⟨⟨s₁, b⟩, hd, rfl⟩ := Option.map_eq_some_iff.1 hs
    exact h.delete hd
  | finish i =>
    obtain rfl := Option.some.inj hs
    exact h.finish
  | loadReset =>
    obtain rfl := Option.some.inj hs
    exact h.reset
  | loadUpdate c =>
    rw [TaskP.step] at hs
    split at hs
    · obtain rfl := Option.some.inj hs
      exact h.update
    · cases hs

/-- An update of the load is not stopped. -/
theorem updateReturns (h : Agree m s) : s.UpdateReturns m := by
  intro _ i hi _
  rw [h.accounted] at hi
  exact ⟨i, (h.handle i hi).symm, hi⟩

theorem run (h : Agree m s) (hs : s.run m calls = some s') : Agree m s' := by
  induction calls generalizing s with
  | nil =>
    obtain rfl := Option.some.inj hs
    exact h
  | cons call calls ih =>
    obtain ⟨s₁, hstep, hrest⟩ := Option.bind_eq_some_iff.1 hs
    exact ih (h.step hstep) hrest

end Agree

/-! ## What the calls answer -/

/-- A struct that a task left behind when it deleted itself. -/
def Lost (s : TaskP) (i : TaskId) : Prop := s.used i = true ∧ s.running i = false

/-- **What a caller may rely on** in a state of the tasks. -/
structure Served (m : TaskMemory) (s : TaskP) : Prop where
  /-- The load of a task can be asked for while its struct is used. -/
  load : ∀ c i, s.used i = true → ∃ r, s.getTaskLoad m c i = some r ∧ r.2 ≠ some none
  /-- No assertion stops the update of the load. -/
  update : ∀ c, (s.step m (.loadUpdate c)).isSome = true
  /-- What the update reads of a task is that task's run time. -/
  runTime : ∀ (c : KernelCounters) i, s.used i = true →
    (s.counters m c).thread (m.handle i) = c.runTime (m.taskObj i)
  /-- A task finds its own handle. -/
  self : ∀ i, s.running i = true → s.self m (m.taskObj i) = m.handle i
  /-- A create returns `NULL` exactly where all structs are of tasks that
  run, or lost. -/
  null_iff : ∀ taskFxn params r, s.create m taskFxn params = some r →
    (r.2 = 0 ↔ ∀ i, s.running i = true ∨ Lost s i)
  /-- A create returns the handle of a struct that nobody had. -/
  fresh : ∀ taskFxn params r i, s.create m taskFxn params = some r → r.2 = m.handle i →
    s.used i = false

theorem threadCounter_handle {runTime : ℕ → UInt32} :
    s.threadCounter m runTime (m.handle i) = runTime (s.pool i).task := by
  rw [threadCounter]
  cases hfind : (List.finRange osalFreertosConfignumTask).find?
      (fun j => decide (m.handle j = m.handle i)) with
  | none =>
    have hnone := List.find?_eq_none.1 hfind i (List.mem_finRange i)
    simp at hnone
  | some j =>
    have hsome := List.find?_some hfind
    rw [decide_eq_true_eq, handle_inj] at hsome
    rw [hsome]

/-- A create, where it finds a struct and where it finds none. -/
theorem createTask_snd (h : Agree m s) : (s.createTask m taskFxn params).2 =
    match Slots.firstUnused s.used with
    | none => 0
    | some i => if params.stack = 0 then 0 else m.handle i := by
  have hused : s.zeroed.used = s.used := by
    rw [zeroed]
    split
    · rename_i hcnt
      rw [h.count, Slots.inUse_eq_zero_iff] at hcnt
      funext i
      exact (hcnt i).symm
    · rfl
  rw [createTask]
  simp only [hused]
  cases Slots.firstUnused s.used with
  | none => rfl
  | some i =>
    simp only
    split <;> rfl

/-- A create that returns was called with a function and a stack. -/
theorem create_snd (h : Agree m s) {r : TaskP × TaskHandle}
    (hr : s.create m taskFxn params = some r) : r.2 =
      match Slots.firstUnused s.used with
      | none => 0
      | some i => m.handle i := by
  rw [create] at hr
  split at hr
  · cases hr
  rename_i hargs
  obtain rfl := Option.some.inj hr
  rw [createTask_snd h]
  simp only [if_neg (not_or.1 hargs).2]

theorem Agree.served (h : Agree m s) : Served m s where
  load c i hi := by
    have hupdated := h.updated (s.counters m c) i
    refine ⟨_, if_pos ⟨h.updateReturns, hi⟩, ?_⟩
    rw [LoadP.getTaskLoad, if_pos ⟨rfl, handle_ne_zero⟩]
    simp only
    rw [(h.task i hi).1, if_pos ⟨hupdated.1.trans hi, hupdated.2 hi⟩]
    simp
  update c := by
    rw [TaskP.step, if_pos h.updateReturns]
    rfl
  runTime c i hi := by
    change s.threadCounter m c.runTime (m.handle i) = _
    rw [threadCounter_handle, (h.task i hi).2]
  self i hi := by
    have hu := h.running i hi
    have htask := (h.task i hu).2
    rw [self, if_neg taskObj_ne_zero]
    cases hfind : (List.finRange osalFreertosConfignumTask).find?
        (fun j => decide ((s.pool j).used = true ∧ (s.pool j).task = m.taskObj i)) with
    | none =>
      have hnone := List.find?_eq_none.1 hfind i (List.mem_finRange i)
      rw [decide_eq_true_eq] at hnone
      exact absurd ⟨hu, htask⟩ hnone
    | some j =>
      have hsome := List.find?_some hfind
      rw [decide_eq_true_eq] at hsome
      have hj := (h.task j hsome.1).2
      rw [hsome.2, taskObj_inj] at hj
      rw [hj]
  null_iff taskFxn params r hr := by
    have hall : (∀ i, s.running i = true ∨ Lost s i) ↔ ∀ i, s.used i = true := by
      refine forall_congr' fun i => ⟨?_, fun hu => ?_⟩
      · rintro (hr | hl)
        · exact h.running i hr
        · exact hl.1
      · cases hr : s.running i with
        | true => exact .inl rfl
        | false => exact .inr ⟨hu, hr⟩
    rw [create_snd h hr, hall, ← Slots.firstUnused_eq_none_iff]
    cases Slots.firstUnused s.used with
    | none => simp
    | some i => simp [handle_ne_zero]
  fresh taskFxn params r i hr hi := by
    rw [create_snd h hr] at hi
    cases hfirst : Slots.firstUnused s.used with
    | none =>
      rw [hfirst] at hi
      exact absurd hi.symm handle_ne_zero
    | some j =>
      rw [hfirst] at hi
      rw [← handle_inj.1 hi]
      exact Slots.firstUnused_eq_some hfirst

/-! ## Structs that are lost -/

variable (taskFxn params) in
/-- A create leaves the structs in use alone. -/
theorem createTask_kept (h : Agree m s) (hi : s.used i = true) :
    (s.createTask m taskFxn params).1.used i = true ∧
      (s.createTask m taskFxn params).1.running i = s.running i := by
  have hzeroed : s.zeroed = s := by
    refine if_neg fun hcnt => ?_
    rw [h.count, Slots.inUse_eq_zero_iff] at hcnt
    rw [hcnt i] at hi
    cases hi
  rw [createTask]
  simp only [hzeroed]
  cases hfirst : Slots.firstUnused s.used with
  | none => exact ⟨hi, rfl⟩
  | some j =>
    have hne : i ≠ j := by
      rintro rfl
      rw [Slots.firstUnused_eq_some hfirst] at hi
      cases hi
    have hkept : ∀ x y, ((s.write j x).write j y).used i = true := by
      intro x y
      rwa [write_used, write_used, Function.update_idem, Function.update_of_ne hne]
    simp only
    split
    · exact ⟨hkept _ _, rfl⟩
    · exact ⟨hkept _ _, Function.update_of_ne hne _ _⟩

/-- **A struct that is lost stays lost.** -/
theorem Lost.step (hl : Lost s i) (h : Agree m s) (hs : s.step m call = some s') : Lost s' i := by
  obtain ⟨hu, hr⟩ := hl
  cases call with
  | create taskFxn params =>
    obtain ⟨r, hr', rfl⟩ := Option.map_eq_some_iff.1 hs
    rw [create] at hr'
    split at hr'
    · cases hr'
    · obtain rfl := Option.some.inj hr'
      obtain ⟨hu', hr'⟩ := createTask_kept taskFxn params h hu
      exact ⟨hu', hr'.trans hr⟩
  | delete current j =>
    obtain ⟨⟨s₁, b⟩, hd, rfl⟩ := Option.map_eq_some_iff.1 hs
    rw [delete] at hd
    simp only at hd
    split at hd
    · obtain ⟨rfl, -⟩ : s = s₁ ∧ false = b := by simpa using hd
      exact ⟨hu, hr⟩
    split at hd
    · cases hd
    rename_i hrun
    have hne : i ≠ j := by
      rintro rfl
      exact hrun hr
    split at hd
    · obtain ⟨rfl, -⟩ : _ = s₁ ∧ true = b := by simpa using hd
      exact ⟨hu, (Function.update_of_ne hne _ _).trans hr⟩
    · obtain ⟨rfl, -⟩ : _ = s₁ ∧ true = b := by simpa using hd
      refine ⟨?_, (Function.update_of_ne hne _ _).trans hr⟩
      exact (congrFun write_used i).trans ((Function.update_of_ne hne _ _).trans hu)
  | finish j =>
    obtain rfl := Option.some.inj hs
    refine ⟨?_, hr⟩
    rw [finish, write_used]
    exact (congrFun (Function.update_eq_self j s.used) i).trans hu
  | loadReset =>
    obtain rfl := Option.some.inj hs
    exact ⟨hu, hr⟩
  | loadUpdate c =>
    rw [TaskP.step] at hs
    split at hs
    · obtain rfl := Option.some.inj hs
      exact ⟨hu, hr⟩
    · cases hs

theorem Lost.run (hl : Lost s i) (h : Agree m s) (hs : s.run m calls = some s') : Lost s' i := by
  induction calls generalizing s with
  | nil =>
    obtain rfl := Option.some.inj hs
    exact hl
  | cons call calls ih =>
    obtain ⟨s₁, hstep, hrest⟩ := Option.bind_eq_some_iff.1 hs
    exact ih (hl.step h hstep) (h.step hstep) hrest

/-- **Every task is served as its caller may expect**, after any calls, and
the struct of a task that deleted itself never comes back. -/
theorem tasks_served (m : TaskMemory) (calls : List Call) (s : TaskP)
    (hs : initial.run m calls = some s) :
    Served m s ∧ ∀ p s₀ i, p <+: calls → initial.run m p = some s₀ → Lost s₀ i → Lost s i := by
  refine ⟨(agree_initial.run hs).served, ?_⟩
  rintro p s₀ i ⟨q, rfl⟩ hp hl
  rw [run, List.foldlM_append] at hs
  obtain ⟨s₁, hs₁, hq⟩ := Option.bind_eq_some_iff.1 hs
  obtain rfl : s₁ = s₀ := Option.some.inj (hs₁.symm.trans hp)
  exact hl.run (agree_initial.run hp) hq

def sampleMemory : TaskMemory := ⟨0x1000, 0x8000, 256, by decide, by decide, by decide⟩

def firstTask : TaskId := ⟨0, zero_lt_numTask⟩

/-- Two tasks, of which the first deletes itself, and an update of the
load. -/
def sampleCalls : List Call :=
  [.create 0x400 ⟨0x9000, 3, 0, 0⟩, .create 0x500 ⟨0xA000, 200, 1, 2⟩,
    .delete (sampleMemory.taskObj firstTask) firstTask,
    .loadUpdate ⟨7, 9, fun _ => 1⟩]

theorem sampleCalls_run : (initial.run sampleMemory sampleCalls).isSome = true := by
  decide +kernel

theorem tasks_served_sample :
    Served sampleMemory ((initial.run sampleMemory sampleCalls).get sampleCalls_run) ∧
      ∀ p s₀ i, p <+: sampleCalls → initial.run sampleMemory p = some s₀ → Lost s₀ i →
        Lost ((initial.run sampleMemory sampleCalls).get sampleCalls_run) i :=
  tasks_served sampleMemory sampleCalls _ (Option.some_get sampleCalls_run).symm

end TaskP

end Amp

end ObcSdk
