import ObcSdk.Amp.LoadP
import ObcSdk.Lib.Runs
/-!
# How exact the load accounting is

The sums are those of the true run times as long as no counter has
wrapped. Where one has, the difference of its two readings is taken one
too small, since `0xFFFFFFFF` is one less than the counter's period, and
the sum stays behind from then on.
-/

namespace ObcSdk

namespace Amp

/-- The true run times; the counters read them modulo `2 ^ 32`. -/
structure TrueCounters where
  idle : ℕ
  total : ℕ
  thread : TaskHandle → ℕ

def TrueCounters.read (c : TrueCounters) : Counters where
  idle := UInt32.ofNat c.idle
  total := UInt32.ofNat c.total
  thread := fun h => UInt32.ofNat (c.thread h)

/-- What the sums change with. -/
inductive LoadEvent where
  | addTask (handle : TaskHandle) (taskId : TaskId)
  | removeTask (taskId : TaskId)
  | reset
  | update (c : TrueCounters)

def LoadP.step (s : LoadP) : LoadEvent → LoadP
  | .addTask handle taskId => s.addTask handle taskId
  | .removeTask taskId => s.removeTask taskId
  | .reset => s.reset
  | .update c => s.update c.read

/-- The true run times as the sums should have them: at the last update,
and at the last one before the last reset, where the span to be measured
begins. A task's begins at zero where it was added since. -/
structure Truth where
  idle : ℕ
  total : ℕ
  thread : TaskId → ℕ
  idleSince : ℕ
  totalSince : ℕ
  threadSince : TaskId → ℕ

def Truth.start : Truth := ⟨0, 0, fun _ => 0, 0, 0, fun _ => 0⟩

/-- The sums and what they should be. -/
structure Accounts where
  load : LoadP
  truth : Truth

def Accounts.step (a : Accounts) (e : LoadEvent) : Accounts where
  load := a.load.step e
  truth := match e with
    | .addTask _ taskId =>
      { a.truth with
        thread := Function.update a.truth.thread taskId 0
        threadSince := Function.update a.truth.threadSince taskId 0 }
    | .removeTask _ => a.truth
    | .reset =>
      { a.truth with
        idleSince := a.truth.idle
        totalSince := a.truth.total
        threadSince := a.truth.thread }
    | .update c =>
      { a.truth with
        idle := c.idle
        total := c.total
        thread := fun i => c.thread (a.load.taskLoadObj i).handle }

/-- A run that starts with a task added. -/
def Accounts.run (handle : TaskHandle) (taskId : TaskId) (events : List LoadEvent) : Accounts :=
  events.foldl Accounts.step ⟨LoadP.initial.addTask handle taskId, .start⟩

/-- A task in use, whose counter is read. -/
def LoadP.InUse (s : LoadP) (i : TaskId) : Prop :=
  (s.taskLoadObj i).used = true ∧ (s.taskLoadObj i).handle ≠ 0

/-- **The sums are right**: they are what the run times advanced by over
the span. -/
structure Balanced (a : Accounts) : Prop where
  idle : a.load.idlTskTime.toNat + a.truth.idleSince = a.truth.idle
  total : a.load.totalTime.toNat + a.truth.totalSince = a.truth.total
  thread : ∀ i, a.load.InUse i →
    (a.load.taskLoadObj i).threadTime.toNat + a.truth.threadSince i = a.truth.thread i

/-- The run times go on, by less than a counter's period. -/
structure Advances (a : Accounts) (c : TrueCounters) : Prop where
  idle : a.truth.idle ≤ c.idle ∧ c.idle < a.truth.idle + 2 ^ 32
  total : a.truth.total ≤ c.total ∧ c.total < a.truth.total + 2 ^ 32
  thread : ∀ i, a.load.InUse i → a.truth.thread i ≤ c.thread (a.load.taskLoadObj i).handle ∧
    c.thread (a.load.taskLoadObj i).handle < a.truth.thread i + 2 ^ 32

/-- No counter that is read has wrapped. -/
structure Unwrapped (s : LoadP) (c : TrueCounters) : Prop where
  idle : c.idle < 2 ^ 32
  total : c.total < 2 ^ 32
  thread : ∀ i, s.InUse i → c.thread (s.taskLoadObj i).handle < 2 ^ 32

/-- The run times of a run go on. -/
def TimeGoesOn (handle : TaskHandle) (taskId : TaskId) (events : List LoadEvent) : Prop :=
  ∀ p c, p ++ [.update c] <+: events → Advances (.run handle taskId p) c

/-- **The accounting is exact**: after every update the sums are right. -/
def ExactLoad (handle : TaskHandle) (taskId : TaskId) (events : List LoadEvent) : Prop :=
  ∀ p c, p ++ [.update c] <+: events → Balanced (.run handle taskId (p ++ [.update c]))

/-- No update comes after a counter has wrapped. -/
def NeverWrapped (handle : TaskHandle) (taskId : TaskId) (events : List LoadEvent) : Prop :=
  ∀ p c, p ++ [.update c] <+: events → Unwrapped (Accounts.run handle taskId p).load c

/-- What the sums rest on: right sums, of counters not wrapped yet, and
the last readings those of the last update. -/
structure Sound (a : Accounts) : Prop where
  initDone : a.load.initDone = true
  balanced : Balanced a
  idle : a.load.lastUpdateIdlTskTime = UInt32.ofNat a.truth.idle ∧ a.truth.idle < 2 ^ 32
  total : a.load.lastUpdateTotalTime = UInt32.ofNat a.truth.total ∧ a.truth.total < 2 ^ 32
  thread : ∀ i, a.load.InUse i →
    (a.load.taskLoadObj i).lastUpdateThreadTime = UInt32.ofNat (a.truth.thread i) ∧
      a.truth.thread i < 2 ^ 32

section Accounting

variable {a : Accounts} {c : TrueCounters} {sum : UInt64} {last : UInt32} {t since n : ℕ}
  {i taskId : TaskId} {handle : TaskHandle} {events p : List LoadEvent}

/-- **A sum with a difference added** is right exactly where the counter has
not wrapped. -/
theorem sum_add_iff (hlast : last = UInt32.ofNat t ∧ t < 2 ^ 32) (hsum : sum.toNat + since = t)
    (hadv : t ≤ n ∧ n < t + 2 ^ 32) :
    (sum + (calcCounterDiff (UInt32.ofNat n) last).toUInt64).toNat + since = n ↔ n < 2 ^ 32 := by
  have hdiff := toNat_calcCounterDiff hlast.1 rfl hlast.2 hadv.1 hadv.2
  have hlt := (calcCounterDiff (UInt32.ofNat n) last).toNat_lt
  have hadd : (sum + (calcCounterDiff (UInt32.ofNat n) last).toUInt64).toNat =
      sum.toNat + (calcCounterDiff (UInt32.ofNat n) last).toNat := by
    rw [UInt64.toNat_add, UInt32.toNat_toUInt64, Nat.mod_eq_of_lt (by omega)]
  rw [hadd, hdiff]
  split <;> omega

variable (handle taskId) in
/-- **A task added** is right from zero on. -/
theorem Sound.addTask (h : Sound a) : Sound (a.step (.addTask handle taskId)) := by
  have hload : (a.step (.addTask handle taskId)).load =
      { a.load with
        taskLoadObj := Function.update a.load.taskLoadObj taskId ⟨true, handle, 0, 0⟩ } := by
    rw [Accounts.step, LoadP.step, LoadP.addTask, if_pos h.initDone]
  have hnew : (a.step (.addTask handle taskId)).load.taskLoadObj taskId = ⟨true, handle, 0, 0⟩ ∧
      (a.step (.addTask handle taskId)).truth.thread taskId = 0 ∧
      (a.step (.addTask handle taskId)).truth.threadSince taskId = 0 := by
    rw [hload]
    exact ⟨Function.update_self _ _ _, Function.update_self _ _ _, Function.update_self _ _ _⟩
  have hold : ∀ i, i ≠ taskId →
      (a.step (.addTask handle taskId)).load.taskLoadObj i = a.load.taskLoadObj i ∧
      (a.step (.addTask handle taskId)).truth.thread i = a.truth.thread i ∧
      (a.step (.addTask handle taskId)).truth.threadSince i = a.truth.threadSince i := by
    intro i hi
    rw [hload]
    exact ⟨Function.update_of_ne hi _ _, Function.update_of_ne hi _ _,
      Function.update_of_ne hi _ _⟩
  refine ⟨?_, ⟨?_, ?_, fun i hi => ?_⟩, ?_, ?_, fun i hi => ?_⟩
  · rw [hload]
    exact h.initDone
  · rw [hload]
    exact h.balanced.idle
  · rw [hload]
    exact h.balanced.total
  · by_cases heq : i = taskId
    · subst heq
      rw [hnew.1, hnew.2.1, hnew.2.2]
      rfl
    · rw [LoadP.InUse, (hold i heq).1] at hi
      rw [(hold i heq).1, (hold i heq).2.1, (hold i heq).2.2]
      exact h.balanced.thread i hi
  · rw [hload]
    exact h.idle
  · rw [hload]
    exact h.total
  · by_cases heq : i = taskId
    · subst heq
      rw [hnew.1, hnew.2.1]
      exact ⟨rfl, by decide⟩
    · rw [LoadP.InUse, (hold i heq).1] at hi
      rw [(hold i heq).1, (hold i heq).2.1]
      exact h.thread i hi

variable (handle taskId) in
/-- The first task added zeroes the variables, which are zero. -/
theorem sound_start : Sound ⟨LoadP.initial.addTask handle taskId, .start⟩ := by
  have hzero : Sound ⟨{ LoadP.initial with initDone := true }, .start⟩ := by
    refine ⟨rfl, ⟨rfl, rfl, fun i hi => absurd hi.1 Bool.false_ne_true⟩, ⟨rfl, by decide⟩,
      ⟨rfl, by decide⟩, fun i hi => absurd hi.1 Bool.false_ne_true⟩
  have hadd := hzero.addTask taskId handle
  simp only [Accounts.step, Truth.start, Function.update_eq_self] at hadd
  exact hadd

theorem Sound.removeTask (h : Sound a) : Sound (a.step (.removeTask taskId)) := by
  have hobj : ∀ i, (a.step (.removeTask taskId)).load.InUse i →
      i ≠ taskId ∧ a.load.InUse i ∧
        (a.step (.removeTask taskId)).load.taskLoadObj i = a.load.taskLoadObj i := by
    intro i hi
    simp only [Accounts.step, LoadP.step, LoadP.removeTask, LoadP.InUse] at hi ⊢
    by_cases heq : i = taskId
    · subst heq
      rw [Function.update_self] at hi
      exact absurd hi.1 Bool.false_ne_true
    · rw [Function.update_of_ne heq] at hi ⊢
      exact ⟨heq, hi, rfl⟩
  refine ⟨h.initDone, ⟨h.balanced.idle, h.balanced.total, ?_⟩, h.idle, h.total, ?_⟩
  · intro i hi
    obtain ⟨-, huse, heq⟩ := hobj i hi
    rw [heq]
    exact h.balanced.thread i huse
  · intro i hi
    obtain ⟨-, huse, heq⟩ := hobj i hi
    rw [heq]
    exact h.thread i huse

/-- **A reset** begins the span anew, at the readings of the last
update. -/
theorem Sound.reset (h : Sound a) : Sound (a.step .reset) := by
  have hobj : ∀ i, (a.step .reset).load.InUse i → a.load.InUse i ∧
      (a.step .reset).load.taskLoadObj i = { a.load.taskLoadObj i with threadTime := 0 } := by
    intro i hi
    simp only [Accounts.step, LoadP.step, LoadP.reset, LoadP.InUse] at hi ⊢
    by_cases hused : (a.load.taskLoadObj i).used = true
    · rw [if_pos hused] at hi ⊢
      exact ⟨hi, rfl⟩
    · rw [if_neg hused] at hi
      exact absurd hi.1 hused
  refine ⟨h.initDone, ⟨?_, ?_, ?_⟩, h.idle, h.total, ?_⟩
  · exact Nat.zero_add _
  · exact Nat.zero_add _
  · intro i hi
    obtain ⟨-, heq⟩ := hobj i hi
    rw [heq]
    exact Nat.zero_add _
  · intro i hi
    obtain ⟨huse, heq⟩ := hobj i hi
    rw [heq]
    exact h.thread i huse

/-- What an update leaves. -/
theorem step_update (h : a.load.initDone = true) : (a.step (.update c)).load =
    { a.load with
      lastUpdateIdlTskTime := UInt32.ofNat c.idle
      idlTskTime := a.load.idlTskTime +
        (calcCounterDiff (UInt32.ofNat c.idle) a.load.lastUpdateIdlTskTime).toUInt64
      lastUpdateTotalTime := UInt32.ofNat c.total
      totalTime := a.load.totalTime +
        (calcCounterDiff (UInt32.ofNat c.total) a.load.lastUpdateTotalTime).toUInt64
      taskLoadObj := fun i => LoadP.updateTask c.read (a.load.taskLoadObj i) } := by
  rw [Accounts.step, LoadP.step, LoadP.update_of_initDone h]
  rfl

/-- A task stays in use, and its counter is read. -/
theorem updateTask_of_inUse (h : a.load.InUse i) : LoadP.updateTask c.read (a.load.taskLoadObj i) =
    { a.load.taskLoadObj i with
      lastUpdateThreadTime := UInt32.ofNat (c.thread (a.load.taskLoadObj i).handle)
      threadTime := (a.load.taskLoadObj i).threadTime +
        (calcCounterDiff (UInt32.ofNat (c.thread (a.load.taskLoadObj i).handle))
          (a.load.taskLoadObj i).lastUpdateThreadTime).toUInt64 } := if_pos h

theorem inUse_update (h : a.load.initDone = true) :
    (a.step (.update c)).load.InUse i ↔ a.load.InUse i := by
  rw [step_update h, LoadP.InUse, LoadP.InUse]
  simp only [LoadP.updateTask]
  split <;> rfl

/-- **An update** leaves the sums right exactly where no counter it reads
has wrapped. -/
theorem Sound.balanced_update_iff (h : Sound a) (hadv : Advances a c) :
    Balanced (a.step (.update c)) ↔ Unwrapped a.load c := by
  have hidle := sum_add_iff h.idle h.balanced.idle hadv.idle
  have htotal := sum_add_iff h.total h.balanced.total hadv.total
  have hthread := fun i hi =>
    sum_add_iff (h.thread i hi) (h.balanced.thread i hi) (hadv.thread i hi)
  have hload := step_update (c := c) h.initDone
  constructor
  · rintro ⟨h1, h2, h3⟩
    rw [hload] at h1 h2
    refine ⟨hidle.1 h1, htotal.1 h2, fun i hi => (hthread i hi).1 ?_⟩
    have hi' := h3 i ((inUse_update h.initDone).2 hi)
    rw [hload] at hi'
    simp only [updateTask_of_inUse hi] at hi'
    exact hi'
  · rintro ⟨h1, h2, h3⟩
    refine ⟨?_, ?_, fun i hi => ?_⟩
    · rw [hload]
      exact hidle.2 h1
    · rw [hload]
      exact htotal.2 h2
    · have huse := (inUse_update h.initDone).1 hi
      rw [hload]
      simp only [updateTask_of_inUse huse]
      exact (hthread i huse).2 (h3 i huse)

theorem Sound.update (h : Sound a) (hadv : Advances a c) (hc : Unwrapped a.load c) :
    Sound (a.step (.update c)) := by
  have hload := step_update (c := c) h.initDone
  refine ⟨?_, (h.balanced_update_iff hadv).2 hc, ⟨?_, hc.idle⟩, ⟨?_, hc.total⟩, ?_⟩
  · rw [hload]
    exact h.initDone
  · rw [hload]
    rfl
  · rw [hload]
    rfl
  · intro i hi
    have huse := (inUse_update h.initDone).1 hi
    rw [hload]
    simp only [updateTask_of_inUse huse]
    exact ⟨rfl, hc.thread i huse⟩

/-- A step keeps what the sums rest on, an update where no counter has
wrapped. -/
theorem Sound.step_iff {e : LoadEvent} (h : Sound a) (hadv : ∀ c, e = .update c → Advances a c) :
    Sound (a.step e) ↔ ∀ c, e = .update c → Unwrapped a.load c := by
  cases e with
  | addTask handle taskId =>
    exact iff_of_true (h.addTask taskId handle) fun c hc => LoadEvent.noConfusion hc
  | removeTask taskId => exact iff_of_true h.removeTask fun c hc => LoadEvent.noConfusion hc
  | reset => exact iff_of_true h.reset fun c hc => LoadEvent.noConfusion hc
  | update c =>
    constructor
    · rintro hs c' hc'
      obtain rfl := LoadEvent.update.inj hc'
      exact (h.balanced_update_iff (hadv c rfl)).1 hs.balanced
    · intro hc
      exact h.update (hadv c rfl) (hc c rfl)

/-- **The accounting is exact**, in runs of any length, exactly where no
update comes after a counter has wrapped. -/
theorem exactLoad_iff (htime : TimeGoesOn handle taskId events) :
    ExactLoad handle taskId events ↔ NeverWrapped handle taskId events := by
  have hstep : ∀ p e, p ++ [e] <+: events → Sound (.run handle taskId p) →
      (Sound ((Accounts.run handle taskId p).step e) ↔
        ∀ c, e = LoadEvent.update c → Unwrapped (Accounts.run handle taskId p).load c) :=
    fun p e hp hs => hs.step_iff fun c hc => htime p c (hc ▸ hp)
  have hsound := foldl_invariant_iff
    (fun a e => ∀ c, e = LoadEvent.update c → Unwrapped a.load c)
    (sound_start taskId handle) hstep
  constructor
  · intro hexact
    have hall : ∀ p, p <+: events → Sound (.run handle taskId p) := by
      intro p
      induction p using List.reverseRecOn with
      | nil => exact fun _ => sound_start taskId handle
      | append_singleton p e ih =>
        intro hp
        have hs := ih ((List.prefix_append _ _).trans hp)
        rw [Accounts.run, foldl_concat]
        refine (hs.step_iff fun c hc => htime p c (hc ▸ hp)).2 fun c hc => ?_
        subst hc
        have hbal := hexact p c hp
        rw [Accounts.run, foldl_concat] at hbal
        exact (hs.balanced_update_iff (htime p c hp)).1 hbal
    exact fun p c hp => hsound.1 hall p _ hp c rfl
  · intro hnever p c hp
    exact (hsound.2 (fun p e hp c hc => hnever p c (hc ▸ hp)) _ hp).balanced

end Accounting

/-! ## Two runs -/

section Runs

variable {s : LoadP} {a : Accounts} {c : TrueCounters} {i : TaskId} {e : LoadEvent}
  {events : List LoadEvent}

instance : Decidable (s.InUse i) :=
  inferInstanceAs (Decidable (_ ∧ _))

instance : Decidable (Advances a c) :=
  decidable_of_iff
    ((a.truth.idle ≤ c.idle ∧ c.idle < a.truth.idle + 2 ^ 32) ∧
      (a.truth.total ≤ c.total ∧ c.total < a.truth.total + 2 ^ 32) ∧
      ∀ i, a.load.InUse i → a.truth.thread i ≤ c.thread (a.load.taskLoadObj i).handle ∧
        c.thread (a.load.taskLoadObj i).handle < a.truth.thread i + 2 ^ 32)
    ⟨fun h => ⟨h.1, h.2.1, h.2.2⟩, fun h => ⟨h.idle, h.total, h.thread⟩⟩

instance : Decidable (Unwrapped s c) :=
  decidable_of_iff
    (c.idle < 2 ^ 32 ∧ c.total < 2 ^ 32 ∧
      ∀ i, s.InUse i → c.thread (s.taskLoadObj i).handle < 2 ^ 32)
    ⟨fun h => ⟨h.1, h.2.1, h.2.2⟩, fun h => ⟨h.idle, h.total, h.thread⟩⟩

/-- A condition on all updates of a run, event by event. -/
theorem forall_update_cons {Q : List LoadEvent → TrueCounters → Prop} :
    (∀ p c, p ++ [.update c] <+: e :: events → Q p c) ↔
      (∀ c, e = .update c → Q [] c) ∧ ∀ p c, p ++ [.update c] <+: events → Q (e :: p) c := by
  have hcons : (∀ p e', p ++ [e'] <+: e :: events → ∀ c, e' = .update c → Q p c) ↔ _ :=
    forall_prefix_cons
  constructor
  · intro h
    obtain ⟨h0, htail⟩ := hcons.1 fun p e' hp c hc => h p c (hc ▸ hp)
    exact ⟨h0, fun p c hp => htail p _ hp c rfl⟩
  · rintro ⟨h0, htail⟩ p c hp
    exact hcons.2 ⟨h0, fun p e' hp c hc => htail p c (hc ▸ hp)⟩ p _ hp c rfl

theorem forall_update_nil {Q : List LoadEvent → TrueCounters → Prop} :
    (∀ p c, p ++ [.update c] <+: [] → Q p c) ↔ True :=
  iff_true_intro fun p c => forall_prefix_nil (Q := fun p _ => Q p c) p (.update c)

/-- The condition on an event that may be an update. -/
instance {Q : TrueCounters → Prop} [DecidablePred Q] : Decidable (∀ c, e = .update c → Q c) :=
  match e with
  | .update c => decidable_of_iff (Q c) ⟨fun h _ hc => LoadEvent.update.inj hc ▸ h, fun h => h c rfl⟩
  | .addTask _ _ => isTrue fun _ hc => LoadEvent.noConfusion hc
  | .removeTask _ => isTrue fun _ hc => LoadEvent.noConfusion hc
  | .reset => isTrue fun _ hc => LoadEvent.noConfusion hc

end Runs

/-- A task by its number. -/
def taskAt (i : ℕ) : TaskId := Fin.ofNat 128 i

/-- The counters at a time: half of it idle, a tenth of it the task's of
handle 1, two tenths that of handle 2. -/
def countersAt (time : ℕ) : TrueCounters := ⟨time / 2, time, fun h => h * time / 10⟩

/-- A task comes after the first update and goes before the last, and
between the two the sums are reset. -/
def busyLoad : List LoadEvent :=
  [.update (countersAt 1000), .addTask 2 (taskAt 5), .update (countersAt 2000), .reset,
    .update (countersAt 3000), .removeTask (taskAt 5), .update (countersAt 4000)]

/-- The sums are right throughout, at the end those since the reset. -/
theorem exactLoad_busyLoad :
    ExactLoad 1 (taskAt 0) busyLoad ∧
      (Accounts.run 1 (taskAt 0) busyLoad).load.totalTime = 2000 ∧
      ((Accounts.run 1 (taskAt 0) busyLoad).load.taskLoadObj (taskAt 0)).threadTime = 200 ∧
      ((Accounts.run 1 (taskAt 0) busyLoad).load.taskLoadObj (taskAt 5)).threadTime = 200 := by
  have htime : TimeGoesOn 1 (taskAt 0) busyLoad := by
    simp only [TimeGoesOn, busyLoad, forall_update_cons, forall_update_nil]
    decide +kernel
  have hnever : NeverWrapped 1 (taskAt 0) busyLoad := by
    simp only [NeverWrapped, busyLoad, forall_update_cons, forall_update_nil]
    decide +kernel
  exact ⟨(exactLoad_iff htime).2 hnever, by decide +kernel⟩

/-- The idle task and the tasks stand still. -/
def totalOnly (total : ℕ) : TrueCounters := ⟨0, total, fun _ => 0⟩

/-- Two updates, before the total counter wraps and at its wrap. -/
def wrappedLoad : List LoadEvent :=
  [.update (totalOnly (2 ^ 32 - 1)), .update (totalOnly (2 ^ 32))]

/-- At the wrap the total is one behind. -/
theorem not_exactLoad_wrapped : ¬ ∀ handle taskId events,
    TimeGoesOn handle taskId events → ExactLoad handle taskId events := by
  intro hall
  have htime : TimeGoesOn 1 (taskAt 0) wrappedLoad := by
    simp only [TimeGoesOn, wrappedLoad, forall_update_cons, forall_update_nil]
    decide +kernel
  have hexact := hall 1 (taskAt 0) wrappedLoad htime
  have hbalanced := hexact (wrappedLoad.take 1) (totalOnly (2 ^ 32)) (List.prefix_refl _)
  exact absurd hbalanced.total (by decide)

end Amp

end ObcSdk
