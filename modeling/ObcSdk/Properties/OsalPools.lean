import ObcSdk.Amp.OsalPool
import ObcSdk.Lib.Runs
/-!
# The pools keep their books, or do not

`Exact` is what the pools of the OSAL are meant to keep: a struct is used
exactly when one caller has it. Every step keeps it but two: zeroing a
struct that is in use, which a create does that read the count before
another caller's claim, and deleting a struct that is not handed out.
-/

namespace ObcSdk

namespace Amp

namespace OsalPool

variable {Caller : Type} {n : ℕ}
variable {s : OsalPool Caller n} {k k' : Caller} {i j : Fin n} {p : Phase n} {x : Struct}
variable {e : Event Caller n} {es : List (Event Caller n)}

/-! ## The books -/

@[simp] theorem write_structs : (s.write i x).structs = Function.update s.structs i x := rfl
@[simp] theorem write_allocCnt : (s.write i x).allocCnt = s.allocCnt := rfl
@[simp] theorem write_peak : (s.write i x).peak = s.peak := rfl
@[simp] theorem write_live : (s.write i x).live = s.live := rfl
@[simp] theorem write_phase : (s.write i x).phase = s.phase := rfl

@[simp] theorem write_used : (s.write i x).used = Function.update s.used i x.used := by
  funext j
  by_cases hj : j = i
  · subst hj
    simp [used]
  · simp [used, hj]

/-- **A pool's books are exact**: a struct is used exactly when one caller
has it, handed out or in the middle of a call, the count is the number of
used structs, and the objects in what is handed out are set up. -/
structure Exact (s : OsalPool Caller n) : Prop where
  used_iff : ∀ i, s.used i = true ↔ i ∈ s.live ∨ ∃ k, (s.phase k).holds = some i
  nodup : s.live.Nodup
  not_live : ∀ k i, (s.phase k).holds = some i → i ∉ s.live
  sole : ∀ k k' i, (s.phase k).holds = some i → (s.phase k').holds = some i → k = k'
  count : s.allocCnt = Slots.inUse s.used
  made : ∀ i ∈ s.live, (s.structs i).made = true

theorem exact_initial : Exact (initial : OsalPool Caller n) where
  used_iff i := by simp [initial, used, Phase.holds]
  nodup := .nil
  not_live k i h := by simp [initial]
  sole k k' i h := by simp [initial, Phase.holds] at h
  count := by
    symm
    exact Slots.inUse_eq_zero_iff.2 fun _ => rfl
  made i h := by simp [initial] at h

namespace Exact

theorem unused_iff (h : Exact s) :
    s.used i = false ↔ i ∉ s.live ∧ ∀ k, (s.phase k).holds ≠ some i := by
  rw [← Bool.not_eq_true, h.used_iff, not_or, not_exists]

/-- **Zeroing a struct** keeps the books exactly when it is unused. -/
theorem zero_iff (h : Exact s) : Exact (s.write i ⟨false, false⟩) ↔ s.used i = false := by
  constructor
  · intro h'
    have hnow : (s.write i ⟨false, false⟩).used i = false := by simp
    rw [h'.unused_iff] at hnow
    exact h.unused_iff.2 hnow
  · intro hu
    have hsame : (s.write i ⟨false, false⟩).used = s.used := by
      rw [write_used, ← hu, Function.update_eq_self]
    refine ⟨fun j => ?_, h.nodup, h.not_live, h.sole, ?_, fun j hj => ?_⟩
    · rw [hsame]
      exact h.used_iff j
    · rw [hsame]
      exact h.count
    · have hne : j ≠ i := by
        rintro rfl
        exact (h.unused_iff.1 hu).1 hj
      rw [write_structs, Function.update_of_ne hne]
      exact h.made j hj

/-- With no call in progress, the count is the number of structs handed out. -/
theorem allocCnt_eq (h : Exact s) (hout : ∀ k, s.phase k = .outside) :
    s.allocCnt = s.live.length := by
  have hset : (Finset.univ.filter fun i => s.used i = true) = s.live.toFinset := by
    ext i
    have hnone : ¬ ∃ k, (s.phase k).holds = some i := by
      rintro ⟨k, hk⟩
      rw [hout k] at hk
      simp [Phase.holds] at hk
    simp [h.used_iff, hnone]
  rw [h.count, Slots.inUse, hset, List.toFinset_card_of_nodup h.nodup]

end Exact

/-- **What a step must not do**: zero a struct that is used, or delete a
used struct that is not handed out. -/
def Fair (s : OsalPool Caller n) : Event Caller n → Prop
  | .zero k => ∀ j (h : j < n), s.phase k = .zeroing j → s.used ⟨j, h⟩ = false
  | .delete k i => s.phase k = .outside → s.used i = true → i ∈ s.live
  | _ => True

/-- **An orderly step**: no struct is claimed while another caller is
zeroing, and only what is handed out is deleted. -/
def Orderly (s : OsalPool Caller n) : Event Caller n → Prop
  | .claim k => s.phase k = .ready → ∀ k' j, s.phase k' ≠ .zeroing j
  | .delete k i => s.phase k = .outside → s.used i = true → i ∈ s.live
  | _ => True

/-- Exact books, and only an unused pool is zeroed. -/
structure Calm (s : OsalPool Caller n) : Prop where
  exact : Exact s
  zeroing : ∀ k j, s.phase k = .zeroing j → ∀ i, s.used i = false

theorem Calm.fair (h : Calm s) (hok : s.Orderly e) : s.Fair e := by
  cases e with
  | zero k => exact fun j hj hk => h.zeroing k j hk ⟨j, hj⟩
  | delete k i => exact hok
  | create k => trivial
  | claim k => trivial
  | construct k ok => trivial
  | release k => trivial

theorem calm_initial : Calm (initial : OsalPool Caller n) where
  exact := exact_initial
  zeroing k j h := by simp [initial] at h

variable [DecidableEq Caller]

/-! ## The parts of a step -/

@[simp] theorem goto_structs : (s.goto k p).structs = s.structs := rfl
@[simp] theorem goto_allocCnt : (s.goto k p).allocCnt = s.allocCnt := rfl
@[simp] theorem goto_peak : (s.goto k p).peak = s.peak := rfl
@[simp] theorem goto_live : (s.goto k p).live = s.live := rfl
@[simp] theorem goto_used : (s.goto k p).used = s.used := rfl
@[simp] theorem goto_phase : (s.goto k p).phase = Function.update s.phase k p := rfl

theorem claimStruct_used : (s.claimStruct k i).used = Function.update s.used i true :=
  write_used (x := ⟨true, (s.structs i).made⟩)

theorem handOut_used : (s.handOut k i).used = s.used := by
  have h := write_used (s := s) (i := i) (x := ⟨s.used i, true⟩)
  rw [Function.update_eq_self] at h
  exact h

theorem deleteObject_used : (s.deleteObject k i).used = s.used := by
  have h := write_used (s := s) (i := i) (x := ⟨s.used i, false⟩)
  rw [Function.update_eq_self] at h
  exact h

theorem giveBack_used : (s.giveBack k i).used = Function.update s.used i false :=
  write_used (x := ⟨false, (s.structs i).made⟩)

/-- What a caller holds behind a move of one caller. -/
theorem holds_update : (Function.update s.phase k p k').holds = some i ↔
    (k' = k ∧ p.holds = some i) ∨ (k' ≠ k ∧ (s.phase k').holds = some i) := by
  by_cases hk : k' = k
  · subst hk
    simp
  · simp [hk]

namespace Exact

/-- A caller that goes on and keeps what it holds. -/
theorem goto (h : Exact s) (hp : p.holds = (s.phase k).holds) : Exact (s.goto k p) := by
  have hholds : ∀ k', ((s.goto k p).phase k').holds = (s.phase k').holds := by
    intro k'
    by_cases hk : k' = k
    · subst hk
      simpa using hp
    · simp [hk]
  refine ⟨fun i => ?_, h.nodup, fun k' i => ?_, fun k₁ k₂ i => ?_, h.count, h.made⟩
  · simp only [hholds]
    exact h.used_iff i
  · rw [hholds]
    exact h.not_live k' i
  · rw [hholds, hholds]
    exact h.sole k₁ k₂ i

theorem goto_iff (hp : p.holds = (s.phase k).holds) : Exact (s.goto k p) ↔ Exact s := by
  refine ⟨fun h => ?_, fun h => h.goto hp⟩
  have hback : (s.goto k p).goto k (s.phase k) = s := by
    simp [OsalPool.goto]
  rw [← hback]
  refine h.goto ?_
  rw [goto_phase, Function.update_self, hp]

theorem claimStruct (h : Exact s) (hk : (s.phase k).holds = none) (hu : s.used i = false) :
    Exact (s.claimStruct k i) := by
  obtain ⟨hlive, hheld⟩ := h.unused_iff.1 hu
  have hholds : ∀ k' j, ((s.claimStruct k i).phase k').holds = some j ↔
      (k' = k ∧ i = j) ∨ (k' ≠ k ∧ (s.phase k').holds = some j) := by
    intro k' j
    refine holds_update.trans ?_
    simp [Phase.holds]
  have hlive' : (s.claimStruct k i).live = s.live := rfl
  refine ⟨fun j => ?_, h.nodup, fun k' j => ?_, fun k₁ k₂ j => ?_, ?_, fun j hj => ?_⟩
  · rw [claimStruct_used, hlive']
    simp only [hholds]
    by_cases hj : j = i
    · subst hj
      simp
    · rw [Function.update_of_ne hj, h.used_iff]
      refine or_congr_right (exists_congr fun k' => ?_)
      constructor
      · intro hh
        refine .inr ⟨?_, hh⟩
        rintro rfl
        simp [hk] at hh
      · rintro (⟨-, rfl⟩ | ⟨-, hh⟩)
        · exact absurd rfl hj
        · exact hh
  · rw [hholds, hlive']
    rintro (⟨-, rfl⟩ | ⟨-, hh⟩)
    · exact hlive
    · exact h.not_live k' j hh
  · rw [hholds, hholds]
    rintro (⟨rfl, rfl⟩ | ⟨-, h1⟩) (⟨rfl, h2⟩ | ⟨-, h2⟩)
    · rfl
    · exact absurd h2 (hheld k₂)
    · subst h2
      exact absurd h1 (hheld k₁)
    · exact h.sole k₁ k₂ j h1 h2
  · rw [claimStruct_used, Slots.inUse_update_true hu, ← h.count]
    rfl
  · have hne : j ≠ i := by
      rintro rfl
      exact hlive hj
    change (Function.update s.structs i _ j).made = true
    rw [Function.update_of_ne hne]
    exact h.made j hj

theorem handOut (h : Exact s) (hk : (s.phase k).holds = some i) : Exact (s.handOut k i) := by
  have hlive : i ∉ s.live := h.not_live k i hk
  have hholds : ∀ k' j, ((s.handOut k i).phase k').holds = some j ↔
      k' ≠ k ∧ (s.phase k').holds = some j := by
    intro k' j
    refine holds_update.trans ?_
    simp [Phase.holds]
  have hmem : ∀ j, j ∈ (s.handOut k i).live ↔ j = i ∨ j ∈ s.live := fun j => List.mem_cons
  refine ⟨fun j => ?_, List.nodup_cons.2 ⟨hlive, h.nodup⟩, fun k' j => ?_,
    fun k₁ k₂ j => ?_, ?_, fun j hj => ?_⟩
  · rw [handOut_used, h.used_iff, hmem]
    simp only [hholds]
    constructor
    · rintro (hj | ⟨k', hk'⟩)
      · exact .inl (.inr hj)
      · by_cases heq : k' = k
        · subst heq
          rw [hk, Option.some.injEq] at hk'
          exact .inl (.inl hk'.symm)
        · exact .inr ⟨k', heq, hk'⟩
    · rintro ((rfl | hj) | ⟨k', -, hk'⟩)
      · exact .inr ⟨k, hk⟩
      · exact .inl hj
      · exact .inr ⟨k', hk'⟩
  · rw [hholds, hmem, not_or]
    rintro ⟨hne, hk'⟩
    refine ⟨?_, h.not_live k' j hk'⟩
    rintro rfl
    exact hne (h.sole k' k j hk' hk)
  · rw [hholds, hholds]
    rintro ⟨-, h1⟩ ⟨-, h2⟩
    exact h.sole k₁ k₂ j h1 h2
  · rw [handOut_used, ← h.count]
    rfl
  · change (Function.update s.structs i ⟨s.used i, true⟩ j).made = true
    by_cases hj' : j = i
    · subst hj'
      rw [Function.update_self]
    · rw [Function.update_of_ne hj']
      exact h.made j (((hmem j).1 hj).resolve_left hj')

/-- **Deleting a used struct** keeps the books exactly when it was handed
out. -/
theorem deleteObject_iff (h : Exact s) (hk : (s.phase k).holds = none) (hu : s.used i = true) :
    Exact (s.deleteObject k i) ↔ i ∈ s.live := by
  have hholds : ∀ k' j, ((s.deleteObject k i).phase k').holds = some j ↔
      (k' = k ∧ i = j) ∨ (k' ≠ k ∧ (s.phase k').holds = some j) := by
    intro k' j
    refine holds_update.trans ?_
    simp [Phase.holds]
  have hmem : ∀ j, j ∈ (s.deleteObject k i).live ↔ j ≠ i ∧ j ∈ s.live := fun j =>
    h.nodup.mem_erase_iff
  constructor
  · intro h'
    by_contra hlive
    obtain ⟨k', hk'⟩ := ((h.used_iff i).1 hu).resolve_left hlive
    have hne : k' ≠ k := by
      rintro rfl
      rw [hk] at hk'
      simp at hk'
    have hmine := (hholds k i).2 (.inl ⟨rfl, rfl⟩)
    have htheirs := (hholds k' i).2 (.inr ⟨hne, hk'⟩)
    exact hne (h'.sole k' k i htheirs hmine)
  · intro hlive
    refine ⟨fun j => ?_, h.nodup.erase i, fun k' j => ?_, fun k₁ k₂ j => ?_, ?_, fun j hj => ?_⟩
    · rw [deleteObject_used, h.used_iff, hmem]
      simp only [hholds]
      constructor
      · rintro (hj | ⟨k', hk'⟩)
        · by_cases heq : j = i
          · exact .inr ⟨k, .inl ⟨rfl, heq.symm⟩⟩
          · exact .inl ⟨heq, hj⟩
        · refine .inr ⟨k', .inr ⟨?_, hk'⟩⟩
          rintro rfl
          rw [hk] at hk'
          simp at hk'
      · rintro (⟨-, hj⟩ | ⟨k', ⟨-, rfl⟩ | ⟨-, hk'⟩⟩)
        · exact .inl hj
        · exact .inl hlive
        · exact .inr ⟨k', hk'⟩
    · rw [hholds, hmem]
      rintro (⟨-, rfl⟩ | ⟨-, hk'⟩) ⟨hne, hj⟩
      · exact hne rfl
      · exact h.not_live k' j hk' hj
    · rw [hholds, hholds]
      rintro (⟨rfl, rfl⟩ | ⟨-, h1⟩) (⟨rfl, h2⟩ | ⟨-, h2⟩)
      · rfl
      · exact absurd hlive (h.not_live k₂ i h2)
      · subst h2
        exact absurd hlive (h.not_live k₁ i h1)
      · exact h.sole k₁ k₂ j h1 h2
    · rw [deleteObject_used, ← h.count]
      rfl
    · obtain ⟨hne, hj⟩ := (hmem j).1 hj
      change (Function.update s.structs i ⟨s.used i, false⟩ j).made = true
      rw [Function.update_of_ne hne]
      exact h.made j hj

theorem giveBack (h : Exact s) (hk : (s.phase k).holds = some i) : Exact (s.giveBack k i) := by
  have hu : s.used i = true := (h.used_iff i).2 (.inr ⟨k, hk⟩)
  have hlive : i ∉ s.live := h.not_live k i hk
  have hholds : ∀ k' j, ((s.giveBack k i).phase k').holds = some j ↔
      k' ≠ k ∧ (s.phase k').holds = some j := by
    intro k' j
    refine holds_update.trans ?_
    simp [Phase.holds]
  have hlive' : (s.giveBack k i).live = s.live := rfl
  refine ⟨fun j => ?_, h.nodup, fun k' j => ?_, fun k₁ k₂ j => ?_, ?_, fun j hj => ?_⟩
  · rw [giveBack_used, hlive']
    simp only [hholds]
    by_cases hj : j = i
    · subst hj
      rw [Function.update_self]
      refine ⟨fun hfalse => by simp at hfalse, ?_⟩
      rintro (hj | ⟨k', hne, hk'⟩)
      · exact absurd hj hlive
      · exact absurd (h.sole k' k j hk' hk) hne
    · rw [Function.update_of_ne hj, h.used_iff]
      refine or_congr_right (exists_congr fun k' => ⟨fun hk' => ⟨?_, hk'⟩, And.right⟩)
      rintro rfl
      rw [hk, Option.some.injEq] at hk'
      exact hj hk'.symm
  · rw [hholds]
    rintro ⟨-, hk'⟩
    exact h.not_live k' j hk'
  · rw [hholds, hholds]
    rintro ⟨-, h1⟩ ⟨-, h2⟩
    exact h.sole k₁ k₂ j h1 h2
  · have hless := Slots.inUse_update_false hu
    have hcount := h.count
    change s.allocCnt - 1 = _
    rw [giveBack_used]
    omega
  · have hne : j ≠ i := by
      rintro rfl
      exact hlive hj
    change (Function.update s.structs i ⟨false, (s.structs i).made⟩ j).made = true
    rw [Function.update_of_ne hne]
    exact h.made j hj

end Exact

/-! ## Steps and runs -/

theorem Exact.step_iff (h : Exact s) : Exact (s.step e) ↔ s.Fair e := by
  cases e with
  | create k =>
    refine iff_of_true ?_ trivial
    rw [step]
    split
    · rename_i hk
      refine h.goto ?_
      rw [hk]
      split <;> rfl
    · exact h
  | zero k =>
    rw [step, Fair]
    split
    · rename_i j hk
      rw [zeroNext]
      by_cases hj : j < n
      · rw [dif_pos hj]
        rw [goto_iff (by rw [write_phase, hk]; rfl), h.zero_iff]
        constructor
        · intro hu j' hj' heq
          rw [hk, Phase.zeroing.injEq] at heq
          subst heq
          exact hu
        · intro hfair
          exact hfair j hj hk
      · rw [dif_neg hj]
        refine iff_of_true (h.goto (by rw [hk]; rfl)) ?_
        intro j' hj' heq
        rw [hk, Phase.zeroing.injEq] at heq
        omega
    · rename_i hk
      refine iff_of_true h ?_
      intro j hj heq
      exact absurd heq (hk j)
  | claim k =>
    refine iff_of_true ?_ trivial
    rw [step]
    split
    · rename_i hk
      have hnone : (s.phase k).holds = none := by
        rw [hk]
        rfl
      rw [claimFirst]
      split
      · rename_i i hi
        exact h.claimStruct hnone (Slots.firstUnused_eq_some hi)
      · exact h.goto hnone.symm
    · exact h
  | construct k ok =>
    refine iff_of_true ?_ trivial
    rw [step]
    split
    · rename_i i hk
      have hsome : (s.phase k).holds = some i := by
        rw [hk]
        rfl
      split
      · exact h.handOut hsome
      · exact h.goto hsome.symm
    · exact h
  | delete k i =>
    rw [step, Fair]
    split
    · rename_i hk
      have hnone : (s.phase k).holds = none := by
        rw [hk]
        rfl
      by_cases hu : s.used i = true
      · rw [if_pos hu, h.deleteObject_iff hnone hu]
        simp [hk, hu]
      · rw [if_neg hu]
        exact iff_of_true h fun _ hu' => absurd hu' hu
    · rename_i hk
      exact iff_of_true h fun hk' => absurd hk' hk
  | release k =>
    refine iff_of_true ?_ trivial
    rw [step]
    split
    · rename_i i hk
      exact h.giveBack (by rw [hk]; rfl)
    · rename_i i hk
      exact h.giveBack (by rw [hk]; rfl)
    · exact h

/-- **The books of a pool are exact in every state of a run** exactly when
no step of the run zeroes a struct in use or deletes a used struct that is
not handed out. -/
theorem pool_exact_iff (Caller : Type) [DecidableEq Caller] (n : ℕ)
    (es : List (Event Caller n)) :
    (∀ p, p <+: es → Exact (initial.run p)) ↔
      ∀ p e, p ++ [e] <+: es → (initial.run p).Fair e :=
  foldl_invariant_iff Fair exact_initial fun _ _ _ h => h.step_iff

/-- Two callers that both read a count of zero are given one struct: the
second zeroes it after the first has it. -/
theorem two_creates_one_struct : (initial.run (n := 1) [.create true, .create false, .zero false,
    .zero false, .claim false, .construct false true, .zero true, .zero true, .claim true,
    .construct true true]).live = [0, 0] := by
  decide

/-! ## Orderly runs -/

theorem run_concat : s.run (es ++ [e]) = (s.run es).step e :=
  foldl_concat

/-- Only a claim makes a struct used. -/
theorem used_of_step (h : (s.step e).used i = true) :
    s.used i = true ∨ ∃ k, e = .claim k ∧ s.phase k = .ready := by
  cases e with
  | create k =>
    rw [step] at h
    split at h
    · exact .inl h
    · exact .inl h
  | zero k =>
    rw [step] at h
    split at h
    · rename_i j hk
      rw [zeroNext] at h
      split at h
      · rename_i hj
        rw [goto_used, write_used] at h
        by_cases hi : i = ⟨j, hj⟩
        · rw [hi, Function.update_self] at h
          simp at h
        · rw [Function.update_of_ne hi] at h
          exact .inl h
      · exact .inl h
    · exact .inl h
  | claim k =>
    by_cases hk : s.phase k = .ready
    · exact .inr ⟨k, rfl, hk⟩
    · rw [step] at h
      split at h
      · rename_i hready
        exact absurd hready hk
      · exact .inl h
  | construct k ok =>
    rw [step] at h
    split at h
    · split at h
      · rw [handOut_used] at h
        exact .inl h
      · exact .inl h
    · exact .inl h
  | delete k i' =>
    rw [step] at h
    split at h
    · split at h
      · rw [deleteObject_used] at h
        exact .inl h
      · exact .inl h
    · exact .inl h
  | release k =>
    have hback : ∀ i', (s.giveBack k i').used i = true → s.used i = true := by
      intro i' h'
      rw [giveBack_used] at h'
      by_cases hi : i = i'
      · rw [hi, Function.update_self] at h'
        simp at h'
      · rwa [Function.update_of_ne hi] at h'
    rw [step] at h
    split at h
    · exact .inl (hback _ h)
    · exact .inl (hback _ h)
    · exact .inl h

/-- A caller is zeroing only as it was before, or as a create reads that
the count is zero. -/
theorem zeroing_of_step {m : ℕ} (h : (s.step e).phase k' = .zeroing m) :
    (s.allocCnt = 0 ∧ ∃ k, e = .create k) ∨ ∃ m', s.phase k' = .zeroing m' := by
  have hgoto : ∀ {k p}, Function.update s.phase k p k' = .zeroing m → p ≠ .zeroing m →
      ∃ m', s.phase k' = .zeroing m' := by
    intro k p h hp
    by_cases hk : k' = k
    · subst hk
      rw [Function.update_self] at h
      exact absurd h hp
    · rw [Function.update_of_ne hk] at h
      exact ⟨m, h⟩
  cases e with
  | create k =>
    by_cases hcnt : s.allocCnt = 0
    · exact .inl ⟨hcnt, k, rfl⟩
    · rw [step] at h
      split at h
      · rw [if_neg hcnt] at h
        exact .inr (hgoto h (by simp))
      · exact .inr ⟨m, h⟩
  | zero k =>
    rw [step] at h
    split at h
    · rename_i j hk
      by_cases hkk : k' = k
      · exact .inr ⟨j, hkk ▸ hk⟩
      · rw [zeroNext] at h
        split at h
        · rw [goto_phase, Function.update_of_ne hkk] at h
          exact .inr ⟨m, h⟩
        · exact .inr (hgoto h (by simp))
    · exact .inr ⟨m, h⟩
  | claim k =>
    rw [step] at h
    split at h
    · rw [claimFirst] at h
      split at h
      · exact .inr (hgoto h (by simp))
      · exact .inr (hgoto h (by simp))
    · exact .inr ⟨m, h⟩
  | construct k ok =>
    rw [step] at h
    split at h
    · split at h
      · exact .inr (hgoto h (by simp))
      · exact .inr (hgoto h (by simp))
    · exact .inr ⟨m, h⟩
  | delete k i =>
    rw [step] at h
    split at h
    · split at h
      · exact .inr (hgoto h (by simp))
      · exact .inr ⟨m, h⟩
    · exact .inr ⟨m, h⟩
  | release k =>
    rw [step] at h
    split at h
    · exact .inr (hgoto h (by simp))
    · exact .inr (hgoto h (by simp))
    · exact .inr ⟨m, h⟩

theorem Calm.step (h : Calm s) (hok : s.Orderly e) : Calm (s.step e) := by
  refine ⟨h.exact.step_iff.2 (h.fair hok), fun k' j hk' i => ?_⟩
  rw [← Bool.not_eq_true]
  intro hu
  rcases used_of_step hu with hu | ⟨k, rfl, hk⟩
  · rcases zeroing_of_step hk' with ⟨hcnt, -⟩ | ⟨j', hj'⟩
    · rw [h.exact.count, Slots.inUse_eq_zero_iff] at hcnt
      simp [hcnt i] at hu
    · simp [h.zeroing k' j' hj' i] at hu
  · rcases zeroing_of_step hk' with ⟨-, k'', hclaim⟩ | ⟨j', hj'⟩
    · simp at hclaim
    · exact hok hk k' j' hj'

theorem Calm.run (h : Calm s) (hok : ∀ p e, p ++ [e] <+: es → (s.run p).Orderly e) :
    Calm (s.run es) := by
  induction es using List.reverseRecOn with
  | nil => exact h
  | append_singleton es e ih =>
    rw [run_concat]
    have hcalm := ih fun p e hp => hok p e (hp.trans (List.prefix_append _ _))
    exact hcalm.step (hok es e (List.prefix_refl _))

/-! ## The count and its peak -/

theorem allocCnt_le_peak_step (h : s.allocCnt ≤ s.peak) :
    (s.step e).peak = max s.peak (s.step e).allocCnt := by
  have hsame : s.peak = max s.peak s.allocCnt := (max_eq_left h).symm
  cases e with
  | create k =>
    rw [step]
    split <;> exact hsame
  | zero k =>
    rw [step]
    split
    · rw [zeroNext]
      split <;> exact hsame
    · exact hsame
  | claim k =>
    rw [step]
    split
    · rw [claimFirst]
      split
      · rfl
      · exact hsame
    · exact hsame
  | construct k ok =>
    rw [step]
    split
    · split <;> exact hsame
    · exact hsame
  | delete k i =>
    rw [step]
    split
    · split <;> exact hsame
    · exact hsame
  | release k =>
    have hback : ∀ i, (s.giveBack k i).peak = max s.peak (s.giveBack k i).allocCnt := by
      intro i
      change s.peak = max s.peak (s.allocCnt - 1)
      omega
    rw [step]
    split
    · exact hback _
    · exact hback _
    · exact hsame

/-- **The peak is the largest count of the run.** -/
theorem peak_run (es : List (Event Caller n)) :
    (∀ p, p <+: es → ((initial : OsalPool Caller n).run p).allocCnt ≤ (initial.run es).peak) ∧
      ∃ p, p <+: es ∧
        ((initial : OsalPool Caller n).run p).allocCnt = (initial.run es).peak := by
  induction es using List.reverseRecOn with
  | nil =>
    refine ⟨fun p hp => ?_, [], List.prefix_refl _, rfl⟩
    rw [List.prefix_nil.1 hp]
    exact Nat.le_refl 0
  | append_singleton es e ih =>
    obtain ⟨hle, p, hp, heq⟩ := ih
    have hstep := allocCnt_le_peak_step (e := e) (hle es (List.prefix_refl _))
    rw [run_concat, hstep]
    constructor
    · intro q hq
      rcases List.prefix_concat_iff.1 hq with rfl | hq
      · rw [run_concat]
        exact le_max_right _ _
      · exact (hle q hq).trans (le_max_left _ _)
    · rcases le_total (initial.run es).peak ((initial.run es).step e).allocCnt with h | h
      · refine ⟨es ++ [e], List.prefix_refl _, ?_⟩
        rw [run_concat, max_eq_right h]
      · refine ⟨p, hp.trans (List.prefix_append _ _), ?_⟩
        rw [max_eq_left h, heq]

/-! ## What can be relied on -/

/-- The search of a create goes on with an unused struct where one is
left. -/
theorem Exact.claim_of_lt (h : Exact s) (hk : s.phase k = .ready) (hlt : s.allocCnt < n) :
    ∃ i, s.used i = false ∧ s.step (.claim k) = s.claimStruct k i := by
  have hsome : Slots.firstUnused s.used ≠ none := by
    rw [Ne, Slots.firstUnused_eq_none_iff, ← Slots.inUse_eq_iff, ← h.count]
    omega
  obtain ⟨i, hi⟩ := Option.ne_none_iff_exists'.1 hsome
  refine ⟨i, Slots.firstUnused_eq_some hi, ?_⟩
  rw [step]
  simp only [hk]
  rw [claimFirst, hi]

/-- And comes back with `NULL` where none is. -/
theorem Exact.claim_of_eq (h : Exact s) (hk : s.phase k = .ready) (heq : s.allocCnt = n) :
    s.step (.claim k) = s.goto k .outside := by
  rw [h.count, Slots.inUse_eq_iff, ← Slots.firstUnused_eq_none_iff] at heq
  rw [step]
  simp only [hk]
  rw [claimFirst, heq]

/-- A delete of a struct that is handed out deletes its object. -/
theorem Exact.delete_of_mem (h : Exact s) (hk : s.phase k = .outside) (hi : i ∈ s.live) :
    s.step (.delete k i) = s.deleteObject k i := by
  rw [step]
  simp only [hk]
  exact if_pos ((h.used_iff i).2 (.inl hi))

/-- What a maintainer may rely on in a state of a pool. -/
structure Reliable (s : OsalPool Caller n) : Prop where
  /-- No struct is handed to two callers. -/
  nodup : s.live.Nodup
  /-- What is handed out is used, and its object is set up. -/
  set_up : ∀ i ∈ s.live, s.structs i = ⟨true, true⟩
  count : (∀ k, s.phase k = .outside) → s.allocCnt = s.live.length
  allocCnt_le : s.allocCnt ≤ n
  full_iff : s.allocCnt = n ↔ ∀ i, s.used i = true
  /-- The search of a create finds a struct, one not used, exactly when not
  all are taken; where all are, the create returns `NULL`. -/
  search : ∀ k, s.phase k = .ready →
    (s.allocCnt < n →
      ∃ i, s.used i = false ∧ i ∉ s.live ∧ (s.step (.claim k)).phase k = .claimed i) ∧
    (s.allocCnt = n → s.step (.claim k) = s.goto k .outside)
  /-- With the struct found it hands it out if the constructor succeeds, and
  no one else has it; -/
  hands_out : ∀ k i, s.phase k = .claimed i → i ∉ s.live ∧
    (s.step (.construct k true)).live = i :: s.live ∧
    (s.step (.construct k true)).phase k = .outside
  /-- if the constructor fails, nothing is handed out, -/
  fails : ∀ k i, s.phase k = .claimed i → s.step (.construct k false) = s.goto k (.failed i)
  /-- and the struct is given back. -/
  gives_back : ∀ k i, s.phase k = .failed i ∨ s.phase k = .deleted i →
    (s.step (.release k)).used i = false ∧ (s.step (.release k)).live = s.live ∧
    (s.step (.release k)).phase k = .outside
  /-- A delete of what is handed out does not fail. -/
  delete : ∀ k i, s.phase k = .outside → i ∈ s.live → (s.step (.delete k i)).phase k = .deleted i ∧
    (s.step (.delete k i)).live = s.live.erase i

theorem Exact.reliable (h : Exact s) : Reliable s where
  nodup := h.nodup
  set_up i hi := by
    have hu : (s.structs i).used = true := (h.used_iff i).2 (.inl hi)
    have hm := h.made i hi
    cases hs : s.structs i with
    | mk u m =>
      rw [hs] at hu hm
      obtain rfl : u = true := hu
      obtain rfl : m = true := hm
      rfl
  count := h.allocCnt_eq
  allocCnt_le := by
    rw [h.count]
    exact Slots.inUse_le _
  full_iff := by
    rw [h.count, Slots.inUse_eq_iff]
  search k hk := by
    refine ⟨fun hlt => ?_, h.claim_of_eq hk⟩
    obtain ⟨i, hi, hstep⟩ := h.claim_of_lt hk hlt
    refine ⟨i, hi, (h.unused_iff.1 hi).1, ?_⟩
    rw [hstep]
    exact Function.update_self _ _ _
  hands_out k i hk := by
    have hstep : s.step (.construct k true) = s.handOut k i := by
      rw [step]
      simp only [hk, if_true]
    rw [hstep]
    exact ⟨h.not_live k i (by rw [hk]; rfl), rfl, Function.update_self _ _ _⟩
  fails k i hk := by
    rw [step]
    simp only [hk]
    exact if_neg (by simp)
  gives_back k i hk := by
    have hstep : s.step (.release k) = s.giveBack k i := by
      rw [step]
      rcases hk with hk | hk
      · simp only [hk]
      · simp only [hk]
    rw [hstep, giveBack_used]
    exact ⟨Function.update_self _ _ _, rfl, Function.update_self _ _ _⟩
  delete k i hk hi := by
    rw [h.delete_of_mem hk hi]
    exact ⟨Function.update_self _ _ _, rfl⟩

/-- **A pool used in an orderly way can be relied on**, whatever the order
of its callers' steps, and its peak is the largest count it had. -/
theorem orderly_pool (Caller : Type) [DecidableEq Caller] (n : ℕ) (es : List (Event Caller n))
    (hok : ∀ p e, p ++ [e] <+: es → (initial.run p).Orderly e) :
    Reliable (initial.run es) ∧
      (∀ p, p <+: es → ((initial : OsalPool Caller n).run p).allocCnt ≤ (initial.run es).peak) ∧
        ∃ p, p <+: es ∧
          ((initial : OsalPool Caller n).run p).allocCnt = (initial.run es).peak :=
  ⟨(calm_initial.run hok).exact.reliable, peak_run es⟩

/-- Two callers and two structs: the one creates, then deletes while the
other creates. -/
def sampleRun : List (Event Bool 2) :=
  [.create true, .zero true, .zero true, .zero true, .claim true, .construct true true,
    .create false, .claim false, .delete true 0, .construct false true, .release true]

theorem orderly_pool_sample :
    Reliable (initial.run sampleRun) ∧
      (∀ p, p <+: sampleRun →
        ((initial : OsalPool Bool 2).run p).allocCnt ≤ (initial.run sampleRun).peak) ∧
        ∃ p, p <+: sampleRun ∧
          ((initial : OsalPool Bool 2).run p).allocCnt = (initial.run sampleRun).peak := by
  refine orderly_pool Bool 2 sampleRun ?_
  simp only [sampleRun, forall_prefix_cons]
  refine ⟨trivial, trivial, trivial, trivial, ?_, trivial, trivial, ?_, ?_, trivial, trivial,
    forall_prefix_nil⟩
  · have h : ∀ k', (initial.run (sampleRun.take 4)).phase k' ∈ [.ready, .outside] := by decide
    intro _ k' j hk
    change (initial.run (sampleRun.take 4)).phase k' = _ at hk
    have hmem := h k'
    rw [hk] at hmem
    simp at hmem
  · have h : ∀ k', (initial.run (sampleRun.take 7)).phase k' ∈ [.ready, .outside] := by decide
    intro _ k' j hk
    change (initial.run (sampleRun.take 7)).phase k' = _ at hk
    have hmem := h k'
    rw [hk] at hmem
    simp at hmem
  · intro _ _
    decide

end OsalPool

end Amp

end ObcSdk
