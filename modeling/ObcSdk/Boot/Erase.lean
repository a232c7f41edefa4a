import ObcSdk.Boot.Write
/-!
# Erasing a partition

`obc_blk_mmc_erase` and its entry `obc_blk_erase_mmc_partition`: zeroes
written over a partition, in transfers of at most `ERASE_BUFFER_SIZE`
bytes. As one journal they are the partition's blocks, all zero.
-/

namespace ObcSdk

namespace Boot

/-- `ERASE_BUFFER_SIZE`. -/
abbrev eraseBufferSize : ℕ := 16 * 1024

/-- The loop of `obc_blk_mmc_erase`, in at most `n` turns. -/
def eraseLoop (U : UBoot) (blocksPerWrite : ℕ) : ℕ → ℕ → ℕ → World → ℤ × World
  | 0, _, _, w => (0, w)
  | n + 1, remainingCount, currentStart, w =>
    if remainingCount = 0 then (0, w) else
    let writeCount := if blocksPerWrite < remainingCount then blocksPerWrite else remainingCount
    let r := blkDwrite U w currentStart writeCount fun _ => 0
    if r.1 ≠ writeCount then (-1, r.2) else
    eraseLoop U blocksPerWrite n (remainingCount - writeCount) (currentStart + writeCount) r.2

/-- `obc_blk_mmc_erase`. A turn takes a block at least, so the loop is
over after as many turns as there are blocks. -/
def obcBlkMmcErase (U : UBoot) (w : World) (part : BoardAbilityBlkParts) : ℤ × World :=
  if w.gstBlkDev = none then (-1, w) else
  let rd := w.stAbility.stBlk.iRdSize
  let start := part.addr.toNat / rd
  let count := part.size.toNat / rd
  if U.malloc w.tick = false then (-1, w) else
  let blocksPerWrite := eraseBufferSize / rd
  if blocksPerWrite = 0 then (-1, w) else
  eraseLoop U blocksPerWrite count count start w

/-- The percentage `obc_blk_mmc_erase` shows with `finished` of `count`
blocks erased, if any; `none` for a division by zero. -/
def eraseProgress (rd count finished : ℕ) : Option (Option ℕ) :=
  if rd = 0 ∨ 1024 * 1024 / rd = 0 then none else
  if finished % (1024 * 1024 / rd) ≠ 0 then some none else
  if count = 0 then none else some (some (finished * 100 / count))

/-- The loop with what it shows: `none` where it has not come to an end in
`n` turns, or has divided by zero. -/
def eraseLoopShown (U : UBoot) (rd count blocksPerWrite : ℕ) :
    ℕ → ℕ → ℕ → World → Option (ℤ × World)
  | 0, _, _, _ => none
  | n + 1, remainingCount, currentStart, w =>
    if remainingCount = 0 then some (0, w) else
    let writeCount := if blocksPerWrite < remainingCount then blocksPerWrite else remainingCount
    let r := blkDwrite U w currentStart writeCount fun _ => 0
    if r.1 ≠ writeCount then some (-1, r.2) else
    match eraseProgress rd count (count - (remainingCount - writeCount)) with
    | none => none
    | some _ => eraseLoopShown U rd count blocksPerWrite n (remainingCount - writeCount)
        (currentStart + writeCount) r.2

/-- `obc_blk_erase_mmc_partition`: the MMC table, whatever the device in
use. -/
def obcBlkEraseMmcPartition (U : UBoot) (w : World) (partname : List Char) : ℤ × World :=
  let parts := w.stAbility.stBlk.part U.beyond .mmc
  match obcBlkFindPartByNameEx parts w.stAbility.stBlk.iPartCountMmc partname with
  | none => (-1, w)
  | some i => obcBlkMmcErase U w (parts i)

/-- The journal an erase is to put on `d`; `none` where it gives up
first. -/
def erasePlan (U : UBoot) (w : World) (d : BlkDesc) (partname : List Char) :
    Option (List (Extent ℕ UInt8)) :=
  let parts := w.stAbility.stBlk.part U.beyond .mmc
  let rd := w.stAbility.stBlk.iRdSize
  match obcBlkFindPartByNameEx parts w.stAbility.stBlk.iPartCountMmc partname with
  | none => none
  | some i =>
    if U.malloc w.tick = false ∨ eraseBufferSize / rd = 0 then none
    else some (Journal.blocks d.devnum d.blksz ((parts i).addr.toNat / rd)
      ((parts i).size.toNat / rd) fun _ => 0)

section Erase

variable {U : UBoot} {w : World} {d : BlkDesc} {partname : List Char} {p : List (Extent ℕ UInt8)}
  {n remaining start blocksPerWrite : ℕ}

/-- A turn's blocks, and those behind it. -/
theorem blocks_split {c : ℕ} (hc : c ≤ remaining) :
    Journal.blocks d.devnum d.blksz start remaining (fun _ => (0 : UInt8)) =
      Journal.blocks d.devnum d.blksz start c (fun _ => 0) ++
        Journal.blocks d.devnum d.blksz (start + c) (remaining - c) fun _ => 0 := by
  rw [← Journal.blocks_add, Nat.add_sub_cancel' hc]

variable (U start) in
/-- One turn falls short and ends the loop, or leaves the rest to the next
ones. -/
theorem eraseLoop_turn (hd : w.gstBlkDev = some d) (h0 : remaining ≠ 0) :
    (∃ l cs, l <+: Journal.blocks d.devnum d.blksz start (min blocksPerWrite remaining)
        (fun _ => 0) ∧ (∃ c ∈ cs, Call.Failed c) ∧
      eraseLoop U blocksPerWrite (n + 1) remaining start w = (-1, w.advance l cs 1)) ∨
    ∃ cs, eraseLoop U blocksPerWrite (n + 1) remaining start w =
      eraseLoop U blocksPerWrite n (remaining - min blocksPerWrite remaining)
        (start + min blocksPerWrite remaining) (w.advance (Journal.blocks d.devnum d.blksz start
          (min blocksPerWrite remaining) fun _ => 0) cs 1) := by
  have hturn : (if blocksPerWrite < remaining then blocksPerWrite else remaining) =
      min blocksPerWrite remaining := by
    split <;> omega
  obtain ⟨l, hl, hw, hfull⟩ :=
    blkDwrite_spec (U := U) start (min blocksPerWrite remaining) (fun _ => 0) hd
  rw [eraseLoop, if_neg h0]
  simp only [hturn]
  split
  · rename_i hne
    refine Or.inl ⟨l, [.dwrite start (min blocksPerWrite remaining) _], hl,
      ⟨_, List.mem_singleton.2 rfl, hne⟩, ?_⟩
    rw [hw]
  · rename_i heq
    rw [not_not] at heq
    rw [hfull heq] at hw
    exact Or.inr ⟨_, by rw [hw]⟩

variable (U start) in
/-- **What the loop comes to**: all its blocks written, or those of some
turns and a part of the next one's, which fell short. -/
theorem eraseLoop_cases (hd : w.gstBlkDev = some d) (hb : 0 < blocksPerWrite)
    (hn : remaining ≤ n) :
    (∃ cs k, eraseLoop U blocksPerWrite n remaining start w =
      (0, w.advance (Journal.blocks d.devnum d.blksz start remaining fun _ => 0) cs k)) ∨
    ∃ turns l cs k, turns * blocksPerWrite < remaining ∧
      l <+: Journal.blocks d.devnum d.blksz (start + turns * blocksPerWrite)
        (min blocksPerWrite (remaining - turns * blocksPerWrite)) (fun _ => 0) ∧
      (∃ c ∈ cs, Call.Failed c) ∧ eraseLoop U blocksPerWrite n remaining start w =
        (-1, w.advance (Journal.blocks d.devnum d.blksz start (turns * blocksPerWrite)
          (fun _ => 0) ++ l) cs k) := by
  induction n generalizing remaining start w with
  | zero =>
    obtain rfl : remaining = 0 := by omega
    exact Or.inl ⟨[], 0, by simp [eraseLoop]⟩
  | succ n ih =>
    by_cases h0 : remaining = 0
    · subst h0
      exact Or.inl ⟨[], 0, by simp [eraseLoop]⟩
    rcases eraseLoop_turn U start hd h0 with ⟨l, cs, hl, hfail, hrun⟩ | ⟨cs, hrun⟩
    · refine Or.inr ⟨0, l, cs, 1, by omega, by simpa using hl, hfail, ?_⟩
      rw [hrun, Nat.zero_mul, Journal.blocks_zero, List.nil_append]
    have hrest : remaining - min blocksPerWrite remaining ≤ n := by omega
    rw [hrun]
    rcases ih (start + min blocksPerWrite remaining)
      (w := w.advance (Journal.blocks d.devnum d.blksz start (min blocksPerWrite remaining)
        fun _ => 0) cs 1) hd hrest with
      ⟨cs', k, hrec⟩ | ⟨turns, l, cs', k, hlt, hl, ⟨c, hc, hfail⟩, hrec⟩
    · rw [World.advance_advance, ← blocks_split (min_le_right _ _)] at hrec
      exact Or.inl ⟨_, _, hrec⟩
    · -- a full turn comes before those of the rest
      have hmin : min blocksPerWrite remaining = blocksPerWrite := by omega
      rw [hmin] at hlt hl hrec ⊢
      have hnext : (turns + 1) * blocksPerWrite = blocksPerWrite + turns * blocksPerWrite := by
        rw [Nat.succ_mul, Nat.add_comm]
      have hdone : Journal.blocks d.devnum d.blksz start blocksPerWrite (fun _ => (0 : UInt8)) ++
          Journal.blocks d.devnum d.blksz (start + blocksPerWrite) (turns * blocksPerWrite)
            (fun _ => 0) = Journal.blocks d.devnum d.blksz start ((turns + 1) * blocksPerWrite)
              fun _ => 0 := by
        rw [hnext, blocks_split (Nat.le_add_right blocksPerWrite _), Nat.add_sub_cancel_left]
      rw [World.advance_advance, ← List.append_assoc, hdone] at hrec
      refine Or.inr ⟨turns + 1, l, _, _, by omega, ?_, ⟨c, List.mem_append_right _ hc, hfail⟩,
        hrec⟩
      rwa [hnext, ← Nat.add_assoc, ← Nat.sub_sub]

/-- **The loop is one run** of the blocks that remain. -/
theorem eraseLoop_runs (hd : w.gstBlkDev = some d) (hb : 0 < blocksPerWrite)
    (hn : remaining ≤ n) :
    Runs w (Journal.blocks d.devnum d.blksz start remaining fun _ => 0)
      (eraseLoop U blocksPerWrite n remaining start w) := by
  rcases eraseLoop_cases U start hd hb hn with
    ⟨cs, k, hrun⟩ | ⟨turns, l, cs, k, hlt, hl, hfail, hrun⟩
  · rw [hrun]
    exact ⟨_, cs, k, rfl, List.prefix_rfl, Or.inl ⟨rfl, rfl⟩⟩
  · rw [hrun]
    refine ⟨_, cs, k, rfl, ?_, Or.inr ⟨rfl, hfail⟩⟩
    rw [blocks_split hlt.le, List.prefix_append_right_inj]
    exact hl.trans (Journal.blocks_prefix (min_le_right _ _))

/-- **The loop comes to an end** and divides by nothing that is zero. -/
theorem eraseLoopShown_eq {rd count : ℕ} (hrd : 0 < rd) (hmega : rd ≤ 1024 * 1024)
    (hb : 0 < blocksPerWrite) (hcount : remaining ≤ count) (hn : remaining ≤ n) {m : ℕ}
    (hm : remaining < m) : eraseLoopShown U rd count blocksPerWrite m remaining start w =
      some (eraseLoop U blocksPerWrite n remaining start w) := by
  have hperiod : ¬ (rd = 0 ∨ 1024 * 1024 / rd = 0) := by
    rw [not_or]
    exact ⟨hrd.ne', (Nat.div_pos hmega hrd).ne'⟩
  induction m generalizing n remaining start w with
  | zero => omega
  | succ m ih =>
    unfold eraseLoopShown
    split
    · rename_i h0
      rw [h0]
      cases n with
      | zero => rfl
      | succ n => rw [eraseLoop, if_pos rfl]
    rename_i h0
    obtain ⟨n, rfl⟩ := Nat.exists_eq_succ_of_ne_zero (show n ≠ 0 by omega)
    rw [eraseLoop, if_neg h0]
    simp only []
    have hc : 0 < (if blocksPerWrite < remaining then blocksPerWrite else remaining) := by
      split <;> omega
    generalize (if blocksPerWrite < remaining then blocksPerWrite else remaining) = c at hc ⊢
    split
    · rfl
    -- the progress divides by its period and by the count, and neither is zero here
    have hshown : ∃ p, eraseProgress rd count (count - (remaining - c)) = some p := by
      rw [eraseProgress, if_neg hperiod]
      split
      · exact ⟨_, rfl⟩
      · rw [if_neg (by omega)]
        exact ⟨_, rfl⟩
    obtain ⟨p, hp⟩ := hshown
    rw [hp]
    exact ih (by omega) (by omega) (by omega)

/-- Where no transfer faults the loop goes through. -/
theorem eraseLoop_of_ok (hf : ∀ t start count, U.fault t start count = none)
    (hd : w.gstBlkDev = some d) : (eraseLoop U blocksPerWrite n remaining start w).1 = 0 := by
  induction n generalizing remaining start w with
  | zero => rfl
  | succ n ih =>
    unfold eraseLoop
    split
    · rfl
    · simp only [blkDwrite_of_ok _ hd (hf _ _ _)]
      rw [if_neg (by simp)]
      exact ih hd

variable (partname) in
/-- **An erase** gives up having touched nothing, or runs its plan. -/
theorem obcBlkEraseMmcPartition_planned (hd : w.gstBlkDev = some d) :
    Planned w (erasePlan U w d partname) (obcBlkEraseMmcPartition U w partname) := by
  simp only [erasePlan, obcBlkEraseMmcPartition]
  split
  · rfl
  rename_i i _
  simp only [obcBlkMmcErase, hd]
  rw [if_neg (Option.some_ne_none d)]
  by_cases hm : U.malloc w.tick = false
  · rw [if_pos hm, if_pos (Or.inl hm)]
    rfl
  by_cases hb : eraseBufferSize / w.stAbility.stBlk.iRdSize = 0
  · rw [if_neg hm, if_pos hb, if_pos (Or.inr hb)]
    rfl
  rw [if_neg hm, if_neg hb, if_neg (not_or.2 ⟨hm, hb⟩)]
  exact eraseLoop_runs hd (Nat.pos_of_ne_zero hb) le_rfl

/-- Where no transfer faults the plan is carried out. -/
theorem obcBlkEraseMmcPartition_of_plan (hf : ∀ t start count, U.fault t start count = none)
    (hd : w.gstBlkDev = some d) (h : erasePlan U w d partname = some p) :
    (obcBlkEraseMmcPartition U w partname).2.disk = Journal.replay w.disk p := by
  have hrun := obcBlkEraseMmcPartition_planned (U := U) partname hd
  have h0 : (obcBlkEraseMmcPartition U w partname).1 = 0 := by
    simp only [erasePlan, obcBlkEraseMmcPartition, obcBlkMmcErase, hd] at h ⊢
    split at h
    · cases h
    split at h
    · cases h
    rename_i hgo
    rw [not_or] at hgo
    rw [if_neg (Option.some_ne_none d), if_neg hgo.1, if_neg hgo.2]
    exact eraseLoop_of_ok hf hd
  rw [h] at hrun
  obtain ⟨l, cs, n, hr, -, ⟨-, rfl⟩ | ⟨hneg, -⟩⟩ := hrun
  · rw [hr, World.disk_advance]
  · rw [h0] at hneg
    exact absurd hneg (by decide)

end Erase

end Boot

end ObcSdk
