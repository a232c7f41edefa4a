import ObcSdk.Boot.Bench
import ObcSdk.Boot.Erase
/-!
# What an erase leaves

`obc_blk_mmc_erase` writes zeroes over a partition, a buffer at a time. It
leaves the partition zero and the rest of the medium alone; and where a
transfer fails, the turns before it zero and what lies behind its own
untouched.
-/

namespace ObcSdk

namespace Boot

section Erase

variable {U : UBoot} {w : World} {d : BlkDesc} {part : BoardAbilityBlkParts} {turns : ℕ}
  {l : List (Extent ℕ UInt8)}

/-- What an erase of a partition comes to. -/
structure Erases (U : UBoot) (w : World) (d : BlkDesc) (part : BoardAbilityBlkParts) : Prop where
  /-- The loop is over within a turn a block, and what it shows of its
  progress is defined. -/
  ends : ∀ n, part.size.toNat / 512 < n →
    eraseLoopShown U 512 (part.size.toNat / 512) (eraseBufferSize / 512) n
      (part.size.toNat / 512) (part.addr.toNat / 512) w =
        some (eraseLoop U (eraseBufferSize / 512) (part.size.toNat / 512) (part.size.toNat / 512)
          (part.addr.toNat / 512) w)
  outside : ∀ dev x, (dev = d.devnum → x ∉ part.region) →
    (obcBlkMmcErase U w part).2.disk dev x = w.disk dev x
  whole : (obcBlkMmcErase U w part).1 = 0 →
    ∀ x ∈ part.region, (obcBlkMmcErase U w part).2.disk d.devnum x = 0
  /-- Without its buffer it does nothing; else a transfer failed, and `k`
  went through before it. -/
  cut : (obcBlkMmcErase U w part).1 ≠ 0 → (obcBlkMmcErase U w part).1 = -1 ∧
    (U.malloc w.tick = false ∧ (obcBlkMmcErase U w part).2 = w ∨
      ∃ k, k * eraseBufferSize < part.size.toNat ∧
        (∃ c ∈ w.since (obcBlkMmcErase U w part).2, c.Failed) ∧
        (∀ x, part.addr.toNat ≤ x → x < part.addr.toNat + k * eraseBufferSize →
          (obcBlkMmcErase U w part).2.disk d.devnum x = 0) ∧
        ∀ x, part.addr.toNat + (k + 1) * eraseBufferSize ≤ x →
          (obcBlkMmcErase U w part).2.disk d.devnum x = w.disk d.devnum x)

variable (U part) in
theorem obcBlkMmcErase_eq (hw : w.On d) : obcBlkMmcErase U w part =
    if U.malloc w.tick = false then (-1, w)
    else eraseLoop U (eraseBufferSize / 512) (part.size.toNat / 512) (part.size.toNat / 512)
      (part.addr.toNat / 512) w := by
  have hdev : w.gstBlkDev ≠ none := by
    rw [hw.dev]
    exact Option.some_ne_none d
  simp only [obcBlkMmcErase, hw.rdSize]
  rw [if_neg hdev, if_neg (show eraseBufferSize / 512 ≠ 0 by decide)]

/-- Blocks of zeroes, written. -/
theorem replay_zeroes {m : ℕ → Store UInt8} {dev start n x : ℕ} (hlo : start * 512 ≤ x)
    (hhi : x < (start + n) * 512) :
    Journal.replay m (Journal.blocks dev 512 start n fun _ => 0) dev x = 0 := by
  obtain ⟨i, rfl⟩ := Nat.exists_eq_add_of_le hlo
  exact Journal.replay_blocks_apply (by omega)

/-- The loop's end, for a partition of any size. -/
theorem eraseLoopShown_ends {n : ℕ} (hn : part.size.toNat / 512 < n) :
    eraseLoopShown U 512 (part.size.toNat / 512) (eraseBufferSize / 512) n
      (part.size.toNat / 512) (part.addr.toNat / 512) w =
        some (eraseLoop U (eraseBufferSize / 512) (part.size.toNat / 512) (part.size.toNat / 512)
          (part.addr.toNat / 512) w) :=
  eraseLoopShown_eq (by decide) (by decide) (by decide) le_rfl le_rfl hn

/-! ## What was written -/

/-- A partition's blocks are its region. -/
theorem blocks_region (hal : BlockAligned 512 part) :
    Set.Ico (part.addr.toNat / 512 * 512)
      ((part.addr.toNat / 512 + part.size.toNat / 512) * 512) = part.region := by
  rw [Nat.add_mul, Nat.div_mul_cancel hal.1, Nat.div_mul_cancel hal.2]
  rfl

/-- The turns that went through lie one behind the other from the
partition's start. -/
theorem within_turns (hal : BlockAligned 512 part) : Journal.Within d.devnum
    (Set.Ico part.addr.toNat (part.addr.toNat + turns * 16384))
    (Journal.blocks d.devnum 512 (part.addr.toNat / 512) (turns * 32) fun _ => (0 : UInt8)) := by
  have haddr : part.addr.toNat / 512 * 512 = part.addr.toNat := Nat.div_mul_cancel hal.1
  refine Journal.within_blocks.mono fun x hx => ?_
  rw [Set.mem_Ico] at hx ⊢
  omega

/-- The turn that failed lies behind those before it, and in the
partition. -/
theorem within_turn (hal : BlockAligned 512 part) (hl : l <+: Journal.blocks d.devnum 512
    (part.addr.toNat / 512 + turns * 32) (min 32 (part.size.toNat / 512 - turns * 32))
      fun _ => 0) : Journal.Within d.devnum
    (Set.Ico (part.addr.toNat + turns * 16384)
      (min (part.addr.toNat + (turns + 1) * 16384)
        (part.addr.toNat + part.size.toNat))) l := by
  have haddr : part.addr.toNat / 512 * 512 = part.addr.toNat := Nat.div_mul_cancel hal.1
  have hsize : part.size.toNat / 512 * 512 = part.size.toNat := Nat.div_mul_cancel hal.2
  refine (Journal.within_blocks.mono fun x hx => ?_).initial hl
  rw [Set.mem_Ico] at hx ⊢
  omega

/-- All of the partition's blocks written. -/
theorem erases_of_whole (hal : BlockAligned 512 part) (h0 : (obcBlkMmcErase U w part).1 = 0)
    (hdisk : (obcBlkMmcErase U w part).2.disk = Journal.replay w.disk (Journal.blocks d.devnum 512
      (part.addr.toNat / 512) (part.size.toNat / 512) fun _ => 0)) : Erases U w d part where
  ends _ hn := eraseLoopShown_ends hn
  outside dev x hx := by
    rw [hdisk]
    exact Journal.within_blocks.replay_eq fun hd hmem => hx hd (blocks_region hal ▸ hmem)
  whole _ x hx := by
    rw [← blocks_region hal, Set.mem_Ico] at hx
    rw [hdisk]
    exact replay_zeroes hx.1 hx.2
  cut h := absurd h0 h

/-- Those of some turns, and a part of the next one's. -/
theorem erases_of_cut (hal : BlockAligned 512 part) (h1 : (obcBlkMmcErase U w part).1 = -1)
    (hlt : turns * 32 < part.size.toNat / 512)
    (hl : l <+: Journal.blocks d.devnum 512 (part.addr.toNat / 512 + turns * 32)
      (min 32 (part.size.toNat / 512 - turns * 32)) fun _ => 0)
    (hfail : ∃ c ∈ w.since (obcBlkMmcErase U w part).2, c.Failed)
    (hdisk : (obcBlkMmcErase U w part).2.disk = Journal.replay (Journal.replay w.disk
      (Journal.blocks d.devnum 512 (part.addr.toNat / 512) (turns * 32) fun _ => 0)) l) :
    Erases U w d part := by
  have hin := within_turn hal hl
  have hdone : Journal.Within d.devnum _ (Journal.blocks d.devnum 512 (part.addr.toNat / 512)
    (turns * 32) fun _ => (0 : UInt8)) := within_turns hal
  have haddr : part.addr.toNat / 512 * 512 = part.addr.toNat := Nat.div_mul_cancel hal.1
  have hbuf : eraseBufferSize = 16384 := rfl
  have hregion : ∀ x, x ∈ part.region ↔
      part.addr.toNat ≤ x ∧ x < part.addr.toNat + part.size.toNat := fun _ => Iff.rfl
  -- a byte is of the turns done, of the one that failed, or of none
  refine ⟨fun _ hn => eraseLoopShown_ends hn, ?_, fun h => absurd (h1.symm.trans h) (by decide),
    fun _ => ⟨h1, Or.inr ⟨turns, by rw [hbuf]; omega, hfail, ?_, ?_⟩⟩⟩
  · intro dev x hx
    rw [hdisk, hin.replay_eq fun hd hmem => hx hd ((hregion x).2 ?_),
      hdone.replay_eq fun hd hmem => hx hd ((hregion x).2 ?_)]
    · rw [Set.mem_Ico] at hmem
      omega
    · rw [Set.mem_Ico] at hmem
      omega
  · intro x hlo hhi
    rw [hbuf] at hhi
    rw [hdisk, hin.replay_eq fun _ hmem => ?_]
    · exact replay_zeroes (by omega) (by omega)
    · rw [Set.mem_Ico] at hmem
      omega
  · intro x hlo
    rw [hbuf] at hlo
    rw [hdisk, hin.replay_eq fun _ hmem => ?_, hdone.replay_eq fun _ hmem => ?_]
    · rw [Set.mem_Ico] at hmem
      omega
    · rw [Set.mem_Ico] at hmem
      omega

/-- **An erase zeroes its partition**, or the turns of it before the one
that fails. -/
theorem erases_of_aligned (hw : w.On d) (hal : BlockAligned 512 part) : Erases U w d part := by
  have hrun := obcBlkMmcErase_eq U part hw
  by_cases hm : U.malloc w.tick = false
  · rw [if_pos hm] at hrun
    refine ⟨fun _ hn => eraseLoopShown_ends hn, ?_, ?_, ?_⟩ <;> rw [hrun]
    · exact fun _ _ _ => rfl
    · exact fun h => absurd (show (-1 : ℤ) = 0 from h) (by decide)
    · exact fun _ => ⟨rfl, Or.inl ⟨hm, rfl⟩⟩
  rw [if_neg hm, show eraseBufferSize / 512 = 32 from rfl] at hrun
  rcases eraseLoop_cases U (part.addr.toNat / 512) hw.dev (show 0 < 32 by decide)
    (le_refl (part.size.toNat / 512)) with
    ⟨cs, k, hloop⟩ | ⟨turns, l, cs, k, hlt, hl, hfail, hloop⟩
  · rw [hloop] at hrun
    refine erases_of_whole hal (by rw [hrun]) ?_
    rw [hrun, World.disk_advance, hw.blksz]
  · rw [hloop] at hrun
    rw [hw.blksz] at hl
    refine erases_of_cut hal (by rw [hrun]) hlt hl ?_ ?_
    · rw [hrun, World.since_advance]
      exact hfail
    · rw [hrun, World.disk_advance, Journal.replay_append, hw.blksz]

/-- The kernel's partition is erased. -/
theorem erases_kernel0 : Erases Bench.uboot Bench.signedWorld Bench.emmc
    (Bench.signedWorld.parts Bench.uboot 7) :=
  erases_of_aligned Bench.signedWorld_on (Bench.wellLaid.aligned 7 (by decide))

end Erase

end Boot

end ObcSdk
