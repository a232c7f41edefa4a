import ObcSdk.Boot.Bench
import ObcSdk.Boot.Erase
/-!
# What a write to a partition touches

Three operations write to a partition by its label. Each turns byte
addresses into blocks by itself, rounding the start down and the count
up, and only the root file system's writer checks that nothing is lost
by it. The other two stay in their partition exactly when it starts on a
block and the blocks written end in it.
-/

namespace ObcSdk

namespace Boot

/-- An operation on a partition. -/
inductive PartOp where
  | write (fileaddr : ℕ) (fileSize : Int32)
  | writeRootfs (fileaddr : ℕ) (fileSize : Int32)
  | erase

/-- Run it on the partition with a label. -/
def PartOp.run (U : UBoot) (w : World) (pName : List Char) : PartOp → ℤ × World
  | write fileaddr fileSize => obcBlkWritePartByName U w pName fileaddr fileSize
  | writeRootfs fileaddr fileSize => obcBlkWriteRootfsByName U w pName fileaddr fileSize
  | erase => obcBlkEraseMmcPartition U w pName

/-- The blocks it writes lie in its partition: the partition starts on a
block, and the bytes to be written, rounded up to blocks, do not exceed
it. A request that is rejected writes none. -/
def PartOp.Fits (U : UBoot) (w : World) (part : BoardAbilityBlkParts) : PartOp → Prop
  | write fileaddr fileSize => ∀ image,
      obcPrepareWriteImage U w.mem fileaddr fileSize = some image →
      image.writeSize.toNat ≤ part.size.toNat →
      512 ∣ part.addr.toNat ∧ blockCount image.writeSize.toNat 512 * 512 ≤ part.size.toNat
  | writeRootfs _ _ => True
  | erase => U.malloc w.tick = true → 512 ≤ part.size.toNat → 512 ∣ part.addr.toNat

/-- `write_sparse_image` stays inside the blocks it is given. -/
def UBoot.SparseInside (U : UBoot) : Prop :=
  ∀ info data size cs, SparseImage data size info.blksz (info.size * info.blksz) cs →
    (U.writeSparseImage info data).Inside info.start (info.start + info.size)

/-- Between two worlds nothing changed but the bytes `s` of a medium. -/
def Isolated (w w' : World) (dev : ℕ) (s : Set ℕ) : Prop :=
  ∀ d' x, (d' = dev → x ∉ s) → w'.disk d' x = w.disk d' x

/-- The outside with other outcomes of the block transfers. -/
def UBoot.withFault (U : UBoot) (f : ∀ _ _ count : ℕ, Option (Fault count)) : UBoot :=
  { U with fault := f }

/-- The world with other content on the media. -/
def World.withMedia (w : World) (m : ℕ → Store UInt8) : World := { w with media := m, log := [] }

variable {U : UBoot} {w w' : World} {d : BlkDesc} {pName : List Char} {i : ℕ} {op : PartOp}
  {plan : Option (List (Extent ℕ UInt8))} {r : ℤ × World} {s : Set ℕ}

/-- A planned run touches what its plan does. -/
theorem Planned.isolated (h : Planned w plan r)
    (hin : ∀ p, plan = some p → Journal.Within d.devnum s p) :
    Isolated w r.2 d.devnum s := by
  rcases h.cases with ⟨-, rfl⟩ | ⟨p, l, hp, hw, hl, -⟩
  · exact fun _ _ _ => rfl
  · intro d' x hx
    rw [hw.disk]
    exact ((hin p hp).initial hl).replay_eq hx

/-- **Blocks that isolate lie in their region**: whatever they would put
outside it, some medium holds something else there. -/
theorem mem_of_isolated {start count k : ℕ} (buf : Store UInt8) (hk : k < count * d.blksz)
    (h : ∀ m : ℕ → Store UInt8, ∀ d' x, (d' = d.devnum → x ∉ s) →
      Journal.replay m (Journal.blocks d.devnum d.blksz start count buf) d' x = m d' x) :
    start * d.blksz + k ∈ s := by
  by_contra hout
  have := h (fun _ _ => buf k + 1) d.devnum _ fun _ => hout
  rw [Journal.replay_blocks_apply hk] at this
  exact absurd this (by simp)

/-- A run of blocks lies in a partition where it starts with it and does
not exceed it, and nowhere else. -/
theorem blocks_mem_region_iff {part : BoardAbilityBlkParts} {count : ℕ} (hc : 0 < count) :
    (∀ k, k < count * 512 → part.addr.toNat / 512 * 512 + k ∈ part.region) ↔
      512 ∣ part.addr.toNat ∧ count * 512 ≤ part.size.toNat := by
  constructor
  · intro h
    have hfirst := (h 0 (by omega)).1
    have hlast := (h (count * 512 - 1) (by omega)).2
    have hdvd : 512 ∣ part.addr.toNat := by omega
    exact ⟨hdvd, by omega⟩
  · rintro ⟨hdvd, hle⟩ k hk
    exact ⟨by omega, by omega⟩

section Operations

variable (hw : w.On d) (hmmc : U.mmcGetBlkDesc d.devnum = some d)
include hw hmmc

theorem bootTable_of_on : w.bootTable = .mmc := by
  simp only [World.bootTable, hw.dev, if_neg (U.mmc_desc hmmc).2.2]

/-- With an MMC device in use both lookups are in its table. -/
theorem find_of_on : obcBlkFindPartByName U w pName = w.findMmc U pName := by
  rw [obcBlkFindPartByName, World.parts_eq (bootTable_of_on hw hmmc), World.partCount,
    bootTable_of_on hw hmmc]
  rfl

variable (hi : w.findMmc U pName = some i)
include hi

/-! ## Staying inside -/

theorem write_isolated {fileaddr : ℕ} {fileSize : Int32}
    (hfits : (PartOp.write fileaddr fileSize).Fits U w (w.mmcParts U i)) :
    Isolated w (obcBlkWritePartByName U w pName fileaddr fileSize).2 d.devnum
      (w.mmcParts U i).region := by
  refine Planned.isolated (obcBlkWritePartByName_planned _ _ _ hw.dev) ?_
  intro p hp
  obtain ⟨j, image, hj, himage, hle, rfl⟩ := writePartPlan_eq_some hp
  rw [find_of_on hw hmmc, hi] at hj
  obtain rfl := Option.some.inj hj
  rw [World.parts_eq (bootTable_of_on hw hmmc), hw.rdSize] at *
  obtain ⟨hdvd, hround⟩ := hfits image himage hle
  exact within_partBlocks hw.blksz hdvd hround

theorem writeRootfs_isolated {fileaddr : ℕ} {fileSize : Int32} (hU : U.SparseInside) :
    Isolated w (obcBlkWriteRootfsByName U w pName fileaddr fileSize).2 d.devnum
      (w.mmcParts U i).region := by
  have hbs : d.blksz < 2 ^ 32 := by rw [hw.blksz]; decide
  obtain ⟨-, hr⟩ | ⟨j, image, payload, start, hj, hal, -, -, rfl,
    ⟨cs, prog, hcs, rfl, -, hr⟩ | ⟨count, hcount, hle, -, hr⟩⟩ :=
    obcBlkWriteRootfsByName_cases (U := U) pName fileaddr fileSize hw.dev hbs rfl rfl
  · rw [hr]
    exact fun _ _ _ => rfl
  all_goals
    rw [find_of_on hw hmmc, hi] at hj
    obtain rfl := Option.some.inj hj
  · -- the blocks handed to `write_sparse_image` are the partition
    obtain ⟨l, cs', n, hrun, hin⟩ := SparseProg.Inside.run (U := U) hw.dev
      (hU ⟨d.blksz, (w.mmcParts U i).addr.toNat / d.blksz, (w.mmcParts U i).size.toNat / d.blksz⟩
        payload _ cs (by rw [Nat.div_mul_cancel hal.2]; exact hcs))
    rw [Nat.add_mul, Nat.div_mul_cancel hal.1, Nat.div_mul_cancel hal.2] at hin
    have hworld : (obcBlkWriteRootfsByName U w pName fileaddr fileSize).2 = w.advance l cs' n := by
      rw [hr]
      split <;> exact hrun
    intro d' x hx
    rw [hworld, World.disk_advance]
    exact hin.replay_eq hx
  · rw [hr]
    refine (runs_of_blkDwrite hw.dev rfl).planned.isolated ?_
    intro p hp
    obtain rfl := Option.some.inj hp
    refine Journal.within_blocks.mono ?_
    intro x hx
    rw [Nat.add_mul, Nat.div_mul_cancel hal.1, hcount] at hx
    exact ⟨hx.1, hx.2.trans_le (Nat.add_le_add_left hle _)⟩

omit hmmc in
/-- The plan of an erase, its partition found. -/
theorem erasePlan_eq : erasePlan U w d pName = if U.malloc w.tick = false then none
    else some (Journal.blocks d.devnum d.blksz ((w.mmcParts U i).addr.toNat / 512)
      ((w.mmcParts U i).size.toNat / 512) fun _ => 0) := by
  have hfind : obcBlkFindPartByNameEx (w.stAbility.stBlk.part U.beyond .mmc)
      w.stAbility.stBlk.iPartCountMmc pName = some i := hi
  have hbuf : ¬ eraseBufferSize / 512 = 0 := by decide
  simp only [erasePlan, hfind, hw.rdSize, hbuf, or_false]
  rfl

omit hmmc in
theorem erase_isolated (hfits : PartOp.erase.Fits U w (w.mmcParts U i)) :
    Isolated w (obcBlkEraseMmcPartition U w pName).2 d.devnum (w.mmcParts U i).region := by
  refine Planned.isolated (obcBlkEraseMmcPartition_planned pName hw.dev) ?_
  intro p hp
  rw [erasePlan_eq hw hi] at hp
  split at hp
  · cases hp
  rename_i hmalloc
  obtain rfl := Option.some.inj hp
  rcases Nat.lt_or_ge (w.mmcParts U i).size.toNat 512 with hsmall | hlarge
  · rw [Nat.div_eq_of_lt hsmall, Journal.blocks_zero]
    exact fun _ he => nomatch he
  · have hdvd := hfits (by simpa using hmalloc) hlarge
    refine Journal.within_blocks.mono ?_
    intro x hx
    rw [hw.blksz, Nat.add_mul, Nat.div_mul_cancel hdvd] at hx
    exact ⟨hx.1, hx.2.trans_le (Nat.add_le_add_left (Nat.div_mul_le_self _ _) _)⟩

/-- **An operation that fits stays in its partition.** -/
theorem PartOp.Fits.isolated (hU : U.SparseInside) (hfits : op.Fits U w (w.mmcParts U i)) :
    Isolated w (op.run U w pName).2 d.devnum (w.mmcParts U i).region := by
  cases op with
  | write fileaddr fileSize => exact write_isolated hw hmmc hi hfits
  | writeRootfs fileaddr fileSize => exact writeRootfs_isolated hw hmmc hi hU
  | erase => exact erase_isolated hw hi hfits

/-! ## Not staying inside -/

/-- **And one that does not fit** leaves it, on some medium and with every
transfer whole. -/
theorem PartOp.fits_of_isolated
    (h : ∀ m : ℕ → Store UInt8, Isolated (w.withMedia m)
      (op.run (U.withFault fun _ _ _ => none) (w.withMedia m) pName).2 d.devnum
      (w.mmcParts U i).region) : op.Fits U w (w.mmcParts U i) := by
  have inside : ∀ {start count : ℕ} (buf : Store UInt8),
      (∀ m, (op.run (U.withFault fun _ _ _ => none) (w.withMedia m) pName).2.disk =
        Journal.replay m (Journal.blocks d.devnum d.blksz start count buf)) →
      ∀ k, k < count * 512 → start * 512 + k ∈ (w.mmcParts U i).region := by
    intro start count buf hdisk k hk
    rw [← hw.blksz] at hk ⊢
    refine mem_of_isolated buf hk ?_
    intro m d' x hx
    rw [← hdisk m]
    exact h m d' x hx
  cases op with
  | writeRootfs fileaddr fileSize => trivial
  | write fileaddr fileSize =>
    intro image himage hle
    have hpos : 0 < blockCount image.writeSize.toNat 512 :=
      blockCount_pos (by decide) (obcPrepareWriteImage_pos himage)
    rw [← blocks_mem_region_iff hpos]
    refine inside (Store.tail w.mem image.writeData) ?_
    intro m
    -- without faults and on any media the same plan is carried out
    have hplan : writePartPlan (U.withFault fun _ _ _ => none) (w.withMedia m) d pName fileaddr
        fileSize = some (partBlocks d 512 (w.mmcParts U i) image.writeSize.toNat
          (Store.tail w.mem image.writeData)) := by
      have hplan : writePartPlan U w d pName fileaddr fileSize = some (partBlocks d 512
          (w.mmcParts U i) image.writeSize.toNat (Store.tail w.mem image.writeData)) := by
        rw [writePartPlan_eq ((find_of_on hw hmmc).trans hi) himage, hw.rdSize,
          World.parts_eq (bootTable_of_on hw hmmc), if_pos hle]
      exact hplan
    exact (obcBlkWritePartByName_of_plan (w := w.withMedia m) (fun _ _ => rfl) hw.dev hplan).2
  | erase =>
    intro hmalloc hlarge
    have hpos : 0 < (w.mmcParts U i).size.toNat / 512 := Nat.div_pos hlarge (by decide)
    refine ((blocks_mem_region_iff hpos).1 (inside (fun _ => 0) ?_)).1
    intro m
    have hplan : erasePlan (U.withFault fun _ _ _ => none) (w.withMedia m) d pName =
        some (Journal.blocks d.devnum d.blksz ((w.mmcParts U i).addr.toNat / 512)
          ((w.mmcParts U i).size.toNat / 512) fun _ => 0) := by
      have hplan := erasePlan_eq hw hi
      rw [if_neg (by simp [hmalloc])] at hplan
      exact hplan
    exact obcBlkEraseMmcPartition_of_plan (w := w.withMedia m) (fun _ _ _ => rfl) hw.dev hplan

end Operations

/-! ## Sequences of operations -/

/-- A label the table does not have. -/
theorem PartOp.run_of_find_none (hw : w.On d) (hmmc : U.mmcGetBlkDesc d.devnum = some d)
    (hi : w.findMmc U pName = none) : (op.run U w pName).2 = w := by
  have hfind : obcBlkFindPartByName U w pName = none := (find_of_on hw hmmc).trans hi
  cases op with
  | write fileaddr fileSize => simp only [PartOp.run, obcBlkWritePartByName, hfind]
  | writeRootfs fileaddr fileSize =>
    simp only [PartOp.run, obcBlkWriteRootfsByName, hw.dev, hfind]
    split <;> rfl
  | erase =>
    have hfind : obcBlkFindPartByNameEx (w.stAbility.stBlk.part U.beyond .mmc)
      w.stAbility.stBlk.iPartCountMmc pName = none := hi
    simp only [PartOp.run, obcBlkEraseMmcPartition, hfind]

variable (op pName) in
/-- An operation keeps the device, the tables and the memory. -/
theorem PartOp.run_advance (hw : w.On d) : ∃ l cs n, (op.run U w pName).2 = w.advance l cs n := by
  cases op with
  | write fileaddr fileSize =>
    exact Planned.exists_advance (obcBlkWritePartByName_planned _ _ _ hw.dev)
  | writeRootfs fileaddr fileSize =>
    exact obcBlkWriteRootfsByName_advance _ _ _ hw.dev (by rw [hw.blksz]; decide)
  | erase => exact Planned.exists_advance (obcBlkEraseMmcPartition_planned pName hw.dev)

/-- A run of operations on named partitions, each of which fits, with
downloads between them. -/
inductive OpRun (U : UBoot) : World → List (List Char) → World → Prop
  | nil {w : World} : OpRun U w [] w
  | load {w w' : World} {mem : Store UInt8} {cs : List Call} {n : ℕ} {names : List (List Char)} :
      OpRun U (w.loaded mem cs n) names w' → OpRun U w names w'
  | op {w w' : World} {pName : List Char} {op : PartOp} {names : List (List Char)} :
      (∀ i, w.findMmc U pName = some i → op.Fits U w (w.mmcParts U i)) →
      OpRun U (op.run U w pName).2 names w' → OpRun U w (pName :: names) w'

/-- The bytes of the partitions with some labels. -/
def World.regions (U : UBoot) (w : World) (names : List (List Char)) : Set ℕ :=
  {x | ∃ pName ∈ names, ∃ i, w.findMmc U pName = some i ∧ x ∈ (w.mmcParts U i).region}

/-- **A run touches the partitions it names**, and nothing else. -/
theorem OpRun.isolated (hU : U.SparseInside) (hw : w.On d)
    (hmmc : U.mmcGetBlkDesc d.devnum = some d) {names : List (List Char)}
    (h : OpRun U w names w') : Isolated w w' d.devnum (w.regions U names) := by
  induction h with
  | nil => exact fun _ _ _ => rfl
  | @load w w' mem cs n names hrun ih =>
    intro d' x hx
    rw [ih ⟨hw.dev, hw.blksz, hw.rdSize⟩ d' x hx, World.loaded_disk]
  | @op w w' pName op names hfits hrun ih =>
    obtain ⟨l, cs, n, hadv⟩ := PartOp.run_advance (U := U) pName op hw
    rw [hadv] at ih
    intro d' x hx
    rw [ih ⟨hw.dev, hw.blksz, hw.rdSize⟩ d' x ?_, ← hadv]
    · cases hi : w.findMmc U pName with
      | none => rw [PartOp.run_of_find_none hw hmmc hi]
      | some i =>
        refine (hfits i hi).isolated hw hmmc hi hU d' x fun hd hin => hx hd ?_
        exact ⟨pName, List.mem_cons_self, i, hi, hin⟩
    · rintro hd ⟨q, hq, i, hi, hin⟩
      exact hx hd ⟨q, List.mem_cons_of_mem _ hq, i, hi, hin⟩

/-- **Partition isolation, exactly.** Whatever the media hold and whatever
the transfers come to, an operation leaves every byte outside its
partition alone if and only if it fits; and so a run of operations that
fit leaves alone every byte outside the partitions it names. -/
theorem partition_isolation (hU : U.SparseInside) (hw : w.On d)
    (hmmc : U.mmcGetBlkDesc d.devnum = some d) :
    (∀ (op : PartOp) pName i, w.findMmc U pName = some i →
      ((∀ f m, Isolated (w.withMedia m) (op.run (U.withFault f) (w.withMedia m) pName).2 d.devnum
        (w.mmcParts U i).region) ↔ op.Fits U w (w.mmcParts U i))) ∧
    ∀ names w', OpRun U w names w' → Isolated w w' d.devnum (w.regions U names) := by
  refine ⟨fun op pName i hi => ⟨?_, ?_⟩, ?_⟩
  · intro h
    exact PartOp.fits_of_isolated hw hmmc hi fun m => h _ m
  · intro hfits f m
    have hfits : op.Fits (U.withFault f) (w.withMedia m) (w.mmcParts U i) := by
      cases op <;> exact hfits
    exact hfits.isolated (U := U.withFault f) (w := w.withMedia m)
      ⟨hw.dev, hw.blksz, hw.rdSize⟩ hmmc hi hU
  · intro names w' hrun
    exact hrun.isolated hU hw hmmc

/-! ## A partition off the block boundary -/

/-- A device tree with one partition, of 512 bytes at byte 256. -/
def Bench.oddFdt : FdtNode :=
  .mk [] [("obcpart", "obc-mmc".toList.map fun c => UInt8.ofNat c.toNat)]
    [.mk "partitions".toList []
      [.mk [] [("label", [0x70, 0]), ("reg", [0, 0, 1, 0, 0, 0, 2, 0])] []]]

/-- The bench board with the table parsed out of it. -/
def Bench.oddWorld : World :=
  (Bench.world fun _ => 1).withAbility
    { Bench.ability with stBlk := parseTables Bench.oddFdt Bench.ability.stBlk }

theorem Bench.oddWorld_on : Bench.oddWorld.On Bench.emmc := ⟨rfl, rfl, by decide +kernel⟩

theorem Bench.sparseInside : Bench.uboot.SparseInside := by
  intro info data size cs h
  have hcs := h.tiles.eq_chunksFrom
  rw [h.count] at hcs
  refine chunksProg_inside le_rfl (Nat.add_le_add_left ?_ _)
  rw [← hcs, h.sum]
  rcases Nat.eq_zero_or_pos info.blksz with h0 | hpos
  · rw [h0, Nat.div_zero, Nat.mul_zero]
    exact Nat.zero_le _
  · refine Nat.le_of_mul_le_mul_right ?_ hpos
    rw [Nat.mul_assoc, Nat.div_mul_cancel h.storage]
    exact h.expanded

/-- The isolation of the bench board's operations. -/
theorem partition_isolation_bench :
    (∀ (op : PartOp) pName i, Bench.oddWorld.findMmc Bench.uboot pName = some i →
      ((∀ f m, Isolated (Bench.oddWorld.withMedia m)
        (op.run (Bench.uboot.withFault f) (Bench.oddWorld.withMedia m) pName).2 0
        (Bench.oddWorld.mmcParts Bench.uboot i).region) ↔
        op.Fits Bench.uboot Bench.oddWorld (Bench.oddWorld.mmcParts Bench.uboot i))) ∧
    ∀ names w', OpRun Bench.uboot Bench.oddWorld names w' →
      Isolated Bench.oddWorld w' 0 (Bench.oddWorld.regions Bench.uboot names) :=
  partition_isolation Bench.sparseInside Bench.oddWorld_on rfl

/-- **A write of one byte** to that partition goes to the block its
address falls in, and the bytes before the partition with it. -/
theorem partition_not_isolated :
    ¬ ∀ (U : UBoot) (w : World) (d : BlkDesc) (root : FdtNode) (blk : BoardAbilityBlk)
      (op : PartOp) (pName : List Char) (i : ℕ), w.stAbility.stBlk = parseTables root blk →
      U.SparseInside → w.On d → U.mmcGetBlkDesc d.devnum = some d →
      w.findMmc U pName = some i →
      Isolated w (op.run U w pName).2 d.devnum (w.mmcParts U i).region := by
  intro h
  have hbyte := h Bench.uboot Bench.oddWorld Bench.emmc Bench.oddFdt Bench.ability.stBlk
    (.write updatexLoadeAddr 1) ['p'] 0 rfl Bench.sparseInside Bench.oddWorld_on rfl
    (by decide +kernel) 0 0 fun _ hin => absurd hin.1 (by decide +kernel)
  exact absurd hbyte (by decide +kernel)

end Boot

end ObcSdk
