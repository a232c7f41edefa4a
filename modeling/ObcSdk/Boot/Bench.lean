import ObcSdk.Boot.Bootk
import ObcSdk.Boot.Updatex
import ObcSdk.Tools.Sign
/-!
# A board to run on

An outside on which every transfer is whole and every command succeeds,
a table laid out as the eMMC's is, and a `write_sparse_image` that hands
over one transfer for each chunk. The results quantify over every
outside; this is one they hold of.
-/

namespace ObcSdk

namespace Boot

namespace Bench

/-! ## A `write_sparse_image` -/

/-- One transfer, and `rest` behind it unless it falls short. -/
def transfer (blk count : ℕ) (buf : Store UInt8) (rest : SparseProg) : SparseProg :=
  .write blk count buf fun n => if n < count then .ret (-1) else rest

/-- The chunks from `off` on, one transfer each. -/
def chunksProg (data : Store UInt8) (bsz blkSz : ℕ) : ℕ → ℕ → List SparseChunk → SparseProg
  | _, _, [] => .ret 0
  | off, blk, c :: cs =>
    let count := c.blocks * (blkSz / bsz)
    let rest := chunksProg data bsz blkSz (off + c.size blkSz) (blk + count) cs
    match c with
    | .raw _ => transfer blk count (Store.tail data (off + 12)) rest
    | .fill _ => transfer blk count (fun i => data (off + 12 + i % 4)) rest
    | .dontCare _ | .crc32 => rest

/-- The chunks a buffer's header counts. -/
def writeSparseImage (info : SparseStorage) (data : Store UInt8) : SparseProg :=
  let h := SparseHeader.ofStore data
  chunksProg data info.blksz h.blkSz sparseHeaderSize info.start
    (chunksFrom data h.blkSz h.totalChunks sparseHeaderSize)

section Sparse

variable {data buf : Store UInt8} {dev bsz blkSz off blk count a b : ℕ} {cs : List SparseChunk}
  {rest : SparseProg} {l : List (Extent ℕ UInt8)}

theorem transfer_emits (h : rest.Emits dev bsz l) :
    (transfer blk count buf rest).Emits dev bsz (Journal.blocks dev bsz blk count buf ++ l) := by
  refine ⟨⟨l, rfl, ?_⟩, fun n hn => ⟨-1, by decide, if_pos hn⟩⟩
  simpa using h

theorem transfer_succeeds (h : rest.Succeeds) : (transfer blk count buf rest).Succeeds := by
  simpa [transfer, SparseProg.Succeeds] using h

theorem transfer_inside (h : rest.Inside a b) (ha : a ≤ blk) (hb : blk + count ≤ b) :
    (transfer blk count buf rest).Inside a b := by
  refine ⟨ha, hb, ?_⟩
  intro n
  simp only []
  split
  · trivial
  · exact h

/-- The chunks' transfers are the writes the chunks describe. -/
theorem chunksProg_emits :
    (chunksProg data bsz blkSz off blk cs).Emits dev bsz
      (chunksJournal data dev bsz blkSz off blk cs) := by
  induction cs generalizing off blk with
  | nil => exact ⟨rfl, rfl⟩
  | cons c cs ih =>
    cases c with
    | raw n => exact transfer_emits ih
    | fill n => exact transfer_emits ih
    | dontCare n => exact ih
    | crc32 => exact ih

theorem chunksProg_succeeds : (chunksProg data bsz blkSz off blk cs).Succeeds := by
  induction cs generalizing off blk with
  | nil => rfl
  | cons c cs ih =>
    cases c with
    | raw n => exact transfer_succeeds ih
    | fill n => exact transfer_succeeds ih
    | dontCare n => exact ih
    | crc32 => exact ih

/-- And lie in the chunks' blocks. -/
theorem chunksProg_inside (ha : a ≤ blk)
    (hb : blk + (cs.map SparseChunk.blocks).sum * (blkSz / bsz) ≤ b) :
    (chunksProg data bsz blkSz off blk cs).Inside a b := by
  induction cs generalizing off blk with
  | nil => trivial
  | cons c cs ih =>
    rw [List.map_cons, List.sum_cons, Nat.add_mul, ← Nat.add_assoc] at hb
    have hrest : (chunksProg data bsz blkSz (off + c.size blkSz)
        (blk + c.blocks * (blkSz / bsz)) cs).Inside a b := ih (ha.trans (Nat.le_add_right _ _)) hb
    have hc := (Nat.le_add_right _ _).trans hb
    cases c with
    | raw n => exact transfer_inside hrest ha hc
    | fill n => exact transfer_inside hrest ha hc
    | dontCare n => exact hrest
    | crc32 => exact hrest

end Sparse

/-! ## The outside -/

/-- A partition by its label. -/
def part (name : String) (addr size : UInt32) : BoardAbilityBlkParts :=
  ⟨setCString (Vector.replicate 16 '\x00') name.toList, addr, size, 0⟩

/-- The eMMC's layout. -/
def layout : List BoardAbilityBlkParts :=
  [part "loader0" 0x80000 0x400000, part "loader1" 0x480000 0x400000,
    part "sysflag" 0x880000 0x80000, part "fdt0" 0x900000 0x80000, part "fdt1" 0x980000 0x80000,
    part "teeos0" 0xA00000 0x200000, part "teeos1" 0xC00000 0x200000,
    part "kernel0" 0x1000000 0x1000000, part "kernel1" 0x2000000 0x1000000,
    part "rootfs0" 0x3000000 0x8000000, part "rootfs1" 0xB000000 0x8000000]

/-- The table the layout makes. -/
def ability : BoardAbilityTable where
  magic := ⟨#['O', 'B', 'C', 'F', 'S', '\x00'], rfl⟩
  stBoot := ⟨boardAbilityDevEmmc, 0, 0, 0x81000000, 0x82000000, 0x84000000⟩
  stBlk :=
    { iRdSize := 512
      defFdt := 0
      stPartsMmc := Vector.ofFn fun i => layout.getD i .zero
      stPartsFlash := Vector.replicate _ .zero
      iPartCountMmc := layout.length
      iPartCountFlash := 0 }

/-- A file of three blocks with an ext image's magic. -/
def image : List UInt8 :=
  1 :: (List.replicate 1079 1 ++ [0x53, 0xEF] ++ List.replicate 454 1)

/-- The image's first byte, where it is written. -/
theorem write_image (m : Store UInt8) (a : ℕ) : Store.write m a image a = 1 := by
  rw [Store.write, if_pos le_rfl, Nat.sub_self]
  rfl

/-- The outside: whole transfers, commands that succeed, and `image` for
every download. -/
def uboot : UBoot where
  fault _ _ _ := none
  crc16 crc bs := UInt16.ofBitVec (Crc.run 0xA001#16 crc.toBitVec bs)
  getBootDevice := .mmc1
  findMmcDevice _ _ := true
  mmcInit _ _ := 0
  blkSelectHwpartDevnum _ _ := 0
  mmcGetBlkDesc dev := some ⟨dev, 0, mmcBlksz⟩
  isSd _ := false
  mmcSetPartConf _ := (0, 0x38)
  unzip _ _ _ := ⟨0, []⟩
  cpB _ := (0, 0)
  booti _ := 0
  load _ _ := ⟨0, image, some 1536⟩
  writeSparseImage := writeSparseImage
  malloc _ := true
  fdt _ _ := .mk [] [] []
  shmem := ability
  beyond _ := .zero
  mmc_desc h := by
    cases h
    exact ⟨rfl, rfl, by simp⟩

/-- The eMMC. -/
def emmc : BlkDesc := ⟨0, 0, mmcBlksz⟩

/-- U-Boot at its prompt, with the eMMC in use, nothing on the media and
`mem` in memory. -/
def world (mem : Store UInt8) : World where
  mem := mem
  media _ _ := 0
  log := []
  trace := []
  tick := 0
  gstBlkDev := some emmc
  stAbility := ability
  env _ := none
  gIUpDevType := emmcDevIndex
  gIUpSrcType := .sd

/-- `image` downloaded. -/
def imageWorld : World := world (Store.write (fun _ => 0) updatexLoadeAddr image)

/-- One byte, signed. -/
def signed : List UInt8 := (Tools.packHead [] [] [0xAB] 1).bytes ++ [0xAB]

/-- It downloaded. -/
def signedWorld : World := world (Store.write (fun _ => 0) updatexLoadeAddr signed)

variable {mem : Store UInt8}

theorem world_on : (world mem).On emmc := ⟨rfl, rfl, rfl⟩

theorem signedWorld_on : signedWorld.On emmc := world_on

theorem writesSparse : uboot.WritesSparse where
  short _ _ _ _ h := nomatch h
  emits _ _ _ _ _ _ := chunksProg_emits

/-- No two labels are the same. -/
theorem name_inj : ∀ i j : ℕ, (i : ℤ) < (world mem).partCount → (j : ℤ) < (world mem).partCount →
    ((world mem).parts uboot i).name = ((world mem).parts uboot j).name → i = j := by
  have h : ∀ i < 11, ∀ j < 11, (ability.stBlk.part uboot.beyond .mmc i).name =
      (ability.stBlk.part uboot.beyond .mmc j).name → i = j := by decide +kernel
  intro i j hi hj
  have hi : (i : ℤ) < 11 := hi
  have hj : (j : ℤ) < 11 := hj
  exact h i (by omega) j (by omega)

/-- The layout is one of disjoint partitions on block boundaries. -/
theorem wellLaid : WellLaid 512 ((world mem).parts uboot) (world mem).partCount := by
  have ha : ∀ i < 11, (ability.stBlk.part uboot.beyond .mmc i).addr.toNat % 512 = 0 ∧
      (ability.stBlk.part uboot.beyond .mmc i).size.toNat % 512 = 0 := by decide +kernel
  have hd : ∀ i < 11, ∀ j < 11, i ≠ j →
      (ability.stBlk.part uboot.beyond .mmc i).addr.toNat +
        (ability.stBlk.part uboot.beyond .mmc i).size.toNat ≤
          (ability.stBlk.part uboot.beyond .mmc j).addr.toNat ∨
      (ability.stBlk.part uboot.beyond .mmc j).addr.toNat +
        (ability.stBlk.part uboot.beyond .mmc j).size.toNat ≤
          (ability.stBlk.part uboot.beyond .mmc i).addr.toNat := by decide +kernel
  constructor
  · intro i hi
    have hi : (i : ℤ) < 11 := hi
    have := ha i (by omega)
    exact ⟨Nat.dvd_of_mod_eq_zero this.1, Nat.dvd_of_mod_eq_zero this.2⟩
  · intro i j hi hj hij
    have hi : (i : ℤ) < 11 := hi
    have hj : (j : ℤ) < 11 := hj
    refine Set.disjoint_left.2 ?_
    intro x hx hx'
    rcases hd i (by omega) j (by omega) hij with h | h
    · exact absurd (hx.2.trans_le (h.trans hx'.1)) (Nat.lt_irrefl _)
    · exact absurd (hx'.2.trans_le (h.trans hx.1)) (Nat.lt_irrefl _)

end Bench

end Boot

end ObcSdk
