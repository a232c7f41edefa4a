import ObcSdk.Boot.Read
/-!
# Writing an image to a partition

`obc_prepare_write_image`, which decides what of a download goes to the
medium, and `obc_blk_write_part_by_name`, which puts it there. Every
check precedes the one block write, so a run of the writer is a
rejection that touched nothing or the run of a plan fixed beforehand.
-/

namespace ObcSdk

namespace Boot

/-- `struct obc_write_image`; the pointers are load addresses. -/
structure ObcWriteImage where
  payload : ℕ
  payloadSize : UInt32
  writeData : ℕ
  writeSize : UInt32
  hasHeader : Bool
  headWriteFlag : UInt16

/-- `obc_prepare_write_image`, `none` for `-1`. -/
def obcPrepareWriteImage (U : UBoot) (m : Store UInt8) (fileaddr : ℕ) (fileSize : Int32) :
    Option ObcWriteImage :=
  let header := ObcPackHead.ofStore m fileaddr
  let data := fileaddr + obcHeaderSize
  let size := fileSize.toUInt32
  if fileSize ≤ 0 then none
  -- no header: the download goes out as it is
  else if fileSize < 5 ∨ ¬ header.HasMagic then some ⟨fileaddr, size, fileaddr, size, false, 0⟩
  else if fileSize < 512 then none
  else if header.fileSize = 0 ∨ header.fileSize ≠ (fileSize - 512).toUInt32 then none
  else if 1 < header.headWriteFlag then none
  else if obcVerifyPackHeader U m fileaddr data ≠ 0 then none
  else if header.headWriteFlag ≠ 0 then
    some ⟨data, header.fileSize, fileaddr, size, true, header.headWriteFlag⟩
  else some ⟨data, header.fileSize, data, header.fileSize, true, header.headWriteFlag⟩

/-- `obc_blk_write_part_by_name`. -/
def obcBlkWritePartByName (U : UBoot) (w : World) (pName : List Char) (fileaddr : ℕ)
    (fileSize : Int32) : ℤ × World :=
  match obcBlkFindPartByName U w pName with
  | none => (-1, w)
  | some i =>
    let part := w.parts U i
    match obcPrepareWriteImage U w.mem fileaddr fileSize with
    | none => (-1, w)
    | some image =>
      if part.size < image.writeSize then (-1, w) else
      let rd := w.stAbility.stBlk.iRdSize
      let count := blockCount image.writeSize.toNat rd
      let r := blkDwrite U w (part.addr.toNat / rd) count (Store.tail w.mem image.writeData)
      if r.1 ≠ count then (-1, r.2) else (0, r.2)

/-! ## What goes to the medium -/

section Prepare

variable {U : UBoot} {m : Store UInt8} {fileaddr : ℕ} {fileSize : Int32} {image : ObcWriteImage}
  {head : ObcPackHead}

/-- A download of `fileSize` bytes is a package with the header `head`,
and passes its checks. -/
structure Packed (U : UBoot) (m : Store UInt8) (fileaddr : ℕ) (fileSize : Int32)
    (head : ObcPackHead) : Prop where
  head_eq : ObcPackHead.ofStore m fileaddr = head
  magic : head.HasMagic
  long : 512 ≤ fileSize
  nonempty : head.fileSize ≠ 0
  size : head.fileSize = (fileSize - 512).toUInt32
  flag : head.headWriteFlag ≤ 1
  crc : obcCalculateCrc16 U (Store.read m (fileaddr + obcHeaderSize) head.fileSize.toNat) =
    head.crc16

theorem Packed.fileSize_add (h : Packed U m fileaddr fileSize head) :
    head.fileSize.toNat + 512 = fileSize.toUInt32.toNat := by
  have hle : (512 : Int32).toUInt32 ≤ fileSize.toUInt32 := Int32.toUInt32_le (by decide) h.long
  rw [h.size, Int32.toUInt32_sub, UInt32.toNat_sub_of_le _ _ hle]
  have := UInt32.le_iff_toNat_le.1 hle
  rw [show (512 : Int32).toUInt32.toNat = 512 from rfl] at this ⊢
  omega

/-- **What a download is prepared as**: itself where it has no header,
and where it has one, a verified package, whole or without its header
as `head_write_flag` says. -/
theorem obcPrepareWriteImage_cases (h : obcPrepareWriteImage U m fileaddr fileSize = some image) :
    0 < fileSize ∧
    (((fileSize < 5 ∨ ¬ (ObcPackHead.ofStore m fileaddr).HasMagic) ∧
      image = ⟨fileaddr, fileSize.toUInt32, fileaddr, fileSize.toUInt32, false, 0⟩) ∨
    ∃ head, Packed U m fileaddr fileSize head ∧
      (head.headWriteFlag = 1 ∧ image = ⟨fileaddr + obcHeaderSize, head.fileSize, fileaddr,
        fileSize.toUInt32, true, head.headWriteFlag⟩ ∨
      head.headWriteFlag = 0 ∧ image = ⟨fileaddr + obcHeaderSize, head.fileSize,
        fileaddr + obcHeaderSize, head.fileSize, true, head.headWriteFlag⟩)) := by
  have one_of_ne : ∀ f : UInt16, f ≤ 1 → f ≠ 0 → f = 1 := by
    intro f h1 h0
    have h1 := UInt16.le_iff_toNat_le.1 h1
    have h0 : f.toNat ≠ 0 := fun h => h0 (UInt16.toNat_inj.1 h)
    exact UInt16.toNat_inj.1 (Nat.le_antisymm h1 (Nat.pos_of_ne_zero h0))
  -- the checks in the source's order, each of them passed
  simp only [obcPrepareWriteImage] at h
  split at h
  · cases h
  rename_i hpos
  refine ⟨Int32.not_le.1 hpos, ?_⟩
  split at h
  · rename_i hraw
    exact Or.inl ⟨hraw, (Option.some.inj h).symm⟩
  rename_i hraw
  split at h
  · cases h
  rename_i hlong
  split at h
  · cases h
  rename_i hsize
  split at h
  · cases h
  rename_i hflag
  split at h
  · cases h
  rename_i hver
  rw [not_or, not_not] at hraw
  rw [not_or, not_not] at hsize
  have hpk : Packed U m fileaddr fileSize (ObcPackHead.ofStore m fileaddr) :=
    ⟨rfl, hraw.2, Int32.not_lt.1 hlong, hsize.1, hsize.2, UInt16.not_lt.1 hflag,
      (obcVerifyPackHeader_eq_zero.1 (not_not.1 hver)).2⟩
  refine Or.inr ⟨_, hpk, ?_⟩
  split at h
  · rename_i hwhole
    exact Or.inl ⟨one_of_ne _ hpk.flag hwhole, (Option.some.inj h).symm⟩
  · rename_i hbare
    exact Or.inr ⟨not_not.1 hbare, (Option.some.inj h).symm⟩

/-- What goes out is not empty. -/
theorem obcPrepareWriteImage_pos (h : obcPrepareWriteImage U m fileaddr fileSize = some image) :
    0 < image.writeSize.toNat := by
  have pos : ∀ n : UInt32, n ≠ 0 → 0 < n.toNat := fun n hn =>
    Nat.pos_of_ne_zero fun h0 => hn (UInt32.toNat_inj.1 h0)
  obtain ⟨hpos, ⟨-, rfl⟩ | ⟨head, hpk, ⟨-, rfl⟩ | ⟨-, rfl⟩⟩⟩ := obcPrepareWriteImage_cases h
  · have hne : fileSize ≠ 0 := by
      intro h0
      rw [h0] at hpos
      exact absurd hpos (by decide)
    refine pos fileSize.toUInt32 fun h0 => hne ?_
    rw [← Int32.toInt32_toUInt32 fileSize, h0]
    rfl
  · have := hpk.fileSize_add
    show 0 < fileSize.toUInt32.toNat
    omega
  · exact pos _ hpk.nonempty

/-- The lengths of a package agree: its file's, an `int`, and its
header's. -/
theorem packed_size {n : ℕ} {size : UInt32} (hn : n + 512 < 2 ^ 31) (hsize : size.toNat = n) :
    (512 : Int32) ≤ Int32.ofNat (512 + n) ∧ size = (Int32.ofNat (512 + n) - 512).toUInt32 := by
  constructor
  · rw [Int32.le_iff_toInt_le, Int32.toInt_ofNat_of_lt (by omega)]
    show (512 : ℤ) ≤ _
    omega
  · have hle : (512 : UInt32).toNat ≤ (UInt32.ofNat (512 + n)).toNat := by
      rw [UInt32.toNat_ofNat_of_lt' (show 512 + n < 2 ^ 32 by omega)]
      exact Nat.le_add_right ..
    rw [← UInt32.toNat_inj, hsize, Int32.toUInt32_sub, Int32.toUInt32_ofNat']
    rw [Int32.toUInt32_ofNat, UInt32.toNat_sub_of_le _ _ (UInt32.le_iff_toNat_le.2 hle),
      UInt32.toNat_ofNat_of_lt' (show 512 + n < 2 ^ 32 by omega)]
    exact (Nat.add_sub_cancel_left ..).symm

/-- **What a package is prepared as**, its CRC aside. -/
theorem obcPrepareWriteImage_eq (hmagic : head.HasMagic)
    (hhead : ObcPackHead.ofStore m fileaddr = head) (hlong : 512 ≤ fileSize)
    (hne : head.fileSize ≠ 0) (hsize : head.fileSize = (fileSize - 512).toUInt32)
    (hflag : head.headWriteFlag ≤ 1) :
    obcPrepareWriteImage U m fileaddr fileSize =
      if obcCalculateCrc16 U (Store.read m (fileaddr + obcHeaderSize) head.fileSize.toNat) ≠
          head.crc16 then none
      else if head.headWriteFlag ≠ 0 then some ⟨fileaddr + obcHeaderSize, head.fileSize, fileaddr,
        fileSize.toUInt32, true, head.headWriteFlag⟩
      else some ⟨fileaddr + obcHeaderSize, head.fileSize, fileaddr + obcHeaderSize, head.fileSize,
        true, head.headWriteFlag⟩ := by
  have hver : obcVerifyPackHeader U m fileaddr (fileaddr + obcHeaderSize) ≠ 0 ↔
      obcCalculateCrc16 U (Store.read m (fileaddr + obcHeaderSize) head.fileSize.toNat) ≠
        head.crc16 := by
    rw [Ne, obcVerifyPackHeader_eq_zero, hhead, not_and]
    exact ⟨fun h => h hmagic, fun h _ => h⟩
  have h0 : ¬ fileSize ≤ 0 := Int32.not_le.2 (Int32.lt_of_lt_of_le (by decide) hlong)
  have h5 : ¬ fileSize < 5 := Int32.not_lt.2 (Int32.le_trans (by decide) hlong)
  simp only [obcPrepareWriteImage, hhead, hver]
  rw [if_neg h0, if_neg (not_or.2 ⟨h5, not_not.2 hmagic⟩), if_neg (Int32.not_lt.2 hlong),
    if_neg (not_or.2 ⟨hne, not_not.2 hsize⟩), if_neg (UInt16.not_lt.2 hflag)]

/-- A package with its header kept goes out whole. -/
theorem obcPrepareWriteImage_of_packed (h : Packed U m fileaddr fileSize head)
    (hflag : head.headWriteFlag = 1) :
    obcPrepareWriteImage U m fileaddr fileSize = some
      ⟨fileaddr + obcHeaderSize, head.fileSize, fileaddr, fileSize.toUInt32, true, 1⟩ := by
  rw [obcPrepareWriteImage_eq h.magic h.head_eq h.long h.nonempty h.size h.flag,
    if_neg (not_not.2 h.crc), hflag, if_pos (by decide)]

end Prepare

/-! ## The plan of a write -/

/-- The journal a write of `n` bytes to a partition is to put on `d`: the
blocks those bytes take, from the block its address falls in. -/
def partBlocks (d : BlkDesc) (rd : ℕ) (part : BoardAbilityBlkParts) (n : ℕ)
    (buf : Store UInt8) : List (Extent ℕ UInt8) :=
  Journal.blocks d.devnum d.blksz (part.addr.toNat / rd) (blockCount n rd) buf

/-- The journal `obc_blk_write_part_by_name` is to put on `d`; `none`
where it rejects the download. -/
def writePartPlan (U : UBoot) (w : World) (d : BlkDesc) (pName : List Char) (fileaddr : ℕ)
    (fileSize : Int32) : Option (List (Extent ℕ UInt8)) :=
  match obcBlkFindPartByName U w pName with
  | none => none
  | some i =>
    match obcPrepareWriteImage U w.mem fileaddr fileSize with
    | none => none
    | some image =>
      if (w.parts U i).size < image.writeSize then none else
      some (partBlocks d w.stAbility.stBlk.iRdSize (w.parts U i) image.writeSize.toNat
        (Store.tail w.mem image.writeData))

section Plan

variable {U : UBoot} {w : World} {d : BlkDesc} {pName : List Char} {fileaddr : ℕ}
  {fileSize : Int32} {p : List (Extent ℕ UInt8)} {part : BoardAbilityBlkParts} {n rd : ℕ}
  {buf : Store UInt8}

variable (pName fileaddr fileSize) in
/-- **Every check precedes the write.** -/
theorem obcBlkWritePartByName_planned (hd : w.gstBlkDev = some d) :
    Planned w (writePartPlan U w d pName fileaddr fileSize)
      (obcBlkWritePartByName U w pName fileaddr fileSize) := by
  unfold writePartPlan obcBlkWritePartByName
  cases obcBlkFindPartByName U w pName with
  | none => rfl
  | some i =>
    cases obcPrepareWriteImage U w.mem fileaddr fileSize with
    | none => rfl
    | some image =>
      by_cases hsize : (w.parts U i).size < image.writeSize
      · simp only [if_pos hsize]
        rfl
      · simp only [if_neg hsize]
        exact runs_of_blkDwrite hd rfl

variable (pName fileaddr fileSize) in
/-- A write keeps the device and the tables. -/
theorem obcBlkWritePartByName_keeps (hw : w.On d) :
    (obcBlkWritePartByName U w pName fileaddr fileSize).2.On d ∧
      (obcBlkWritePartByName U w pName fileaddr fileSize).2.parts U = w.parts U ∧
      (obcBlkWritePartByName U w pName fileaddr fileSize).2.partCount = w.partCount := by
  obtain ⟨l, cs, n, h⟩ := Planned.exists_advance
    (obcBlkWritePartByName_planned (U := U) pName fileaddr fileSize hw.dev)
  rw [h]
  exact ⟨⟨hw.dev, hw.blksz, hw.rdSize⟩, rfl, rfl⟩

/-- The plan of an image for a partition, exactly where it fits. -/
theorem writePartPlan_eq {i : ℕ} {image : ObcWriteImage}
    (hi : obcBlkFindPartByName U w pName = some i)
    (himage : obcPrepareWriteImage U w.mem fileaddr fileSize = some image) :
    writePartPlan U w d pName fileaddr fileSize =
      if image.writeSize.toNat ≤ (w.parts U i).size.toNat then
        some (partBlocks d w.stAbility.stBlk.iRdSize (w.parts U i) image.writeSize.toNat
          (Store.tail w.mem image.writeData))
      else none := by
  simp only [writePartPlan, hi, himage, UInt32.lt_iff_toNat_lt]
  by_cases hfit : image.writeSize.toNat ≤ (w.parts U i).size.toNat
  · rw [if_pos hfit, if_neg (Nat.not_lt.2 hfit)]
  · rw [if_neg hfit, if_pos (Nat.lt_of_not_le hfit)]

/-- **A plan made** is for a partition found and an image that fits it. -/
theorem writePartPlan_eq_some (h : writePartPlan U w d pName fileaddr fileSize = some p) :
    ∃ i image, obcBlkFindPartByName U w pName = some i ∧
      obcPrepareWriteImage U w.mem fileaddr fileSize = some image ∧
      image.writeSize.toNat ≤ (w.parts U i).size.toNat ∧
      p = partBlocks d w.stAbility.stBlk.iRdSize (w.parts U i) image.writeSize.toNat
        (Store.tail w.mem image.writeData) := by
  unfold writePartPlan at h
  split at h
  · cases h
  rename_i i hi
  split at h
  · cases h
  rename_i image himage
  split at h
  · cases h
  rename_i hsize
  exact ⟨i, image, hi, himage, UInt32.le_iff_toNat_le.1 (UInt32.not_lt.1 hsize),
    (Option.some.inj h).symm⟩

/-- Where the transfer has no fault the plan is carried out. -/
theorem obcBlkWritePartByName_of_plan (hf : ∀ start count, U.fault w.tick start count = none)
    (hd : w.gstBlkDev = some d) (h : writePartPlan U w d pName fileaddr fileSize = some p) :
    (obcBlkWritePartByName U w pName fileaddr fileSize).1 = 0 ∧
      (obcBlkWritePartByName U w pName fileaddr fileSize).2.disk = Journal.replay w.disk p := by
  obtain ⟨i, image, hi, himage, hfit, rfl⟩ := writePartPlan_eq_some h
  have hsize : ¬ (w.parts U i).size < image.writeSize :=
    UInt32.not_lt.2 (UInt32.le_iff_toNat_le.2 hfit)
  simp only [obcBlkWritePartByName, hi, himage, if_neg hsize, blkDwrite_of_ok _ hd (hf _ _)]
  rw [if_neg (by simp)]
  exact ⟨rfl, World.disk_advance⟩

variable (part buf) in
/-- What a write of a partition's blocks leaves where they lie. -/
theorem replay_partBlocks_apply {m : ℕ → Store UInt8} {k : ℕ}
    (hd : d.blksz = 512) (hk : k < n) :
    Journal.replay m (partBlocks d 512 part n buf) d.devnum (part.base + k) = buf k := by
  rw [partBlocks, hd]
  exact Journal.replay_blocks_apply (hk.trans_le (le_blockCount_mul (by decide)))

/-- The blocks of a write lie from the partition's first block on. -/
theorem within_partBlocks (hrd : d.blksz = rd) (ha : rd ∣ part.addr.toNat)
    (hn : blockCount n rd * rd ≤ part.size.toNat) :
    Journal.Within d.devnum part.region (partBlocks d rd part n buf) := by
  refine (Journal.within_blocks (d := d.devnum)).mono ?_
  intro x hx
  rw [hrd, Nat.add_mul, Nat.div_mul_cancel ha] at hx
  exact ⟨hx.1, hx.2.trans_le (Nat.add_le_add_left hn _)⟩

/-- So an image that fits a partition on block boundaries stays in it. -/
theorem within_partBlocks_of_aligned (hrd : d.blksz = rd)
    (ha : BlockAligned rd part) (hn : n ≤ part.size.toNat) :
    Journal.Within d.devnum part.region (partBlocks d rd part n buf) := by
  obtain ⟨k, hk⟩ := ha.2
  refine within_partBlocks hrd ha.1 ?_
  rw [hk, Nat.mul_comm rd] at hn ⊢
  exact Nat.mul_le_mul_right _ (blockCount_le hn)

end Plan

/-! ## What the reader makes of it -/

section Stored

variable {U : UBoot} {mem disk : Store UInt8} {fileaddr base : ℕ} {fileSize : Int32}
  {head : ObcPackHead} {size : UInt32}

/-- **A package stored whole** is one the reader accepts, in a partition
it fits. -/
theorem HoldsPackage.of_agree (hp : Packed U mem fileaddr fileSize head)
    (hagree : ∀ k, k < fileSize.toUInt32.toNat → disk (base + k) = mem (fileaddr + k))
    (hfit : fileSize.toUInt32.toNat ≤ size.toNat) :
    HoldsPackage U disk base size
      (Store.read mem (fileaddr + obcHeaderSize) head.fileSize.toNat) := by
  have hadd := hp.fileSize_add
  have hhead : ObcPackHead.ofStore disk base = head := by
    rw [← hp.head_eq]
    exact ObcPackHead.ofStore_congr fun k hk => hagree k (by omega)
  have hne : head.fileSize.toNat ≠ 0 := fun h => hp.nonempty (UInt32.toNat_inj.1 h)
  have h512 : (512 : UInt32).toNat ≤ size.toNat := by
    show 512 ≤ size.toNat
    omega
  refine ⟨by rw [hhead]; exact hp.magic, by rw [hhead, Store.length_read], ?_, ?_,
    by rw [hhead]; exact hp.crc, ?_⟩
  · intro hnil
    have := congrArg List.length hnil
    rw [Store.length_read] at this
    exact hne this
  · -- the reader's limit does not wrap, the package being at least a header
    rw [hhead, UInt32.lt_iff_toNat_lt, UInt32.toNat_sub_of_le _ _ (UInt32.le_iff_toNat_le.2 h512)]
    show ¬ size.toNat - 512 < head.fileSize.toNat
    omega
  · rw [Store.length_read]
    refine Store.read_congr ?_
    intro k hk
    have := hagree (512 + k) (by omega)
    simpa [Nat.add_assoc] using this

end Stored

end Boot

end ObcSdk
