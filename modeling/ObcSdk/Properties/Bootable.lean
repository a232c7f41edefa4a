import ObcSdk.Properties.CrashSafety
/-!
# What an update accepts, and what a boot accepts

The writer and the reader decide with different rules. They agree on a
package whose header is kept: what the updater takes, the boot reads
back, and what is not a package though it carries the magic is turned
down with nothing written. A download without the magic is written as it
is, and one whose header is not kept without it, and neither is for the
boot to read.
-/

namespace ObcSdk

namespace Boot

variable {U : UBoot} {w w' : World} {dev : ℕ} {fileType : UpdatexFileType} {slot : Char}
  {fileSize : Int32} {r : ℤ × World} {m : ℕ → Store UInt8} {addr : ℕ}

/-- The download carries the magic, far enough to be seen. -/
def LooksPacked (w : World) (fileSize : Int32) : Prop :=
  5 ≤ fileSize ∧ (ObcPackHead.ofStore w.mem updatexLoadeAddr).HasMagic

/-- A plan for a download that looks packed is for a package. -/
theorem packed_of_plan (hroot : fileType ≠ .rootfs) (hlook : LooksPacked w fileSize)
    {d : BlkDesc} {p : List (Extent ℕ UInt8)}
    (hp : mmcWritePlan U w d (fileType.label slot) fileSize = some p) :
    ∃ (i : ℕ) (image : ObcWriteImage) (head : ObcPackHead),
      obcBlkFindPartByName U (w.withDev (some d)) (fileType.label slot) = some i ∧
      Packed U w.mem updatexLoadeAddr fileSize head ∧
      image.writeSize.toNat ≤ ((w.withDev (some d)).parts U i).size.toNat ∧
      p = partBlocks d w.stAbility.stBlk.iRdSize ((w.withDev (some d)).parts U i)
        image.writeSize.toNat (Store.tail w.mem image.writeData) ∧
      (head.headWriteFlag = 1 → image.writeSize = fileSize.toUInt32 ∧
        image.writeData = updatexLoadeAddr) := by
  rw [mmcWritePlan, if_neg fun h => hroot (isPrefixOf_rootfs_label h)] at hp
  obtain ⟨i, image, hi, himage, hfit, rfl⟩ := writePartPlan_eq_some hp
  obtain ⟨-, ⟨hraw, -⟩ | ⟨head, hpk, hkind⟩⟩ := obcPrepareWriteImage_cases himage
  · exact (hraw.elim (fun h => Int32.not_lt.2 hlook.1 h) fun h => h hlook.2).elim
  refine ⟨i, image, head, hi, hpk, hfit, rfl, ?_⟩
  intro hflag
  rcases hkind with ⟨-, rfl⟩ | ⟨h0, -⟩
  · exact ⟨rfl, rfl⟩
  · rw [hflag] at h0
    exact absurd h0 (by decide)

/-- **A copy renewed with a package** whose header is kept holds what the
reader accepts. -/
theorem CopyNew.holdsPackage (hroot : fileType ≠ .rootfs) (hlaid : LaidOut U w)
    (hlook : LooksPacked w fileSize)
    (hflag : (ObcPackHead.ofStore w.mem updatexLoadeAddr).headWriteFlag = 1)
    (h : CopyNew U w dev fileType slot fileSize m) :
    ∃ i payload, w.findMmc U (fileType.label slot) = some i ∧
      HoldsPackage U (m dev) (w.mmcParts U i).base (w.mmcParts U i).size payload := by
  obtain ⟨i, d, p, hi, hd, hp, heq⟩ := h
  obtain ⟨hnum, hblksz, -⟩ := U.mmc_desc hd
  have htab := bootTable_of_desc (w := w) hd
  obtain ⟨j, image, head, hj, hpk, hfit, rfl, hwhole⟩ := packed_of_plan hroot hlook hp
  obtain ⟨hsize, hdata⟩ := hwhole (by rw [← hpk.head_eq]; exact hflag)
  obtain rfl : j = i := Option.some.inj ((findMmc_of_find hd hj).symm.trans hi)
  rw [World.parts_eq htab] at hfit heq
  have hparts : (w.withDev (some d)).mmcParts U = w.mmcParts U := rfl
  rw [hparts, hsize] at hfit heq
  rw [hdata, hlaid.rdSize] at heq
  have haligned := hlaid.wellLaid.aligned j (obcBlkFindPartByNameEx_some hi).1
  refine ⟨j, _, hi, HoldsPackage.of_agree hpk ?_ hfit⟩
  intro k hk
  have hin := BoardAbilityBlkParts.base_add_mem_region haligned.1 (hk.trans_le hfit)
  rw [heq hin, ← hnum]
  exact replay_partBlocks_apply _ _ hblksz hk

/-- The checks a package has to pass are the ones `Packed` lists. -/
theorem packed_iff (hlook : LooksPacked w fileSize) :
    (∃ head, Packed U w.mem updatexLoadeAddr fileSize head) ↔
      512 ≤ fileSize ∧ (ObcPackHead.ofStore w.mem updatexLoadeAddr).fileSize ≠ 0 ∧
      (ObcPackHead.ofStore w.mem updatexLoadeAddr).fileSize = (fileSize - 512).toUInt32 ∧
      (ObcPackHead.ofStore w.mem updatexLoadeAddr).headWriteFlag ≤ 1 ∧
      obcCalculateCrc16 U (Store.read w.mem (updatexLoadeAddr + obcHeaderSize)
        (ObcPackHead.ofStore w.mem updatexLoadeAddr).fileSize.toNat) =
        (ObcPackHead.ofStore w.mem updatexLoadeAddr).crc16 := by
  constructor
  · rintro ⟨head, rfl, -, hlong, hne, hsize, hflag, hcrc⟩
    exact ⟨hlong, hne, hsize, hflag, hcrc⟩
  · rintro ⟨hlong, hne, hsize, hflag, hcrc⟩
    exact ⟨_, rfl, hlook.2, hlong, hne, hsize, hflag, hcrc⟩

/-- Without a plan for the first copy an update writes nothing. -/
theorem Updated.of_no_plan (h : Updated U w dev fileType fileSize r)
    (hplan : ∀ d p, U.mmcGetBlkDesc dev = some d →
      mmcWritePlan U w d (fileType.label '0') fileSize ≠ some p) :
    r.1 ≠ 0 ∧ r.2.log = w.log := by
  obtain ⟨l, hw, ⟨rfl, hne⟩ | ⟨d, p₀, hd, hp₀, -⟩⟩ := h
  · exact ⟨hne, hw.log.trans (List.append_nil _)⟩
  · exact absurd hp₀ (hplan d p₀ hd)

/-- Reading the copy of a package succeeds where no read faults. -/
theorem read_of_holdsPackage {i : ℕ} {payload : List UInt8} {d : BlkDesc}
    (hlaid : LaidOut U w) (hd : U.mmcGetBlkDesc dev = some d)
    (hdev : w'.gstBlkDev = U.mmcGetBlkDesc dev) (ha : w'.stAbility = w.stAbility)
    (hf : ∀ t start count, w'.tick ≤ t → U.fault t start count = none)
    (hi : w.findMmc U (fileType.label slot) = some i)
    (hp : HoldsPackage U (w'.disk dev) (w.mmcParts U i).base (w.mmcParts U i).size payload) :
    (obcBlkReadPartByName U w' (fileType.label slot) addr).1 = 0 := by
  obtain ⟨hnum, hblksz, hclass⟩ := U.mmc_desc hd
  have hdev' : w'.gstBlkDev = some d := hdev.trans hd
  have htab : w'.bootTable = .mmc := by
    simp only [World.bootTable, hdev', if_neg hclass]
  have hparts : w'.parts U = w.mmcParts U := by
    rw [World.parts_eq htab, World.mmcParts, ha]
    rfl
  have hon : w'.On d := ⟨hdev', hblksz, by rw [ha]; exact hlaid.rdSize⟩
  have hfind : obcBlkFindPartByName U w' (fileType.label slot) = some i := by
    rw [← hi, obcBlkFindPartByName, hparts, World.partCount, htab, ha]
    rfl
  rw [← hnum, ← hparts] at hp
  exact obcBlkReadPartByName_of_holds hon hfind hp (hf _ _ _ le_rfl) (hf _ _ _ (Nat.le_succ _))

/-- **What the updater accepts, the boot reads**, for a download that
carries the magic. Where the update of a kernel or a device tree returns
success and the package keeps its header, both partitions are read back;
and a malformed package, or one that keeps its header and does not fit,
is turned down before the first block. -/
theorem accepted_package_boots
    (hr : dev = emmcDevIndex ∧ r = doUpdatexEmmcWritefile U w fileType fileSize ∨
      dev = sdDevIndex ∧ r = doUpdatexSdRawWritefile U w fileType fileSize)
    (hkind : fileType = .kernel ∨ fileType = .fdt) (hlaid : LaidOut U w)
    (hlook : LooksPacked w fileSize) :
    (r.1 = 0 → (ObcPackHead.ofStore w.mem updatexLoadeAddr).headWriteFlag = 1 →
      ∀ w' : World, w'.gstBlkDev = U.mmcGetBlkDesc dev → w'.stAbility = w.stAbility →
        w'.disk = r.2.disk → (∀ t start count, w'.tick ≤ t → U.fault t start count = none) →
        ∀ slot ∈ ['0', '1'], ∀ addr,
          (obcBlkReadPartByName U w' (fileType.label slot) addr).1 = 0) ∧
    ((fileSize < 512 ∨ (ObcPackHead.ofStore w.mem updatexLoadeAddr).fileSize = 0 ∨
        (ObcPackHead.ofStore w.mem updatexLoadeAddr).fileSize ≠ (fileSize - 512).toUInt32 ∨
        1 < (ObcPackHead.ofStore w.mem updatexLoadeAddr).headWriteFlag ∨
        obcCalculateCrc16 U (Store.read w.mem (updatexLoadeAddr + obcHeaderSize)
          (ObcPackHead.ofStore w.mem updatexLoadeAddr).fileSize.toNat) ≠
          (ObcPackHead.ofStore w.mem updatexLoadeAddr).crc16 ∨
        (ObcPackHead.ofStore w.mem updatexLoadeAddr).headWriteFlag = 1 ∧
          ∃ i, w.findMmc U (fileType.label '0') = some i ∧
            (w.mmcParts U i).size.toNat < fileSize.toUInt32.toNat) →
      r.1 ≠ 0 ∧ r.2.log = w.log) := by
  have hroot : fileType ≠ .rootfs := by rcases hkind with rfl | rfl <;> decide
  have hup : Updated U w dev fileType fileSize r := by
    have hne : fileType ≠ .none := by rcases hkind with rfl | rfl <;> decide
    rcases hr with ⟨rfl, rfl⟩ | ⟨rfl, rfl⟩
    · exact doUpdatexEmmcWritefile_updated (fun h => absurd h hroot) hne
    · exact doUpdatexSdRawWritefile_updated (fun h => absurd h hroot) hne
  constructor
  · intro h0 hflag w' hdev ha hdisk hf slot hslot addr
    have hnew : CopyNew U w dev fileType slot fileSize r.2.disk := by
      rcases List.mem_pair.1 hslot with rfl | rfl
      · exact (hup.complete hlaid h0).1
      · exact (hup.complete hlaid h0).2
    obtain ⟨-, d, -, -, hd, -⟩ := id hnew
    obtain ⟨i, payload, hi, hp⟩ := hnew.holdsPackage hroot hlaid hlook hflag
    rw [← hdisk] at hp
    exact read_of_holdsPackage hlaid hd hdev ha hf hi hp
  · intro hbad
    refine hup.of_no_plan ?_
    intro d p hd hp
    obtain ⟨j, image, head, hj, hpk, hfit, -, hwhole⟩ := packed_of_plan hroot hlook hp
    obtain ⟨hlong, hne, hsize, hflag, hcrc⟩ := (packed_iff hlook).1 ⟨head, hpk⟩
    -- an image with a plan has passed every check
    rcases hbad with h | h | h | h | h | ⟨h, i, hi, hlarge⟩
    · exact Int32.not_lt.2 hlong h
    · exact hne h
    · exact h hsize
    · exact UInt16.not_lt.2 hflag h
    · exact h hcrc
    · obtain rfl : j = i := Option.some.inj ((findMmc_of_find hd hj).symm.trans hi)
      rw [World.parts_eq (bootTable_of_desc (w := w) hd),
        (hwhole (by rw [← hpk.head_eq]; exact h)).1] at hfit
      exact absurd hfit (Nat.not_le.2 hlarge)

/-- A signed kernel on the bench board. -/
theorem signed_kernel_boots :
    (obcBlkReadPartByName Bench.uboot
      (doUpdatexEmmcWritefile Bench.uboot Bench.signedWorld .kernel 513).2
      (UpdatexFileType.kernel.label '1') 0x90000000).1 = 0 := by
  have hup : Updated Bench.uboot Bench.signedWorld emmcDevIndex .kernel 513
      (doUpdatexEmmcWritefile Bench.uboot Bench.signedWorld .kernel 513) :=
    doUpdatexEmmcWritefile_updated (fun h => nomatch h) (by decide)
  obtain ⟨l, hw, -⟩ := hup
  have hlook : LooksPacked Bench.signedWorld 513 := ⟨by decide, by decide +kernel⟩
  have h := accepted_package_boots (U := Bench.uboot) (Or.inl ⟨rfl, rfl⟩) (Or.inl rfl)
    ⟨rfl, Bench.wellLaid⟩ hlook
  exact h.1 (by decide +kernel) (by decide +kernel) _ (by decide +kernel) hw.stAbility rfl
    (fun _ _ _ _ => rfl) '1' (by simp) _

/-- **A download without the magic** is written as it is and reported as
a success, and neither partition boots. -/
theorem raw_update_does_not_boot :
    ¬ ∀ (U : UBoot) (w : World) (fileType : UpdatexFileType) (fileSize : Int32),
      fileType = .kernel ∨ fileType = .fdt → LaidOut U w →
      (doUpdatexEmmcWritefile U w fileType fileSize).1 = 0 →
      ∀ w' : World, w'.gstBlkDev = U.mmcGetBlkDesc emmcDevIndex → w'.stAbility = w.stAbility →
        w'.disk = (doUpdatexEmmcWritefile U w fileType fileSize).2.disk →
        (∀ t start count, w'.tick ≤ t → U.fault t start count = none) →
        ∀ slot ∈ ['0', '1'], ∀ addr,
          (obcBlkReadPartByName U w' (fileType.label slot) addr).1 = 0 := by
  intro h
  have hup : Updated Bench.uboot Bench.imageWorld emmcDevIndex .kernel 1536
      (doUpdatexEmmcWritefile Bench.uboot Bench.imageWorld .kernel 1536) :=
    doUpdatexEmmcWritefile_updated (fun h => nomatch h) (by decide)
  obtain ⟨l, hw, -⟩ := hup
  have hread := h Bench.uboot Bench.imageWorld .kernel 1536 (Or.inl rfl) ⟨rfl, Bench.wellLaid⟩
    (by decide +kernel) _ (by decide +kernel) hw.stAbility rfl (fun _ _ _ _ => rfl) '0'
    (by simp) 0x90000000
  exact absurd hread (by decide +kernel)

end Boot

end ObcSdk
