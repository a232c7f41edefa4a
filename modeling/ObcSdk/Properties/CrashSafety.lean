import ObcSdk.Boot.Bench
/-!
# An update cut short

The power may go between any two blocks of an update, and any transfer
may fail or fall short. The two copies of a component are written one
after the other and every check precedes the first block of a copy, so
whatever the stop one copy is whole: the second as it was, or the first
as it is to be.
-/

namespace ObcSdk

namespace Boot

variable {U : UBoot} {w : World} {dev i : ℕ} {fileType : UpdatexFileType} {slot : Char}
  {fileSize : Int32} {r : ℤ × World} {m : ℕ → Store UInt8} {d : BlkDesc}
  {p : List (Extent ℕ UInt8)}

/-- A copy of a component holds what it held in `w`. -/
def CopyOld (U : UBoot) (w : World) (dev : ℕ) (fileType : UpdatexFileType) (slot : Char)
    (m : ℕ → Store UInt8) : Prop :=
  ∀ i, w.findMmc U (fileType.label slot) = some i →
    Set.EqOn (m dev) (w.disk dev) (w.mmcParts U i).region

/-- A copy of a component holds what it held in `w`, with everything a
write of the download puts there laid over it. -/
def CopyNew (U : UBoot) (w : World) (dev : ℕ) (fileType : UpdatexFileType) (slot : Char)
    (fileSize : Int32) (m : ℕ → Store UInt8) : Prop :=
  ∃ i d p, w.findMmc U (fileType.label slot) = some i ∧ U.mmcGetBlkDesc dev = some d ∧
    mmcWritePlan U w d (fileType.label slot) fileSize = some p ∧
    Set.EqOn (m dev) (Journal.replay w.disk p dev) (w.mmcParts U i).region

/-- The tables are laid out for 512-byte blocks. -/
structure LaidOut (U : UBoot) (w : World) : Prop where
  rdSize : w.stAbility.stBlk.iRdSize = 512
  wellLaid : WellLaid 512 (w.mmcParts U) w.stAbility.stBlk.iPartCountMmc

/-- A label names its component and its slot. -/
theorem label_inj {c c' : UpdatexFileType} {s s' : Char} (h : c.label s = c'.label s') :
    c = c' ∧ s = s' := by
  obtain ⟨hc, hs⟩ := List.append_inj' h rfl
  refine ⟨?_, List.singleton_inj.1 hs⟩
  cases c <;> cases c' <;> first | rfl | simp [UpdatexFileType.component] at hc

/-- Two copies lie apart. -/
theorem LaidOut.disjoint (h : LaidOut U w) {c c' : UpdatexFileType} {s s' : Char} {i j : ℕ}
    (hne : c ≠ c' ∨ s ≠ s') (hi : w.findMmc U (c.label s) = some i)
    (hj : w.findMmc U (c'.label s') = some j) :
    Disjoint (w.mmcParts U i).region (w.mmcParts U j).region :=
  h.wellLaid.disjoint_of_find
    (fun hl => hne.elim (fun hc => hc (label_inj hl).1) fun hs => hs (label_inj hl).2) hi hj

/-- A plan stays in its copy. -/
theorem LaidOut.within (h : LaidOut U w) (hd : U.mmcGetBlkDesc dev = some d)
    (hp : mmcWritePlan U w d (fileType.label slot) fileSize = some p) :
    ∃ i, w.findMmc U (fileType.label slot) = some i ∧
      Journal.Within dev (w.mmcParts U i).region p :=
  mmcWritePlan_within h.rdSize h.wellLaid hd hp

/-- So it leaves every other copy alone. -/
theorem LaidOut.copyOld (h : LaidOut U w) (hd : U.mmcGetBlkDesc dev = some d)
    (hp : mmcWritePlan U w d (fileType.label slot) fileSize = some p)
    {q : List (Extent ℕ UInt8)} (hq : q <+: p) {c : UpdatexFileType} {s : Char}
    (hne : fileType ≠ c ∨ slot ≠ s) : CopyOld U w dev c s (Journal.replay w.disk q) := by
  obtain ⟨i, hi, hin⟩ := h.within hd hp
  exact fun j hj => (hin.initial hq).eqOn (h.disjoint hne hi hj)

/-- **A new copy's bytes are the image's**: those of the download, or of
the payload behind its header, from the start of the partition on. -/
theorem CopyNew.image_bytes (h : CopyNew U w dev fileType slot fileSize m)
    (hroot : fileType ≠ .rootfs) (hlaid : LaidOut U w) :
    ∃ i image, w.findMmc U (fileType.label slot) = some i ∧
      obcPrepareWriteImage U w.mem updatexLoadeAddr fileSize = some image ∧
      image.writeSize.toNat ≤ (w.mmcParts U i).size.toNat ∧
      ∀ k < image.writeSize.toNat,
        m dev ((w.mmcParts U i).base + k) = w.mem (image.writeData + k) := by
  obtain ⟨i, d, p, hi, hd, hp, heq⟩ := h
  obtain ⟨hnum, hblksz, -⟩ := U.mmc_desc hd
  rw [mmcWritePlan, if_neg fun h => hroot (isPrefixOf_rootfs_label h)] at hp
  obtain ⟨j, image, hj, himage, hfit, rfl⟩ := writePartPlan_eq_some hp
  obtain rfl : j = i := Option.some.inj ((findMmc_of_find hd hj).symm.trans hi)
  have hparts : (w.withDev (some d)).parts U = w.mmcParts U :=
    World.parts_eq (bootTable_of_desc (w := w) hd)
  have hrd : (w.withDev (some d)).stAbility.stBlk.iRdSize = 512 := hlaid.rdSize
  rw [hparts] at hfit heq
  have haligned := hlaid.wellLaid.aligned j (obcBlkFindPartByNameEx_some hi).1
  refine ⟨j, image, hi, himage, hfit, fun k hk => ?_⟩
  have hin := BoardAbilityBlkParts.base_add_mem_region haligned.1 (hk.trans_le hfit)
  rw [heq hin, ← hnum, hrd]
  exact replay_partBlocks_apply _ _ hblksz hk

/-- Of a root file system the image is sparse and laid over what was there,
chunk by chunk, or the payload's bytes are the copy's. -/
theorem CopyNew.rootfs_bytes (h : CopyNew U w dev .rootfs slot fileSize m) :
    ∃ i image, w.findMmc U (UpdatexFileType.rootfs.label slot) = some i ∧
      obcPrepareWriteImage U w.mem updatexLoadeAddr fileSize = some image ∧
      ((∃ cs, SparseImage (Store.tail w.mem image.payload) image.payloadSize.toNat 512
          (w.mmcParts U i).size.toNat cs ∧
        Set.EqOn (m dev) (Journal.replay w.disk (sparseJournal (Store.tail w.mem image.payload) dev
          512 ((w.mmcParts U i).addr.toNat / 512)) dev) (w.mmcParts U i).region) ∨
      ∀ k < image.payloadSize.toNat,
        m dev ((w.mmcParts U i).base + k) = w.mem (image.payload + k)) := by
  obtain ⟨i, d, p, hi, hd, hp, heq⟩ := h
  obtain ⟨hnum, hblksz, -⟩ := U.mmc_desc hd
  have hroot : ['r', 'o', 'o', 't', 'f', 's'].isPrefixOf (UpdatexFileType.rootfs.label slot) := by
    simp [UpdatexFileType.label, UpdatexFileType.component]
  rw [mmcWritePlan, if_pos hroot] at hp
  obtain ⟨hplan, -⟩ | ⟨j, image, payload, start, hj, hal, himage, rfl, rfl,
    ⟨cs, prog, hcs, -, hplan, -⟩ | ⟨count, hcount, hle, hplan, -⟩⟩ :=
    obcBlkWriteRootfsByName_cases _ _ _ rfl (by rw [hblksz]; decide) hp rfl
  · cases hplan
  · obtain rfl := Option.some.inj hplan
    obtain rfl : j = i := Option.some.inj ((findMmc_of_find hd hj).symm.trans hi)
    rw [hblksz, hnum] at heq
    rw [hblksz] at hcs
    exact ⟨j, image, hi, himage, .inl ⟨cs, hcs, heq⟩⟩
  · obtain rfl := Option.some.inj hplan
    obtain rfl : j = i := Option.some.inj ((findMmc_of_find hd hj).symm.trans hi)
    rw [hblksz] at hal hcount heq
    refine ⟨j, image, hi, himage, .inr fun k hk => ?_⟩
    have hin : (w.mmcParts U j).base + k ∈ (w.mmcParts U j).region :=
      BoardAbilityBlkParts.base_add_mem_region hal.1 (hk.trans_le hle)
    rw [heq hin, ← hnum, ← BoardAbilityBlkParts.mul_eq_base]
    exact Journal.replay_blocks_apply (hk.trans_le hcount.ge)

/-- **One copy is whole at every cut.** -/
theorem Updated.crash_safe (h : Updated U w dev fileType fileSize r) (hlaid : LaidOut U w)
    (hcut : Cut w r.2 m) :
    CopyOld U w dev fileType '1' m ∨ CopyNew U w dev fileType '0' fileSize m := by
  obtain ⟨l, hw, hl⟩ := h
  obtain ⟨q, hq, rfl⟩ := hw.cut_iff.1 hcut
  rcases hl with ⟨rfl, -⟩ | ⟨d, p₀, hd, hp₀, ⟨hl, -⟩ | ⟨p₁, hp₁, hl, -⟩⟩
  · obtain rfl := List.prefix_nil.1 hq
    exact Or.inl fun _ _ _ _ => rfl
  · exact Or.inl (hlaid.copyOld hd hp₀ (hq.trans hl) (Or.inr (by decide)))
  · obtain ⟨i₀, hi₀, hin₀⟩ := hlaid.within hd hp₀
    obtain ⟨i₁, hi₁, hin₁⟩ := hlaid.within hd hp₁
    have hdisj := hlaid.disjoint (Or.inr (by decide)) hi₀ hi₁
    rcases Journal.two_copies hdisj hin₀ hin₁ (hq.trans hl) with h | h
    · refine Or.inl ?_
      intro j hj
      obtain rfl : i₁ = j := Option.some.inj (hi₁.symm.trans hj)
      exact h
    · exact Or.inr ⟨i₀, d, p₀, hi₀, hd, hp₀, h⟩

/-- **And no other component is touched.** -/
theorem Updated.frame (h : Updated U w dev fileType fileSize r) (hlaid : LaidOut U w)
    (hcut : Cut w r.2 m) {c : UpdatexFileType} (hc : fileType ≠ c) : CopyOld U w dev c slot m := by
  obtain ⟨l, hw, hl⟩ := h
  obtain ⟨q, hq, rfl⟩ := hw.cut_iff.1 hcut
  rcases hl with ⟨rfl, -⟩ | ⟨d, p₀, hd, hp₀, ⟨hl, -⟩ | ⟨p₁, hp₁, hl, -⟩⟩
  · obtain rfl := List.prefix_nil.1 hq
    exact fun _ _ _ _ => rfl
  · exact hlaid.copyOld hd hp₀ (hq.trans hl) (Or.inl hc)
  · obtain ⟨i₀, hi₀, hin₀⟩ := hlaid.within hd hp₀
    obtain ⟨i₁, hi₁, hin₁⟩ := hlaid.within hd hp₁
    have hin := (hin₀.mono Set.subset_union_left).append (hin₁.mono Set.subset_union_right)
    refine fun j hj => (hin.initial (hq.trans hl)).eqOn (Set.disjoint_union_left.2 ⟨?_, ?_⟩)
    · exact hlaid.disjoint (Or.inl hc) hi₀ hj
    · exact hlaid.disjoint (Or.inl hc) hi₁ hj

/-- **And both are when the update returns success.** -/
theorem Updated.complete (h : Updated U w dev fileType fileSize r) (hlaid : LaidOut U w)
    (h0 : r.1 = 0) :
    CopyNew U w dev fileType '0' fileSize r.2.disk ∧
      CopyNew U w dev fileType '1' fileSize r.2.disk := by
  obtain ⟨l, hw, ⟨-, hne⟩ | ⟨d, p₀, hd, hp₀, ⟨-, hne⟩ | ⟨p₁, hp₁, -, hfull⟩⟩⟩ := h
  · exact absurd h0 hne
  · exact absurd h0 hne
  obtain rfl := hfull h0
  obtain ⟨i₀, hi₀, hin₀⟩ := hlaid.within hd hp₀
  obtain ⟨i₁, hi₁, hin₁⟩ := hlaid.within hd hp₁
  obtain ⟨heq₀, heq₁⟩ := Journal.two_copies_done (m := w.disk)
    (hlaid.disjoint (Or.inr (by decide)) hi₀ hi₁) hin₀ hin₁
  rw [hw.disk]
  exact ⟨⟨i₀, d, p₀, hi₀, hd, hp₀, heq₀⟩, ⟨i₁, d, p₁, hi₁, hd, hp₁, heq₁⟩⟩

/-- **A single-component update survives any stop.** Wherever the blocks
it writes are cut off, whichever transfer fails, one of the component's
two partitions is whole; and both hold the new content when the command
returns success. -/
theorem component_update_crash_safe
    (hr : dev = emmcDevIndex ∧ r = doUpdatexEmmcWritefile U w fileType fileSize ∨
      dev = sdDevIndex ∧ r = doUpdatexSdRawWritefile U w fileType fileSize)
    (hne : fileType ≠ .none) (hU : fileType = .rootfs → U.WritesSparse) (hlaid : LaidOut U w) :
    (∀ m, Cut w r.2 m →
      CopyOld U w dev fileType '1' m ∨ CopyNew U w dev fileType '0' fileSize m) ∧
    (r.1 = 0 → CopyNew U w dev fileType '0' fileSize r.2.disk ∧
      CopyNew U w dev fileType '1' fileSize r.2.disk) := by
  have hup : Updated U w dev fileType fileSize r := by
    rcases hr with ⟨rfl, rfl⟩ | ⟨rfl, rfl⟩
    · exact doUpdatexEmmcWritefile_updated hU hne
    · exact doUpdatexSdRawWritefile_updated hU hne
  exact ⟨fun m hcut => hup.crash_safe hlaid hcut, hup.complete hlaid⟩

/-- A root file system's update on the bench board. -/
theorem rootfs_update_crash_safe :
    (doUpdatexEmmcWritefile Bench.uboot Bench.imageWorld .rootfs 1536).1 = 0 ∧
    (∀ m, Cut Bench.imageWorld
        (doUpdatexEmmcWritefile Bench.uboot Bench.imageWorld .rootfs 1536).2 m →
      CopyOld Bench.uboot Bench.imageWorld 0 .rootfs '1' m ∨
        CopyNew Bench.uboot Bench.imageWorld 0 .rootfs '0' 1536 m) ∧
    CopyNew Bench.uboot Bench.imageWorld 0 .rootfs '1' 1536
      (doUpdatexEmmcWritefile Bench.uboot Bench.imageWorld .rootfs 1536).2.disk := by
  have hne : UpdatexFileType.rootfs ≠ .none := by decide
  have hr : 0 = emmcDevIndex ∧ doUpdatexEmmcWritefile Bench.uboot Bench.imageWorld .rootfs 1536 =
      doUpdatexEmmcWritefile Bench.uboot Bench.imageWorld .rootfs 1536 := ⟨rfl, rfl⟩
  have h := component_update_crash_safe (Or.inl hr) hne (fun _ => Bench.writesSparse)
    ⟨rfl, Bench.wellLaid⟩
  have h0 : (doUpdatexEmmcWritefile Bench.uboot Bench.imageWorld .rootfs 1536).1 = 0 := by
    decide +kernel
  exact ⟨h0, h.1, (h.2 h0).2⟩

end Boot

end ObcSdk
