import ObcSdk.Boot.Rootfs
import ObcSdk.Boot.Bootargs
/-!
# Firmware updates

The `updatex` command: a file is downloaded to the load memory
(`do_updatex_up_getfile`) and written to both partitions of its
component, one after the other (`do_updatex_emmc_writefile`,
`do_updatex_sd_raw_writefile`), and `up all` does so for five components
in turn.
-/

namespace ObcSdk

namespace Boot

/-! ## Constants -/

/-- `EMMC_DEV_INDEX`. -/
abbrev emmcDevIndex : ℕ := 0
/-- `SD_DEV_INDEX`. -/
abbrev sdDevIndex : ℕ := 1
/-- `UPDATEX_LOADE_ADDR`. -/
abbrev updatexLoadeAddr : ℕ := 0x84000000
/-- `CMD_RET_USAGE`. -/
abbrev cmdRetUsage : ℤ := -1
/-- `CMD_RET_FAILURE`. -/
abbrev cmdRetFailure : ℤ := 1

/-- `UPDATEX_FILE_TYPE_E`. -/
inductive UpdatexFileType where
  | none
  | uboot
  | kernel
  | fdt
  | rootfs
  | teeos
  | loader
deriving DecidableEq

/-- `UPDATEX_IMAGE_NAME`. -/
def updatexImageName (partition : String) : List Char := ("am62x-" ++ partition ++ ".bin").toList

/-- `gst_sd_fw_list`, the names and types of its entries. -/
def gstSdFwList : List (List Char × UpdatexFileType) :=
  [(updatexImageName "uboot", .uboot), (updatexImageName "kernel", .kernel),
    (updatexImageName "fdt", .fdt), (updatexImageName "rootfs", .rootfs),
    (updatexImageName "teeos", .teeos), (updatexImageName "loader", .loader)]

/-- `find_fw_file_by_type`: the file's name. -/
def findFwFileByType (fileType : UpdatexFileType) : Option (List Char) :=
  (gstSdFwList.find? fun f => f.2 = fileType).map Prod.fst

/-! ## Download -/

/-- A download command run: what it stored is in the load memory, and
the environment has the size it left. -/
def runLoad (U : UBoot) (w : World) (command : List Char) : Loaded × World :=
  let f := U.load w.tick command
  (f, w.loaded (Store.write w.mem updatexLoadeAddr f.data) [] 1)

/-- `do_updatex_up_getfile`: the file's size, `none` for `-1`. -/
def doUpdatexUpGetfile (U : UBoot) (w : World) (fileType : UpdatexFileType)
    (upType : UpdatexType) : Option Int32 × World :=
  match findFwFileByType fileType with
  | none => (none, w)
  | some name =>
    let fetch (command : List Char) : Option Int32 × World :=
      let r := runLoad U w command
      if r.1.status ≠ 0 then (none, r.2) else (r.1.filesize.map Int32.ofNat, r.2)
    match upType with
    | .sd =>
      let mmcpart := (w.env "mmcpart").getD "1"
      fetch (("fatload mmc 1:".toList ++ mmcpart.toList ++ " 0x84000000 ".toList ++ name).take 127)
    | .tftp => fetch ("tftp 84000000 ".toList ++ name)
    | .none => (some 0, w)

/-! ## Write -/

/-- `do_updatex_mmc_write`. -/
def doUpdatexMmcWrite (U : UBoot) (w : World) (devIndex : ℕ) (pName : List Char)
    (fileSize : Int32) : ℤ × World :=
  if U.findMmcDevice w.tick devIndex = false then (-1, w.advance [] [] 1) else
  if U.mmcInit (w.tick + 1) devIndex ≠ 0 then (-1, w.advance [] [] 2) else
  if U.blkSelectHwpartDevnum (w.tick + 2) devIndex ≠ 0 then (-1, w.advance [] [] 3) else
  let w := (w.advance [] [] 3).withDev (U.mmcGetBlkDesc devIndex)
  if w.gstBlkDev = none then (-1, w) else
  if ['r', 'o', 'o', 't', 'f', 's'].isPrefixOf pName then
    obcBlkWriteRootfsByName U w pName updatexLoadeAddr fileSize
  else obcBlkWritePartByName U w pName updatexLoadeAddr fileSize

/-- `do_updatex_emmc_enable_user_boot`. -/
def doUpdatexEmmcEnableUserBoot (U : UBoot) (w : World) : ℤ × World :=
  if U.findMmcDevice w.tick emmcDevIndex = false then (-1, w.advance [] [] 1) else
  if U.mmcInit (w.tick + 1) emmcDevIndex ≠ 0 then (-1, w.advance [] [] 2) else
  if U.isSd emmcDevIndex = true then (-1, w.advance [] [] 2) else
  if U.blkSelectHwpartDevnum (w.tick + 2) emmcDevIndex ≠ 0 then (-1, w.advance [] [] 3) else
  let c := U.mmcSetPartConf (w.tick + 3)
  let w := w.advance [] [] 4
  if c.1 ≠ 0 then (-1, w) else
  -- the boot partition is to be the user area (7), the access the default (0)
  if c.2 / 8 % 8 ≠ 7 ∨ c.2 % 8 ≠ 0 then (-1, w) else (0, w)

/-- The name of a component's partitions, without their number. -/
def UpdatexFileType.component : UpdatexFileType → List Char
  | .none => []
  | .uboot => ['u', 'b', 'o', 'o', 't']
  | .kernel => ['k', 'e', 'r', 'n', 'e', 'l']
  | .fdt => ['f', 'd', 't']
  | .rootfs => ['r', 'o', 'o', 't', 'f', 's']
  | .teeos => ['t', 'e', 'e', 'o', 's']
  | .loader => ['l', 'o', 'a', 'd', 'e', 'r']

/-- The branch the two writers take for a component: its first
partition, and its second when that went through. -/
def doUpdatexWritePair (U : UBoot) (w : World) (devIndex : ℕ) (fileType : UpdatexFileType)
    (fileSize : Int32) : ℤ × World :=
  let r := doUpdatexMmcWrite U w devIndex (fileType.component ++ ['0']) fileSize
  if r.1 ≠ 0 then (-1, r.2) else
  let r := doUpdatexMmcWrite U r.2 devIndex (fileType.component ++ ['1']) fileSize
  if r.1 ≠ 0 then (-1, r.2) else (0, r.2)

/-- `do_updatex_emmc_writefile`. -/
def doUpdatexEmmcWritefile (U : UBoot) (w : World) (fileType : UpdatexFileType)
    (fileSize : Int32) : ℤ × World :=
  match fileType with
  | .none => (0, w)
  | .loader =>
    let r := doUpdatexWritePair U w emmcDevIndex .loader fileSize
    if r.1 ≠ 0 then (-1, r.2) else
    let r := doUpdatexEmmcEnableUserBoot U r.2
    if r.1 ≠ 0 then (-1, r.2) else (0, r.2)
  | fileType => doUpdatexWritePair U w emmcDevIndex fileType fileSize

/-- `do_updatex_sd_raw_writefile`. -/
def doUpdatexSdRawWritefile (U : UBoot) (w : World) (fileType : UpdatexFileType)
    (fileSize : Int32) : ℤ × World :=
  match fileType with
  | .none => (-1, w)
  | fileType => doUpdatexWritePair U w sdDevIndex fileType fileSize

/-! ## The command -/

/-- `do_updatex_up`. -/
def doUpdatexUp (U : UBoot) (w : World) (fileType : UpdatexFileType) (upType : UpdatexType) :
    ℤ × World :=
  let r := doUpdatexUpGetfile U w fileType upType
  match r.1 with
  | none => (-1, r.2)
  | some fileSize =>
    if r.2.gIUpDevType = emmcDevIndex then doUpdatexEmmcWritefile U r.2 fileType fileSize
    else if r.2.gIUpDevType = sdDevIndex then doUpdatexSdRawWritefile U r.2 fileType fileSize
    else (-1, r.2)

/-- The loop of `updatex up all`. -/
def doUpdatexUpAll (U : UBoot) (upType : UpdatexType) : List UpdatexFileType → World → ℤ × World
  | [], w => (0, w)
  | t :: rest, w =>
    let r := doUpdatexUp U w t upType
    if r.1 ≠ 0 then (cmdRetFailure, r.2) else doUpdatexUpAll U upType rest r.2

/-- `all_types`. -/
def allTypes : List UpdatexFileType := [.loader, .fdt, .teeos, .kernel, .rootfs]

/-- What `updatex up` takes for a component. -/
def fileTypeOf : String → Option UpdatexFileType
  | "uboot" => some .uboot
  | "kernel" => some .kernel
  | "fdt" => some .fdt
  | "tee" => some .teeos
  | "teeos" => some .teeos
  | "loader" => some .loader
  | "rootfs" => some .rootfs
  | _ => none

/-- `do_updatex`, on the arguments behind the command's name. -/
def doUpdatex (U : UBoot) (w : World) : List String → ℤ × World
  | "-d" :: "sd" :: _ => (0, { w with gIUpDevType := sdDevIndex })
  | "-d" :: "emmc" :: _ => (0, { w with gIUpDevType := emmcDevIndex })
  | "-d" :: "flash" :: _ => (cmdRetFailure, w)
  | "-s" :: "tftp" :: _ => (0, { w with gIUpSrcType := .tftp })
  | "-s" :: "sd" :: _ => (0, { w with gIUpSrcType := .sd })
  | "up" :: "all" :: _ => doUpdatexUpAll U w.gIUpSrcType allTypes w
  | "up" :: name :: _ =>
    match fileTypeOf name with
    | none => (cmdRetUsage, w)
    | some fileType =>
      let r := doUpdatexUp U w fileType w.gIUpSrcType
      (if r.1 ≠ 0 then cmdRetFailure else 0, r.2)
  | _ => (cmdRetUsage, w)

/-! ## What an update is to write -/

/-- The journal a write of a download to a partition is to put on `d`;
`none` where it is rejected. -/
def mmcWritePlan (U : UBoot) (w : World) (d : BlkDesc) (pName : List Char) (fileSize : Int32) :
    Option (List (Extent ℕ UInt8)) :=
  if ['r', 'o', 'o', 't', 'f', 's'].isPrefixOf pName then
    rootfsPlan U (w.withDev (some d)) d pName updatexLoadeAddr fileSize
  else writePartPlan U (w.withDev (some d)) d pName updatexLoadeAddr fileSize

/-- The MMC table's entry with a label. -/
def World.findMmc (U : UBoot) (w : World) (pName : List Char) : Option ℕ :=
  obcBlkFindPartByNameEx (w.mmcParts U) w.stAbility.stBlk.iPartCountMmc pName

section Update

variable {U : UBoot} {w w' : World} {d : BlkDesc} {dev : ℕ} {pName : List Char}
  {fileSize : Int32} {p : List (Extent ℕ UInt8)} {fileType : UpdatexFileType}

/-- With an MMC device in use the table is the MMC one. -/
theorem bootTable_of_desc (hd : U.mmcGetBlkDesc dev = some d) :
    (w.withDev (some d)).bootTable = .mmc := by
  simp only [World.bootTable, World.withDev_gstBlkDev, if_neg (U.mmc_desc hd).2.2]

variable (w w') in
/-- A plan is made from the memory and the tables. -/
theorem mmcWritePlan_congr (hm : w'.mem = w.mem) (ha : w'.stAbility = w.stAbility) :
    mmcWritePlan U w' d pName fileSize = mmcWritePlan U w d pName fileSize := by
  cases w
  cases w'
  cases hm
  cases ha
  rfl

/-- And the writer looks a label up in it. -/
theorem findMmc_of_find {i : ℕ} (hd : U.mmcGetBlkDesc dev = some d)
    (hi : obcBlkFindPartByName U (w.withDev (some d)) pName = some i) :
    w.findMmc U pName = some i := by
  have htab := bootTable_of_desc (w := w) hd
  rw [obcBlkFindPartByName, World.parts_eq htab, World.partCount, htab] at hi
  exact hi

/-- **A plan made stays in its partition.** -/
theorem mmcWritePlan_within (hrd : w.stAbility.stBlk.iRdSize = 512)
    (hlaid : WellLaid 512 (w.mmcParts U) w.stAbility.stBlk.iPartCountMmc)
    (hd : U.mmcGetBlkDesc dev = some d) (h : mmcWritePlan U w d pName fileSize = some p) :
    ∃ i, w.findMmc U pName = some i ∧ Journal.Within dev (w.mmcParts U i).region p := by
  obtain ⟨hnum, hblksz, -⟩ := U.mmc_desc hd
  have hparts : (w.withDev (some d)).parts U = w.mmcParts U :=
    World.parts_eq (bootTable_of_desc (w := w) hd)
  unfold mmcWritePlan at h
  split at h
  · obtain ⟨i, hi, hin⟩ := rootfsPlan_within rfl (by rw [hblksz]; decide) h
    rw [hnum] at hin
    exact ⟨i, findMmc_of_find hd hi, hin⟩
  · obtain ⟨i, image, hi, -, hfit, rfl⟩ := writePartPlan_eq_some h
    rw [hparts] at hfit ⊢
    refine ⟨i, findMmc_of_find hd hi, hnum ▸ within_partBlocks_of_aligned ?_ ?_ hfit⟩
    · exact hblksz.trans hrd.symm
    · show BlockAligned w.stAbility.stBlk.iRdSize _
      rw [hrd]
      exact hlaid.aligned i (obcBlkFindPartByNameEx_some (findMmc_of_find hd hi)).1

variable (dev pName fileSize) in
/-- **A write of a partition** gives up before the first block, or writes
a prefix of its plan. -/
theorem doUpdatexMmcWrite_wrote
    (hU : ['r', 'o', 'o', 't', 'f', 's'].isPrefixOf pName → U.WritesSparse) :
    ∃ l, Wrote w (doUpdatexMmcWrite U w dev pName fileSize).2 l ∧
      ((l = [] ∧ (doUpdatexMmcWrite U w dev pName fileSize).1 = -1) ∨
      ∃ d p, U.mmcGetBlkDesc dev = some d ∧ mmcWritePlan U w d pName fileSize = some p ∧
        l <+: p ∧ ((doUpdatexMmcWrite U w dev pName fileSize).1 = 0 ∧ l = p ∨
          (doUpdatexMmcWrite U w dev pName fileSize).1 = -1)) := by
  generalize hr : doUpdatexMmcWrite U w dev pName fileSize = r
  simp only [doUpdatexMmcWrite] at hr
  split at hr
  · exact ⟨[], by rw [← hr]; exact wrote_advance, Or.inl ⟨rfl, by rw [← hr]⟩⟩
  split at hr
  · exact ⟨[], by rw [← hr]; exact wrote_advance, Or.inl ⟨rfl, by rw [← hr]⟩⟩
  split at hr
  · exact ⟨[], by rw [← hr]; exact wrote_advance, Or.inl ⟨rfl, by rw [← hr]⟩⟩
  have hup : Wrote w ((w.advance [] [] 3).withDev (U.mmcGetBlkDesc dev)) ([] ++ []) :=
    wrote_advance.trans wrote_withDev
  split at hr
  · exact ⟨[], by rw [← hr]; exact hup, Or.inl ⟨rfl, by rw [← hr]⟩⟩
  rename_i hsome
  obtain ⟨d, hd⟩ := Option.ne_none_iff_exists'.1 hsome
  simp only [World.withDev_gstBlkDev] at hd
  rw [hd] at hr hup
  -- from here on the run is one of its plan, for a rootfs and for a package
  have hplan : ∀ r, Planned ((w.advance [] [] 3).withDev (some d))
      (mmcWritePlan U (w.advance [] [] 3) d pName fileSize) r →
      ∃ l, Wrote w r.2 l ∧ ((l = [] ∧ r.1 = -1) ∨ ∃ d p, U.mmcGetBlkDesc dev = some d ∧
        mmcWritePlan U w d pName fileSize = some p ∧ l <+: p ∧ (r.1 = 0 ∧ l = p ∨ r.1 = -1)) := by
    intro r hp
    rw [mmcWritePlan_congr w (w.advance [] [] 3) rfl rfl] at hp
    rcases hp.cases with ⟨-, rfl⟩ | ⟨p, l, hp, hw, hl, hret⟩
    · exact ⟨[], hup, Or.inl ⟨rfl, rfl⟩⟩
    · exact ⟨l, hup.trans hw, Or.inr ⟨d, p, hd, hp, hl, hret⟩⟩
  refine hplan r ?_
  unfold mmcWritePlan
  split at hr
  · rename_i hroot
    rw [if_pos hroot, ← hr]
    exact obcBlkWriteRootfsByName_planned (hU hroot) rfl (by rw [(U.mmc_desc hd).2.1]; decide)
  · rename_i hroot
    rw [if_neg hroot, ← hr]
    exact obcBlkWritePartByName_planned _ _ _ rfl

/-- The label of a component's partition in a slot. -/
abbrev UpdatexFileType.label (fileType : UpdatexFileType) (slot : Char) : List Char :=
  fileType.component ++ [slot]

/-- What writing a component's two partitions comes to: it gave up before
the first block, in the first partition, or in the second with the first
complete; and where it went through, both are. -/
def Updated (U : UBoot) (w : World) (dev : ℕ) (fileType : UpdatexFileType) (fileSize : Int32)
    (r : ℤ × World) : Prop :=
  ∃ l, Wrote w r.2 l ∧ ((l = [] ∧ r.1 ≠ 0) ∨
    ∃ d p₀, U.mmcGetBlkDesc dev = some d ∧
      mmcWritePlan U w d (fileType.label '0') fileSize = some p₀ ∧ ((l <+: p₀ ∧ r.1 ≠ 0) ∨
      ∃ p₁, mmcWritePlan U w d (fileType.label '1') fileSize = some p₁ ∧ l <+: p₀ ++ p₁ ∧
        (r.1 = 0 → l = p₀ ++ p₁)))

/-- Only a root file system goes through `write_sparse_image`. -/
theorem isPrefixOf_rootfs_label {slot : Char}
    (h : ['r', 'o', 'o', 't', 'f', 's'].isPrefixOf (fileType.label slot)) :
    fileType = .rootfs := by
  cases fileType <;> simp_all [UpdatexFileType.label, UpdatexFileType.component]

variable (dev fileSize) in
/-- **The second partition is not touched before the first is whole.** -/
theorem doUpdatexWritePair_updated (hU : fileType = .rootfs → U.WritesSparse) :
    Updated U w dev fileType fileSize (doUpdatexWritePair U w dev fileType fileSize) := by
  obtain ⟨l₀, hw₀, hr₀⟩ := doUpdatexMmcWrite_wrote (w := w) dev (fileType.label '0') fileSize
    fun h => hU (isPrefixOf_rootfs_label h)
  generalize hr : doUpdatexMmcWrite U w dev (fileType.component ++ ['0']) fileSize = r at hw₀ hr₀
  simp only [doUpdatexWritePair, hr]
  split
  · rename_i hne
    refine ⟨l₀, hw₀, ?_⟩
    rcases hr₀ with ⟨rfl, -⟩ | ⟨d, p₀, hd, hp₀, hl₀, -⟩
    · exact Or.inl ⟨rfl, by simp⟩
    · exact Or.inr ⟨d, p₀, hd, hp₀, Or.inl ⟨hl₀, by simp⟩⟩
  rename_i h0
  rw [not_not] at h0
  obtain ⟨-, hneg⟩ | ⟨d, p₀, hd, hp₀, -, ⟨-, rfl⟩ | hneg⟩ := hr₀
  · rw [h0] at hneg
    exact absurd hneg (by decide)
  swap
  · rw [h0] at hneg
    exact absurd hneg (by decide)
  -- the first copy is whole, and the second is planned from the same download
  obtain ⟨l₁, hw₁, hr₁⟩ := doUpdatexMmcWrite_wrote (w := r.2) dev (fileType.label '1') fileSize
    fun h => hU (isPrefixOf_rootfs_label h)
  generalize doUpdatexMmcWrite U r.2 dev (fileType.component ++ ['1']) fileSize = q at hw₁ hr₁ ⊢
  have hsame : ∀ d, mmcWritePlan U r.2 d (fileType.label '1') fileSize =
      mmcWritePlan U w d (fileType.label '1') fileSize :=
    fun d => mmcWritePlan_congr w r.2 hw₀.mem hw₀.stAbility
  refine ⟨_, by split <;> exact hw₀.trans hw₁, Or.inr ⟨d, l₀, hd, hp₀, ?_⟩⟩
  rcases hr₁ with ⟨rfl, hneg⟩ | ⟨d', p₁, hd', hp₁, hl₁, hret⟩
  · refine Or.inl ⟨by simp, ?_⟩
    rw [if_pos (by rw [hneg]; decide)]
    simp
  · obtain rfl : d' = d := Option.some.inj (hd'.symm.trans hd)
    rw [hsame] at hp₁
    refine Or.inr ⟨p₁, hp₁, (List.prefix_append_right_inj _).2 hl₁, ?_⟩
    intro h
    rcases hret with ⟨-, rfl⟩ | hneg
    · rfl
    · rw [if_pos (by rw [hneg]; decide)] at h
      exact absurd h (by simp)

/-- The eMMC's boot configuration touches no block. -/
theorem doUpdatexEmmcEnableUserBoot_wrote : Wrote w (doUpdatexEmmcEnableUserBoot U w).2 [] := by
  simp only [doUpdatexEmmcEnableUserBoot]
  repeat' split
  all_goals exact wrote_advance

/-- **Both writers** write a component's partitions in this order. -/
theorem doUpdatexEmmcWritefile_updated (hU : fileType = .rootfs → U.WritesSparse)
    (hne : fileType ≠ .none) :
    Updated U w emmcDevIndex fileType fileSize
      (doUpdatexEmmcWritefile U w fileType fileSize) := by
  have hpair := doUpdatexWritePair_updated (w := w) emmcDevIndex fileSize hU
  cases fileType with
  | none => exact absurd rfl hne
  | loader =>
    obtain ⟨l, hw, hl⟩ := hpair
    simp only [doUpdatexEmmcWritefile]
    split
    · rename_i hfail
      refine ⟨l, hw, ?_⟩
      rcases hl with ⟨rfl, -⟩ | ⟨d, p₀, hd, hp₀, ⟨hl, -⟩ | ⟨p₁, hp₁, hl, -⟩⟩
      · exact Or.inl ⟨rfl, by simp⟩
      · exact Or.inr ⟨d, p₀, hd, hp₀, Or.inl ⟨hl, by simp⟩⟩
      · exact Or.inr ⟨d, p₀, hd, hp₀, Or.inr ⟨p₁, hp₁, hl, fun h => absurd h (by simp)⟩⟩
    · rename_i h0
      rw [not_not] at h0
      obtain ⟨-, hne⟩ | ⟨d, p₀, hd, hp₀, ⟨-, hne⟩ | ⟨p₁, hp₁, -, hfull⟩⟩ := hl
      · exact absurd h0 hne
      · exact absurd h0 hne
      obtain rfl := hfull h0
      -- both copies are whole; what follows them writes no block
      have hw' := hw.trans (doUpdatexEmmcEnableUserBoot_wrote (U := U)
        (w := (doUpdatexWritePair U w emmcDevIndex .loader fileSize).2))
      rw [List.append_nil] at hw'
      exact ⟨p₀ ++ p₁, by split <;> exact hw', Or.inr ⟨d, p₀, hd, hp₀,
        Or.inr ⟨p₁, hp₁, List.prefix_rfl, fun _ => rfl⟩⟩⟩
  | uboot => exact hpair
  | kernel => exact hpair
  | fdt => exact hpair
  | rootfs => exact hpair
  | teeos => exact hpair

theorem doUpdatexSdRawWritefile_updated (hU : fileType = .rootfs → U.WritesSparse)
    (hne : fileType ≠ .none) :
    Updated U w sdDevIndex fileType fileSize
      (doUpdatexSdRawWritefile U w fileType fileSize) := by
  have hpair := doUpdatexWritePair_updated (w := w) sdDevIndex fileSize hU
  cases fileType with
  | none => exact absurd rfl hne
  | _ => exact hpair

end Update

end Boot

end ObcSdk
