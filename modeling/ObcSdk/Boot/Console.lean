import ObcSdk.Lib.Runs
import ObcSdk.Boot.Bootk
import ObcSdk.Boot.Erase
import ObcSdk.Boot.Updatex
/-!
# The console

The commands of `cmd_updatex.c`, `cmd_obcflash.c` and `cmd_bootk.c` as
steps of one machine. They share the block device in use, `gstBlkDev`.
An update selects its target medium there and leaves it selected; no
other command touches it.
-/

namespace ObcSdk

namespace Boot

/-- `obc_blk_erase_flash_partition`, which is not implemented. -/
def obcBlkEraseFlashPartition (_U : UBoot) (w : World) (_partname : List Char) : ℤ × World :=
  (-1, w)

/-- `do_obcflash`, on the arguments behind the command's name. -/
def doObcflash (U : UBoot) (w : World) : List String → ℤ × World
  | ["-l"] => (0, w)
  | ["-l", "mmc"] => (0, w)
  | ["-l", "flash"] => (0, w)
  | ["mmc", "erase", partname] =>
    let r := obcBlkEraseMmcPartition U w partname.toList
    (if r.1 ≠ 0 then cmdRetFailure else 0, r.2)
  | ["flash", "erase", partname] =>
    let r := obcBlkEraseFlashPartition U w partname.toList
    (if r.1 ≠ 0 then cmdRetFailure else 0, r.2)
  | _ => (cmdRetUsage, w)

/-- A console command. -/
inductive Command where
  | updatex (args : List String)
  /-- `upfdt`, `upk`, `uprootfs` and `uploader`. -/
  | up (fileType : UpdatexFileType)
  | obcflash (args : List String)
  | bootk

/-- A command run. -/
def Command.run (U : UBoot) (w : World) : Command → ℤ × World
  | updatex args => doUpdatex U w args
  | up fileType =>
    let r := doUpdatexUp U w fileType w.gIUpSrcType
    (if r.1 ≠ 0 then cmdRetFailure else 0, r.2)
  | obcflash args => doObcflash U w args
  | bootk => doBootk U w

/-- Commands run one after the other. -/
def runAll (U : UBoot) (cmds : List Command) (w : World) : World :=
  cmds.foldl (fun w c => (c.run U w).2) w

/-! ## The device a command selects -/

/-- What `do_updatex_mmc_write` selects: the target's descriptor, when
the medium is found, comes up and has its user area selected. -/
def mmcSelected (U : UBoot) (w : World) (devIndex : ℕ) : Option (Option BlkDesc) :=
  if U.findMmcDevice w.tick devIndex = true ∧ U.mmcInit (w.tick + 1) devIndex = 0 ∧
      U.blkSelectHwpartDevnum (w.tick + 2) devIndex = 0 then
    some (U.mmcGetBlkDesc devIndex)
  else none

/-- What an update of a component selects: nothing when the download
fails. -/
def upSelected (U : UBoot) (w : World) (fileType : UpdatexFileType) (upType : UpdatexType) :
    Option (Option BlkDesc) :=
  let r := doUpdatexUpGetfile U w fileType upType
  if r.1.isSome ∧ (r.2.gIUpDevType = emmcDevIndex ∨ r.2.gIUpDevType = sdDevIndex) then
    mmcSelected U r.2 r.2.gIUpDevType
  else none

/-- What a command selects; `up all` starts with the loader. -/
def Command.selected (U : UBoot) (w : World) : Command → Option (Option BlkDesc)
  | updatex ("up" :: "all" :: _) => upSelected U w .loader w.gIUpSrcType
  | updatex ("up" :: name :: _) =>
    match fileTypeOf name with
    | none => none
    | some fileType => upSelected U w fileType w.gIUpSrcType
  | up fileType => upSelected U w fileType w.gIUpSrcType
  | _ => none

/-- From `w` to `w'` the device in use came to be `o`, and the tables and
the target of updates stayed. -/
structure Selected (o : Option BlkDesc) (w w' : World) : Prop where
  dev : w'.gstBlkDev = o
  stAbility : w'.stAbility = w.stAbility
  gIUpDevType : w'.gIUpDevType = w.gIUpDevType

section Selection

variable {U : UBoot} {w w' w'' : World} {o o' : Option BlkDesc} {d : BlkDesc} {dev : ℕ}
  {pName : List Char} {fileSize : Int32} {fileType : UpdatexFileType} {upType : UpdatexType}
  {l : List (Extent ℕ UInt8)} {cs : List Call} {n : ℕ}

/-- `-1` is a failure. -/
theorem minus_one_ne : (-1 : ℤ) ≠ 0 := by decide

theorem Selected.trans (h : Selected o w w') (h' : Selected o' w' w'') : Selected o' w w'' :=
  ⟨h'.dev, h'.stAbility.trans h.stAbility, h'.gIUpDevType.trans h.gIUpDevType⟩

theorem selected_refl : Selected w.gstBlkDev w w := ⟨rfl, rfl, rfl⟩

theorem selected_advance : Selected w.gstBlkDev w (w.advance l cs n) := ⟨rfl, rfl, rfl⟩

theorem selected_loaded {m : Store UInt8} : Selected w.gstBlkDev w (w.loaded m cs n) :=
  ⟨rfl, rfl, rfl⟩

theorem selected_withDev : Selected o w (w.withDev o) := ⟨rfl, rfl, rfl⟩

variable (fileType upType) in
/-- A download leaves the selection. -/
theorem doUpdatexUpGetfile_selected :
    Selected w.gstBlkDev w (doUpdatexUpGetfile U w fileType upType).2 := by
  simp only [doUpdatexUpGetfile]
  split
  · exact selected_refl
  split
  · split <;> exact selected_loaded
  · split <;> exact selected_loaded
  · exact selected_refl

/-- A write through either writer leaves it. -/
theorem obcBlkWrite_selected (pName : List Char) (fileSize : Int32) (hd : w.gstBlkDev = some d)
    (hb : d.blksz = mmcBlksz) :
    Selected w.gstBlkDev w (obcBlkWriteRootfsByName U w pName updatexLoadeAddr fileSize).2 ∧
      Selected w.gstBlkDev w (obcBlkWritePartByName U w pName updatexLoadeAddr fileSize).2 := by
  constructor
  · obtain ⟨l, cs, n, h⟩ := obcBlkWriteRootfsByName_advance (U := U) pName updatexLoadeAddr fileSize
      hd (by rw [hb]; decide)
    rw [h]
    exact selected_advance
  · obtain ⟨l, cs, n, h⟩ := Planned.exists_advance
      (obcBlkWritePartByName_planned (U := U) pName updatexLoadeAddr fileSize hd)
    rw [h]
    exact selected_advance

/-- **A write to a medium selects it**, and only one that selected it
goes through. -/
theorem doUpdatexMmcWrite_selected (dev : ℕ) (pName : List Char) (fileSize : Int32) :
    Selected ((mmcSelected U w dev).getD w.gstBlkDev) w
        (doUpdatexMmcWrite U w dev pName fileSize).2 ∧
      ((doUpdatexMmcWrite U w dev pName fileSize).1 = 0 → (mmcSelected U w dev).isSome) := by
  obtain ⟨sel, hsel⟩ : ∃ sel, mmcSelected U w dev = sel := ⟨_, rfl⟩
  rw [hsel]
  unfold mmcSelected at hsel
  unfold doUpdatexMmcWrite
  -- the three ways out before the selection, and none of them selects
  split
  · rename_i h
    rw [if_neg (by simp [h])] at hsel
    subst hsel
    exact ⟨selected_advance, fun h => absurd h minus_one_ne⟩
  rename_i hfind
  split
  · rename_i h
    rw [if_neg (by simp [h])] at hsel
    subst hsel
    exact ⟨selected_advance, fun h => absurd h minus_one_ne⟩
  rename_i hinit
  split
  · rename_i h
    rw [if_neg (by simp [h])] at hsel
    subst hsel
    exact ⟨selected_advance, fun h => absurd h minus_one_ne⟩
  rename_i hselect
  rw [if_pos ⟨by simpa using hfind, by simpa using hinit, by simpa using hselect⟩] at hsel
  subst hsel
  refine ⟨?_, fun _ => rfl⟩
  rw [Option.getD_some]
  have hup : Selected (U.mmcGetBlkDesc dev) w
      ((w.advance [] [] 3).withDev (U.mmcGetBlkDesc dev)) := selected_advance.trans selected_withDev
  simp only
  split
  · exact hup
  rename_i hsome
  obtain ⟨d, hd⟩ := Option.ne_none_iff_exists'.1 hsome
  have hb : d.blksz = mmcBlksz := (U.mmc_desc hd).2.1
  obtain ⟨hroot, hpart⟩ := obcBlkWrite_selected (U := U) pName fileSize hd hb
  split
  · exact hup.trans hroot
  · exact hup.trans hpart

/-- **A component's two partitions** are written on one medium. -/
theorem doUpdatexWritePair_selected (dev : ℕ) (fileType : UpdatexFileType) (fileSize : Int32) :
    Selected ((mmcSelected U w dev).getD w.gstBlkDev) w
        (doUpdatexWritePair U w dev fileType fileSize).2 ∧
      ((doUpdatexWritePair U w dev fileType fileSize).1 = 0 → (mmcSelected U w dev).isSome) := by
  obtain ⟨h₀, hz₀⟩ := doUpdatexMmcWrite_selected (U := U) (w := w) dev
    (fileType.component ++ ['0']) fileSize
  unfold doUpdatexWritePair
  simp only
  split
  · exact ⟨h₀, fun h => absurd h minus_one_ne⟩
  rename_i hz
  have hsome := hz₀ (not_not.1 hz)
  obtain ⟨h₁, -⟩ := doUpdatexMmcWrite_selected (U := U)
    (w := (doUpdatexMmcWrite U w dev (fileType.component ++ ['0']) fileSize).2) dev
    (fileType.component ++ ['1']) fileSize
  rw [h₀.dev] at h₁
  -- the second write selects what the first one did
  have hsame : ∀ (w' : World) (o : Option BlkDesc), mmcSelected U w dev = some o →
      (mmcSelected U w' dev).getD o = o := by
    intro w' o ho
    unfold mmcSelected at ho ⊢
    split at ho
    · cases ho
      split <;> rfl
    · cases ho
  obtain ⟨o, ho⟩ := Option.isSome_iff_exists.1 hsome
  rw [ho, Option.getD_some] at h₀ h₁ ⊢
  rw [hsame _ o ho] at h₁
  split
  · exact ⟨h₀.trans h₁, fun h => absurd h minus_one_ne⟩
  · exact ⟨h₀.trans h₁, fun _ => rfl⟩

/-- Configuring the boot partition leaves the selection. -/
theorem doUpdatexEmmcEnableUserBoot_selected :
    Selected w.gstBlkDev w (doUpdatexEmmcEnableUserBoot U w).2 := by
  simp only [doUpdatexEmmcEnableUserBoot]
  repeat' split
  all_goals exact selected_advance

theorem doUpdatexEmmcWritefile_selected (hne : fileType ≠ .none) (fileSize : Int32) :
    Selected ((mmcSelected U w emmcDevIndex).getD w.gstBlkDev) w
        (doUpdatexEmmcWritefile U w fileType fileSize).2 ∧
      ((doUpdatexEmmcWritefile U w fileType fileSize).1 = 0 →
        (mmcSelected U w emmcDevIndex).isSome) := by
  have hpair := doUpdatexWritePair_selected (U := U) (w := w) emmcDevIndex fileType fileSize
  cases fileType with
  | none => exact absurd rfl hne
  | loader =>
    simp only [doUpdatexEmmcWritefile]
    split
    · exact ⟨hpair.1, fun h => absurd h minus_one_ne⟩
    rename_i h0
    have hboot := doUpdatexEmmcEnableUserBoot_selected (U := U)
      (w := (doUpdatexWritePair U w emmcDevIndex .loader fileSize).2)
    rw [hpair.1.dev] at hboot
    have hsome := hpair.2 (not_not.1 h0)
    split
    · exact ⟨hpair.1.trans hboot, fun _ => hsome⟩
    · exact ⟨hpair.1.trans hboot, fun _ => hsome⟩
  | uboot => exact hpair
  | kernel => exact hpair
  | fdt => exact hpair
  | rootfs => exact hpair
  | teeos => exact hpair

theorem doUpdatexSdRawWritefile_selected (hne : fileType ≠ .none) (fileSize : Int32) :
    Selected ((mmcSelected U w sdDevIndex).getD w.gstBlkDev) w
        (doUpdatexSdRawWritefile U w fileType fileSize).2 ∧
      ((doUpdatexSdRawWritefile U w fileType fileSize).1 = 0 →
        (mmcSelected U w sdDevIndex).isSome) := by
  have hpair := doUpdatexWritePair_selected (U := U) (w := w) sdDevIndex fileType fileSize
  cases fileType with
  | none => exact absurd rfl hne
  | _ => exact hpair

/-- **What an update of a component leaves in use** is what it selects, if
it comes to select a medium. -/
theorem doUpdatexUp_selected (fileType : UpdatexFileType) (upType : UpdatexType) :
    Selected ((upSelected U w fileType upType).getD w.gstBlkDev) w
        (doUpdatexUp U w fileType upType).2 ∧
      ((doUpdatexUp U w fileType upType).1 = 0 → (upSelected U w fileType upType).isSome) := by
  have hget := doUpdatexUpGetfile_selected (U := U) (w := w) fileType upType
  obtain ⟨g, hg⟩ : ∃ g, doUpdatexUpGetfile U w fileType upType = g := ⟨_, rfl⟩
  obtain ⟨o, w₁⟩ := g
  rw [hg] at hget
  simp only [doUpdatexUp, upSelected, hg]
  cases o with
  | none => exact ⟨hget, fun h => absurd h minus_one_ne⟩
  | some fileSize =>
    have hne : fileType ≠ .none := by
      rintro rfl
      cases hg
    simp only [Option.isSome_some, true_and]
    rw [← hget.dev]
    by_cases hemmc : w₁.gIUpDevType = emmcDevIndex
    · obtain ⟨h, hz⟩ := doUpdatexEmmcWritefile_selected (U := U) (w := w₁) hne fileSize
      rw [if_pos hemmc, if_pos (Or.inl hemmc), hemmc]
      exact ⟨hget.trans h, hz⟩
    by_cases hsd : w₁.gIUpDevType = sdDevIndex
    · obtain ⟨h, hz⟩ := doUpdatexSdRawWritefile_selected (U := U) (w := w₁) hne fileSize
      rw [if_neg hemmc, if_pos hsd, if_pos (Or.inr hsd), hsd]
      exact ⟨hget.trans h, hz⟩
    · rw [if_neg hemmc, if_neg hsd, if_neg (not_or.2 ⟨hemmc, hsd⟩)]
      exact ⟨⟨rfl, hget.stAbility, hget.gIUpDevType⟩, fun h => absurd h minus_one_ne⟩

/-- What is selected is the target's descriptor. -/
theorem upSelected_eq_some {o : Option BlkDesc} (h : upSelected U w fileType upType = some o) :
    o = U.mmcGetBlkDesc w.gIUpDevType := by
  have hget := doUpdatexUpGetfile_selected (U := U) (w := w) fileType upType
  unfold upSelected mmcSelected at h
  simp only at h
  split at h
  · split at h
    · rw [← Option.some.inj h, hget.gIUpDevType]
    · cases h
  · cases h

/-- With the target in use, updates leave it in use. -/
theorem doUpdatexUpAll_selected_of_target (upType : UpdatexType) (types : List UpdatexFileType)
    (htarget : w.gstBlkDev = U.mmcGetBlkDesc w.gIUpDevType) :
    Selected w.gstBlkDev w (doUpdatexUpAll U upType types w).2 := by
  induction types generalizing w with
  | nil => exact selected_refl
  | cons t rest ih =>
    obtain ⟨h, -⟩ := doUpdatexUp_selected (U := U) (w := w) t upType
    have hsame : (upSelected U w t upType).getD w.gstBlkDev = w.gstBlkDev := by
      cases hsel : upSelected U w t upType with
      | none => rfl
      | some o => rw [Option.getD_some, upSelected_eq_some hsel, htarget]
    rw [hsame] at h
    simp only [doUpdatexUpAll]
    split
    · exact h
    · have hrest := ih (h.dev.trans (htarget.trans (by rw [h.gIUpDevType])))
      rw [h.dev] at hrest
      exact h.trans hrest

/-- **`up all` selects** what its first component does: it goes on only
behind one that selected the target. -/
theorem doUpdatexUpAll_selected (upType : UpdatexType) (t : UpdatexFileType)
    (types : List UpdatexFileType) :
    Selected ((upSelected U w t upType).getD w.gstBlkDev) w
      (doUpdatexUpAll U upType (t :: types) w).2 := by
  obtain ⟨h, hz⟩ := doUpdatexUp_selected (U := U) (w := w) t upType
  simp only [doUpdatexUpAll]
  split
  · exact h
  rename_i h0
  obtain ⟨o, ho⟩ := Option.isSome_iff_exists.1 (hz (not_not.1 h0))
  rw [ho, Option.getD_some] at h ⊢
  have htarget : (doUpdatexUp U w t upType).2.gstBlkDev =
      U.mmcGetBlkDesc (doUpdatexUp U w t upType).2.gIUpDevType := by
    rw [h.dev, h.gIUpDevType, upSelected_eq_some ho]
  have hrest := doUpdatexUpAll_selected_of_target upType types htarget
  rw [h.dev] at hrest
  exact h.trans hrest

/-- A write of the flag leaves the selection. -/
theorem Selected.switch {slot : UInt8} (h : Selected o w w') :
    Selected o w (obcSlotSwitch U w' slot).2 := by
  obtain ⟨l, cs, n, hadv, -⟩ := obcSlotWrite_minor (U := U) (w := w') (nextSlot slot)
  rw [obcSlotSwitch, hadv]
  exact ⟨h.dev, h.stAbility, h.gIUpDevType⟩

/-- And so does a boot. -/
theorem doBootk_selected : Selected w.gstBlkDev w (doBootk U w).2 := by
  obtain ⟨m, cs, n, hr, -, -⟩ := obcBlkReadPartByName_loaded (U := U) (w := w)
    (kernelName (clampSlot w.stAbility.stBoot.iPartType)) kernelCompLoadAddr
  simp only [doBootk, hr, placeKernel_loaded]
  split
  · exact Selected.switch ⟨rfl, rfl, rfl⟩
  split
  · exact Selected.switch ⟨rfl, rfl, rfl⟩
  split
  · exact Selected.switch ⟨rfl, rfl, rfl⟩
  · exact ⟨rfl, rfl, rfl⟩

/-- And an erase. -/
theorem obcBlkEraseMmcPartition_selected (partname : List Char) :
    Selected w.gstBlkDev w (obcBlkEraseMmcPartition U w partname).2 := by
  cases hd : w.gstBlkDev with
  | none =>
    simp only [obcBlkEraseMmcPartition, obcBlkMmcErase, hd, if_true]
    split <;> exact ⟨hd, rfl, rfl⟩
  | some d =>
    obtain ⟨l, cs, n, h⟩ := Planned.exists_advance
      (obcBlkEraseMmcPartition_planned (U := U) partname hd)
    rw [← hd, h]
    exact selected_advance

theorem doObcflash_selected (args : List String) :
    Selected w.gstBlkDev w (doObcflash U w args).2 := by
  unfold doObcflash
  split
  all_goals first
    | exact selected_refl
    | exact obcBlkEraseMmcPartition_selected _

/-- **The device in use after a command** is what it selects, or the one
before. -/
theorem Command.run_dev (c : Command) :
    (c.run U w).2.gstBlkDev = (c.selected U w).getD w.gstBlkDev ∧
      (c.run U w).2.stAbility = w.stAbility := by
  cases c with
  | obcflash args =>
    have h := doObcflash_selected (U := U) (w := w) args
    exact ⟨h.dev, h.stAbility⟩
  | bootk =>
    have h := doBootk_selected (U := U) (w := w)
    exact ⟨h.dev, h.stAbility⟩
  | up fileType =>
    obtain ⟨h, -⟩ := doUpdatexUp_selected (U := U) (w := w) fileType w.gIUpSrcType
    exact ⟨h.dev, h.stAbility⟩
  | updatex args =>
    simp only [Command.run]
    unfold doUpdatex
    split
    · exact ⟨rfl, rfl⟩
    · exact ⟨rfl, rfl⟩
    · exact ⟨rfl, rfl⟩
    · exact ⟨rfl, rfl⟩
    · exact ⟨rfl, rfl⟩
    · have h := doUpdatexUpAll_selected (U := U) (w := w) w.gIUpSrcType .loader
        [.fdt, .teeos, .kernel, .rootfs]
      exact ⟨h.dev, h.stAbility⟩
    · rename_i name rest hall
      simp only [Command.selected]
      cases hname : fileTypeOf name with
      | none => exact ⟨rfl, rfl⟩
      | some fileType =>
        obtain ⟨h, -⟩ := doUpdatexUp_selected (U := U) (w := w) fileType w.gIUpSrcType
        exact ⟨h.dev, h.stAbility⟩
    -- no other argument is a command of its own
    · rename_i hno
      have hsel : Command.selected U w (.updatex args) = none := by
        unfold Command.selected
        split
        · rename_i h
          exact absurd (Command.updatex.inj h) (hno _ _)
        · rename_i h
          exact absurd (Command.updatex.inj h) (hno _ _)
        · rename_i h
          cases h
        · rfl
      rw [hsel]
      exact ⟨rfl, rfl⟩

/-- No run changes the tables. -/
theorem runAll_stAbility (cmds : List Command) : (runAll U cmds w).stAbility = w.stAbility := by
  induction cmds generalizing w with
  | nil => rfl
  | cons c cmds ih => exact (ih (w := (c.run U w).2)).trans (Command.run_dev c).2

/-- What a command selects is the target's descriptor. -/
theorem Command.selected_eq_some {c : Command} {o : Option BlkDesc} (h : c.selected U w = some o) :
    o = U.mmcGetBlkDesc w.gIUpDevType := by
  unfold Command.selected at h
  split at h
  · exact upSelected_eq_some h
  · split at h
    · cases h
    · exact upSelected_eq_some h
  · exact upSelected_eq_some h
  · cases h

end Selection

end Boot

end ObcSdk
