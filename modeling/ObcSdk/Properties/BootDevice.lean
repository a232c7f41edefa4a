import ObcSdk.Boot.Bench
import ObcSdk.Boot.Console
/-!
# The boot device

Which medium the console's commands read the kernel from, switch the
slot on and erase. The hardware's initialization selects the medium
U-Boot was started from. It stays selected as long as no update gets as
far as selecting another one, and an update that does leaves the other
one selected for everything after it.
-/

namespace ObcSdk

namespace Boot

/-- `d` is the boot device in `w`: it is in use and is the one recorded,
the slot is switched and partitions are erased on it, and a kernel read
is one it holds. -/
structure OnBootDevice (U : UBoot) (d : BlkDesc) (w : World) : Prop where
  dev : w.gstBlkDev = some d
  mediaId : w.stAbility.stBoot.iMediaId = d.devnum
  bootMedia : w.stAbility.stBoot.iBootMedia =
    if d.devnum = configAm62xDevSd then boardAbilityDevSd else boardAbilityDevEmmc
  switched : ∀ slot, ∃ l cs n, (obcSlotSwitch U w slot).2 = w.advance l cs n ∧
    Journal.Within d.devnum Set.univ l
  erased : ∀ partname, ∃ l cs n, (obcBlkEraseMmcPartition U w partname).2 = w.advance l cs n ∧
    Journal.Within d.devnum Set.univ l
  kernel : ∀ slot,
    (obcBlkReadPartByName U w (kernelName slot) kernelCompLoadAddr).1 = 0 →
    ∃ i payload, obcBlkFindPartByName U w (kernelName slot) = some i ∧
      HoldsPackage U (w.disk d.devnum) (w.parts U i).base (w.parts U i).size payload ∧
      Store.read (obcBlkReadPartByName U w (kernelName slot) kernelCompLoadAddr).2.mem
        kernelCompLoadAddr payload.length = payload

section Device

variable {U : UBoot} {w w₀ : World} {d : BlkDesc} {cmds pre : List Command} {c : Command}

/-- A switch of the slot writes to the device in use. -/
theorem obcSlotSwitch_within (hd : w.gstBlkDev = some d) (slot : UInt8) :
    ∃ l cs n, (obcSlotSwitch U w slot).2 = w.advance l cs n ∧
      Journal.Within d.devnum Set.univ l := by
  have still : ∃ l cs n, w = w.advance l cs n ∧ Journal.Within d.devnum Set.univ l :=
    ⟨[], [], 0, World.advance_zero.symm, fun _ h => nomatch h⟩
  simp only [obcSlotSwitch, obcSlotWrite, hd]
  split
  · exact still
  split
  · exact ⟨[], [], 1, rfl, fun _ h => nomatch h⟩
  obtain ⟨l, hl, hw, -⟩ := blkDwrite_spec (U := U) (w := w.advance [] [] 1)
    (configAm62xSysflagDevaddr / d.blksz) 1
    (fun i => (List.set (dread U w (configAm62xSysflagDevaddr / d.blksz) 1).2 0
      (nextSlot slot)).getD i 0) hd
  refine ⟨l, _, 2, by rw [hw, World.advance_advance]; rfl, ?_⟩
  exact (Journal.within_blocks.mono (Set.subset_univ _)).initial hl

/-- And so does an erase. -/
theorem obcBlkEraseMmcPartition_within (hd : w.gstBlkDev = some d) (partname : List Char) :
    ∃ l cs n, (obcBlkEraseMmcPartition U w partname).2 = w.advance l cs n ∧
      Journal.Within d.devnum Set.univ l := by
  have hplan := obcBlkEraseMmcPartition_planned (U := U) partname hd
  cases hp : erasePlan U w d partname with
  | none =>
    rw [hp] at hplan
    refine ⟨[], [], 0, ?_, fun _ h => nomatch h⟩
    rw [World.advance_zero]
    exact congrArg Prod.snd hplan
  | some p =>
    rw [hp] at hplan
    obtain ⟨l, cs, n, hr, hl, -⟩ := hplan
    refine ⟨l, cs, n, hr, Journal.Within.initial ?_ hl⟩
    -- the plan is a run of blocks of the device
    unfold erasePlan at hp
    simp only at hp
    split at hp
    · cases hp
    split at hp
    · cases hp
    · rw [← Option.some.inj hp]
      exact Journal.within_blocks.mono (Set.subset_univ _)

/-- What the hardware's initialization leaves, and no command changes
in the tables. -/
structure BroughtUp (U : UBoot) (d : BlkDesc) (t : BoardAbilityTable) : Prop where
  desc : U.mmcGetBlkDesc d.devnum = some d
  rdSize : t.stBlk.iRdSize = 512
  mediaId : t.stBoot.iMediaId = d.devnum
  bootMedia : t.stBoot.iBootMedia =
    if d.devnum = configAm62xDevSd then boardAbilityDevSd else boardAbilityDevEmmc

/-- An initialization that succeeds brought a medium up. -/
theorem hwUp_of_am62xBoardHwInit (h : (am62xBoardHwInit U w₀).1 = 0) : ∃ d, HwUp U w₀ d := by
  simp only [am62xBoardHwInit, World.setBlk_tick, World.setBoot_tick] at h
  by_cases hfind : U.findMmcDevice w₀.tick (bootdevOf U.getBootDevice) = false
  · rw [if_pos hfind] at h
    exact absurd h minus_one_ne
  by_cases hinit : U.mmcInit (w₀.tick + 1) (bootdevOf U.getBootDevice) = 0
  swap
  · rw [if_neg hfind, if_pos hinit] at h
    exact absurd h hinit
  by_cases hselect : U.blkSelectHwpartDevnum (w₀.tick + 2) (bootdevOf U.getBootDevice) = 0
  swap
  · rw [if_neg hfind, if_neg (not_not.2 hinit), if_pos hselect] at h
    exact absurd h hselect
  cases hdesc : U.mmcGetBlkDesc (bootdevOf U.getBootDevice) with
  | none =>
    rw [if_neg hfind, if_neg (not_not.2 hinit), if_neg (not_not.2 hselect), hdesc,
      World.withDev_gstBlkDev, if_pos rfl] at h
    exact absurd h minus_one_ne
  | some d => exact ⟨d, by simpa using hfind, hinit, hselect, hdesc⟩

/-- **The hardware comes up** on the medium in use. -/
theorem am62xBoardHwInit_broughtUp (hinit : am62xBoardHwInit U w₀ = (0, w))
    (hd : w.gstBlkDev = some d) : BroughtUp U d w.stAbility := by
  obtain ⟨d', hup⟩ := hwUp_of_am62xBoardHwInit (congrArg Prod.fst hinit)
  obtain rfl : w = _ := (congrArg Prod.snd (hinit.symm.trans (am62xBoardHwInit_up hup)))
  obtain rfl : d' = d := Option.some.inj hd
  have hnum : d'.devnum = bootdevOf U.getBootDevice := (U.mmc_desc hup.desc).1
  refine ⟨?_, rfl, hnum.symm, ?_⟩
  · rw [hnum]
    exact hup.desc
  · rw [hnum]
    rfl

/-- **The device in use is the boot device** as soon as it is the one
brought up. -/
theorem onBootDevice_of_dev (hd : w.gstBlkDev = some d) (hup : BroughtUp U d w.stAbility) :
    OnBootDevice U d w := by
  have hw : w.On d := ⟨hd, (U.mmc_desc hup.desc).2.1, hup.rdSize⟩
  refine ⟨hd, hup.mediaId, hup.bootMedia, obcSlotSwitch_within hd,
    obcBlkEraseMmcPartition_within hd, ?_⟩
  intro slot h
  obtain ⟨i, payload, hfind, hp, -, -, hr⟩ := obcBlkReadPartByName_success hw h
  refine ⟨i, payload, hfind, hp, ?_⟩
  rw [hr]
  exact read_staged

variable (cmds) in
/-- **The boot device stays the boot device** through a run of commands
exactly when every command of it that comes to select a medium is given
while updates are aimed at the boot device. -/
theorem onBootDevice_iff (hinit : am62xBoardHwInit U w₀ = (0, w)) (hd : w.gstBlkDev = some d) :
    (∀ pre, pre <+: cmds → OnBootDevice U d (runAll U pre w)) ↔
      ∀ pre c, pre ++ [c] <+: cmds → (c.selected U (runAll U pre w)).isSome →
        (runAll U pre w).gIUpDevType = d.devnum := by
  have hup := am62xBoardHwInit_broughtUp hinit hd
  refine foldl_invariant_iff
    (fun w (c : Command) => (c.selected U w).isSome → w.gIUpDevType = d.devnum)
    (onBootDevice_of_dev hd hup) ?_
  intro pre c _ hon
  set w' := pre.foldl (fun w c => (c.run U w).2) w with hw'
  obtain ⟨hdev, htab⟩ := Command.run_dev (U := U) (w := w') c
  constructor
  · -- what the command selects is the target's, and the boot device
    intro hon' hsel
    obtain ⟨o, ho⟩ := Option.isSome_iff_exists.1 hsel
    rw [hon'.dev, ho, Option.getD_some, Command.selected_eq_some ho] at hdev
    exact ((U.mmc_desc hdev.symm).1).symm
  · intro haim
    have hkept : w'.stAbility = w.stAbility := runAll_stAbility pre
    refine onBootDevice_of_dev ?_ (by rw [htab, hkept]; exact hup)
    rw [hdev]
    cases hsel : c.selected U w' with
    | none => exact hon.dev
    | some o =>
      rw [Option.getD_some, Command.selected_eq_some hsel, haim (by rw [hsel]; rfl)]
      exact hup.desc

end Device

namespace Bench

/-- The board behind its initialization, booted from the eMMC. -/
def upWorld : World :=
  (((world fun _ => 0).advance [] [] 4).withDev (some emmc)).withAbility
    (upTable uboot (bootSlot uboot (world fun _ => 0) emmc) ability)

theorem am62xBoardHwInit_upWorld :
    am62xBoardHwInit uboot (world fun _ => 0) = (0, upWorld) :=
  am62xBoardHwInit_up ⟨rfl, rfl, rfl, rfl⟩

end Bench

open Bench

/-- An update of the kernel on the eMMC leaves the eMMC in use. -/
theorem onBootDevice_emmcUpdate :
    OnBootDevice uboot emmc (runAll uboot [.updatex ["up", "kernel"]] upWorld) := by
  refine (onBootDevice_iff [.updatex ["up", "kernel"]] am62xBoardHwInit_upWorld rfl).2 ?_ _
    List.prefix_rfl
  rintro (_ | ⟨c₀, pre⟩) c hpre -
  · rfl
  · have := hpre.length_le
    simp at this

/-- **The SD card comes into use** with an update aimed at it, and stays
in use behind it. -/
theorem not_onBootDevice_sdUpdate :
    am62xBoardHwInit uboot (world fun _ => 0) = (0, upWorld) ∧ upWorld.gstBlkDev = some emmc ∧
      ¬ OnBootDevice uboot emmc
        (runAll uboot [.updatex ["-d", "sd"], .updatex ["up", "kernel"]] upWorld) := by
  refine ⟨am62xBoardHwInit_upWorld, rfl, ?_⟩
  intro h
  have hdev := h.dev
  have hsel : Command.selected uboot (runAll uboot [.updatex ["-d", "sd"]] upWorld)
      (.updatex ["up", "kernel"]) = some (some ⟨1, 0, mmcBlksz⟩) := rfl
  have hrun := (Command.run_dev (U := uboot)
    (w := runAll uboot [.updatex ["-d", "sd"]] upWorld) (.updatex ["up", "kernel"])).1
  rw [hsel] at hrun
  have hsd := hdev.symm.trans hrun
  cases hsd

end Boot

end ObcSdk
