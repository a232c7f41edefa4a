import ObcSdk.Boot.Bootargs
import ObcSdk.Boot.Slot
/-!
# Bringing the board up

`obc_board_init` and the four steps it makes on the AM62x: the boot
medium and the slot (`am62x_board_hw_init`), the environment
(`am62x_board_env_init`), the device tree (`am62x_board_fdt_init`) and
the kernel's arguments (`am62x_board_args_init`).
-/

namespace ObcSdk

namespace Boot

/-! ## Hardware -/

/-- `CONFIG_AM62X_DEV_EMMC`. -/
abbrev configAm62xDevEmmc : ℕ := 0
/-- `CONFIG_AM62X_DEV_SD`. -/
abbrev configAm62xDevSd : ℕ := 1
/-- `CONFIG_AM62X_HEX_FDT_ADDR`. -/
abbrev configAm62xHexFdtAddr : ℕ := 0x81000000
/-- `CONFIG_AM62X_HEX_KERNEL_ADDR`. -/
abbrev configAm62xHexKernelAddr : ℕ := 0x82000000
/-- `CONFIG_DEFAULT_AM62X_FDT0_DEVADDR`. -/
abbrev configDefaultAm62xFdt0Devaddr : ℕ := 0x00900000
/-- `CONFIG_DEFAULT_AM62X_FDT1_DEVADDR`. -/
abbrev configDefaultAm62xFdt1Devaddr : ℕ := 0x00980000
/-- `CONFIG_DEFAULT_AM62X_FDT0_SIZE`. -/
abbrev configDefaultAm62xFdt0Size : ℕ := 0x80000

/-- The U-Boot device number of a ROM boot device; one that is not
supported counts as the eMMC. -/
def bootdevOf : RomBootdev → ℕ
  | .mmc1 => configAm62xDevEmmc
  | .mmc2 | .mmc2_2 => configAm62xDevSd
  | .other _ => configAm62xDevEmmc

/-- A change of the boot part of the ability table. -/
def World.setBoot (w : World) (f : BoardAbilityBoot → BoardAbilityBoot) : World :=
  w.withAbility { w.stAbility with stBoot := f w.stAbility.stBoot }

/-- A change of its block part. -/
def World.setBlk (w : World) (f : BoardAbilityBlk → BoardAbilityBlk) : World :=
  w.withAbility { w.stAbility with stBlk := f w.stAbility.stBlk }

section Set

variable {w : World} {f : BoardAbilityBoot → BoardAbilityBoot}
  {g : BoardAbilityBlk → BoardAbilityBlk}

@[simp] theorem World.setBoot_tick : (w.setBoot f).tick = w.tick := rfl
@[simp] theorem World.setBoot_disk : (w.setBoot f).disk = w.disk := rfl
@[simp] theorem World.setBoot_gstBlkDev : (w.setBoot f).gstBlkDev = w.gstBlkDev := rfl
@[simp] theorem World.setBlk_disk : (w.setBlk g).disk = w.disk := rfl
@[simp] theorem World.setBlk_tick : (w.setBlk g).tick = w.tick := rfl

end Set

/-- `am62x_board_hw_init`. -/
def am62xBoardHwInit (U : UBoot) (w : World) : ℤ × World :=
  let bootdev := bootdevOf U.getBootDevice
  let w := w.setBoot fun b =>
    { b with
      iMediaId := bootdev
      iBootMedia := if bootdev = configAm62xDevSd then boardAbilityDevSd
        else if bootdev = configAm62xDevEmmc then boardAbilityDevEmmc else b.iBootMedia }
  let w := w.setBlk fun b => { b with iRdSize := 512 }
  if U.findMmcDevice w.tick bootdev = false then (-1, w.advance [] [] 1) else
  let ret := U.mmcInit (w.tick + 1) bootdev
  if ret ≠ 0 then (ret, w.advance [] [] 2) else
  let ret := U.blkSelectHwpartDevnum (w.tick + 2) bootdev
  if ret ≠ 0 then (ret, w.advance [] [] 3) else
  let w := (w.advance [] [] 3).withDev (U.mmcGetBlkDesc bootdev)
  if w.gstBlkDev = none then (-1, w) else
  let r := obcSlotRead U (w.setBoot fun b => { b with iPartType := obcSlotA })
  let slot := r.1.getD obcSlotA
  let w := r.2.setBoot fun b =>
    { b with
      iPartType := slot
      uiFdtAddr := configAm62xHexFdtAddr
      uiImageAddr := configAm62xHexKernelAddr
      uiTmpAddr := 0x84000000 }
  let w := w.setBlk fun b =>
    { b with
      defFdt := if slot = obcSlotB then configDefaultAm62xFdt1Devaddr
        else configDefaultAm62xFdt0Devaddr }
  (0, w)

/-! ## Environment -/

/-- A variable that is to have a value: set, and noted as a change, when
it has another or none. The value set is the function's second, which
for `ipaddr` is not the one compared with. -/
def envEnsure (name want set : String) (w : World × Bool) : World × Bool :=
  if w.1.env name = some want then w else (w.1.envSet name set, true)

/-- `am62x_board_env_init`. -/
def am62xBoardEnvInit (w : World) : ℤ × World :=
  let media := w.stAbility.stBoot.iBootMedia
  let mmcdev := if media = boardAbilityDevEmmc then "0" else "1"
  let s : World × Bool := (w, false)
  let s := if w.env "bootdelay" = none then
      ((((((s.1.envSet "netmask" "255.255.0.0").envSet "fdt_addr" "0x81000000").envSet
        "loadaddr" "0x82000000").envSet "mmcpart" "1").envSet "bootdelay" "0"), true)
    else s
  let s := envEnsure "serverip" "192.168.1.124" "192.168.1.124" s
  let s := envEnsure "ipaddr" "192.168.1.100" "192.168.1.50" s
  let s := envEnsure "gatewayip" "192.168.1.1" "192.168.1.1" s
  let s := envEnsure "mmcdev" mmcdev mmcdev s
  let s := if media = boardAbilityDevSd ∨ media = boardAbilityDevEmmc then
      envEnsure "bootcmd" "run mmcboot" "run mmcboot" (envEnsure "mmcboot" "bootk" "bootk" s)
    else s
  (0, if s.2 then s.1.advance [] [.envSave] 0 else s.1)

/-! ## Device tree -/

/-- The names `obc_fdt_load_to_mem` tries. -/
def fdtName (i : ℕ) : List Char := if i = 0 then ['f', 'd', 't', '0'] else ['f', 'd', 't', '1']

/-- The loop of `obc_fdt_load_to_mem`, with the turns left to take. -/
def obcFdtLoop (U : UBoot) : ℕ → ℕ → World → ℤ × World
  | 0, _, w => (-1, w)
  | n + 1, i, w =>
    if i ≠ w.stAbility.stBoot.iPartType.toNat then (-1, w) else
    let r := obcBlkReadPartByName U w (fdtName i) w.stAbility.stBoot.uiFdtAddr
    if r.1 = 0 then (0, r.2) else obcFdtLoop U n (i + 1) r.2

/-- The two partitions `obc_fdt_load_to_mem` makes up when the SPL left
none. -/
def defaultFdtParts (b : BoardAbilityBlk) : BoardAbilityBlk :=
  let part (addr : ℕ) (i : ℕ) (p : BoardAbilityBlkParts) : BoardAbilityBlkParts :=
    { p with
      addr := UInt32.ofNat addr
      size := UInt32.ofNat configDefaultAm62xFdt0Size
      lable := setCString p.lable (fdtName i) }
  { ((b.setPart .mmc 0 (part configDefaultAm62xFdt0Devaddr 0)).setPart .mmc 1
      (part configDefaultAm62xFdt1Devaddr 1)) with iPartCountMmc := 2 }

/-- `obc_fdt_load_to_mem`. -/
def obcFdtLoadToMem (U : UBoot) (w : World) : ℤ × World :=
  let boot := w.stAbility.stBoot
  if boot.iBootMedia = boardAbilityDevSd ∨ boot.iBootMedia = boardAbilityDevEmmc then
    let w := if w.stAbility.stBlk.iPartCountMmc = 0 then w.setBlk defaultFdtParts else w
    let i := if boot.iPartType ≤ obcSlotB then boot.iPartType.toNat else obcSlotA.toNat
    obcFdtLoop U (2 - i) i w
  else (0, w)

/-- What `am62x_board_fdt_init` takes over from the table the SPL
left. -/
def takeShmem (shmem : BoardAbilityTable) (t : BoardAbilityTable) : BoardAbilityTable :=
  { t with
    stBoot := { t.stBoot with iPartType := shmem.stBoot.iPartType }
    stBlk := { t.stBlk with
      iPartCountMmc := shmem.stBlk.iPartCountMmc
      iPartCountFlash := shmem.stBlk.iPartCountFlash
      stPartsMmc := shmem.stBlk.stPartsMmc
      stPartsFlash := shmem.stBlk.stPartsFlash } }

/-- Whether the SPL left a table. -/
def UBoot.ShmemValid (U : UBoot) : Prop := U.shmem.magic.toList.take 5 = ['O', 'B', 'C', 'F', 'S']

instance (U : UBoot) : Decidable U.ShmemValid := inferInstanceAs (Decidable (_ = _))

/-- The tables parsed anew out of a device tree. -/
def parseTables (root : FdtNode) (b : BoardAbilityBlk) : BoardAbilityBlk :=
  let b := { b with
    iPartCountMmc := 0
    iPartCountFlash := 0
    stPartsMmc := Vector.replicate _ .zero
    stPartsFlash := Vector.replicate _ .zero }
  obcBlkParseFdt configFdtObcFlashNode root (obcBlkParseFdt configFdtObcMmcNode root b)

/-- `am62x_board_fdt_init`. -/
def am62xBoardFdtInit (U : UBoot) (w : World) : ℤ × World :=
  let fail (w : World) : ℤ × World := (-1, (obcSlotSwitch U w w.stAbility.stBoot.iPartType).2)
  if U.ShmemValid then
    let r := obcFdtLoadToMem U (w.withAbility (takeShmem U.shmem w.stAbility))
    let w := r.2.advance [] [.stage .fdtLoad r.1] 0
    if r.1 ≠ 0 then fail w else (0, w)
  else
    let r := obcFdtLoadToMem U w
    let w := r.2.advance [] [.stage .fdtLoad r.1] 0
    if r.1 ≠ 0 then fail w else
    (0, w.setBlk (parseTables (U.fdt w.mem configAm62xHexFdtAddr)))

/-! ## Arguments -/

/-- `CONFIG_AM62X_EMMC_DEV_NAME`. -/
def configAm62xEmmcDevName : List Char := "mmcblk0".toList
/-- `CONFIG_AM62X_SD_DEV_NAME`. -/
def configAm62xSdDevName : List Char := "mmcblk1".toList
/-- `CONFIG_AM62X_BOOTARGS_SD`. -/
def configAm62xBootargsSd : List Char :=
  ("console=ttyS2,115200n8 earlycon=ns16550a,mmio32,0x02800000 ro ignore_logos " ++
    "root=/dev/mmcblk1p11 rootfstype=ext4 rootwait").toList
/-- `CONFIG_AM62X_BOOTARGS_SD_B`. -/
def configAm62xBootargsSdB : List Char :=
  ("console=ttyS2,115200n8 earlycon=ns16550a,mmio32,0x02800000 ro ignore_logos " ++
    "root=/dev/mmcblk1p12 rootfstype=ext4 rootwait").toList
/-- `CONFIG_AM62X_BOOTARGS_EMMC`. -/
def configAm62xBootargsEmmc : List Char :=
  ("console=ttyS2,115200n8 fbcon=rotate:1 earlyprintk ro cma=64M " ++
    "root=PARTLABEL=rootfs0 rootfstype=ext4 rootwait").toList
/-- `CONFIG_AM62X_BOOTARGS_EMMC_B`. -/
def configAm62xBootargsEmmcB : List Char :=
  ("console=ttyS2,115200n8 fbcon=rotate:1 earlyprintk ro cma=64M " ++
    "root=PARTLABEL=rootfs1 rootfstype=ext4 rootwait").toList

/-- `am62x_board_args_init`. -/
def am62xBoardArgsInit (U : UBoot) (w : World) : ℤ × World :=
  if w.env "boot_from_nfs" = some "1" then (0, w) else
  let boot := w.stAbility.stBoot
  let r := if boot.iBootMedia = boardAbilityDevSd then
      if boot.iPartType = obcSlotB then
        obcBootargsSet U w configAm62xSdDevName configAm62xBootargsSdB
      else obcBootargsSet U w configAm62xSdDevName configAm62xBootargsSd
    else
      if boot.iPartType = obcSlotB then
        obcBootargsSet U w configAm62xEmmcDevName configAm62xBootargsEmmcB
      else obcBootargsSet U w configAm62xEmmcDevName configAm62xBootargsEmmc
  (0, r.2)

/-- `obc_board_init`. What the steps return is dropped. -/
def obcBoardInit (U : UBoot) (w : World) : ℤ × World :=
  let w := w.withAbility .zero
  let w := (am62xBoardHwInit U w).2
  let w := (am62xBoardEnvInit w).2
  let w := (am62xBoardFdtInit U w).2
  let w := (am62xBoardArgsInit U w).2
  (0, w)

/-! ## What the steps do -/

section Steps

variable {U : UBoot} {w : World} {d : BlkDesc}

/-- The boot medium comes up as `d`. -/
structure HwUp (U : UBoot) (w : World) (d : BlkDesc) : Prop where
  find : U.findMmcDevice w.tick (bootdevOf U.getBootDevice) = true
  init : U.mmcInit (w.tick + 1) (bootdevOf U.getBootDevice) = 0
  select : U.blkSelectHwpartDevnum (w.tick + 2) (bootdevOf U.getBootDevice) = 0
  desc : U.mmcGetBlkDesc (bootdevOf U.getBootDevice) = some d

/-- The slot a boot starts from: the flag's, or slot A where the flag
cannot be read. -/
def bootSlot (U : UBoot) (w : World) (d : BlkDesc) : UInt8 :=
  (obcSlotRead U ((w.advance [] [] 3).withDev (some d))).1.getD obcSlotA

/-- The table after the hardware came up on a slot. -/
def upTable (U : UBoot) (slot : UInt8) (t : BoardAbilityTable) : BoardAbilityTable :=
  let bootdev := bootdevOf U.getBootDevice
  { t with
    stBoot :=
      { iBootMedia := if bootdev = configAm62xDevSd then boardAbilityDevSd
          else boardAbilityDevEmmc
        iMediaId := bootdev
        iPartType := slot
        uiFdtAddr := configAm62xHexFdtAddr
        uiImageAddr := configAm62xHexKernelAddr
        uiTmpAddr := 0x84000000 }
    stBlk :=
      { t.stBlk with
        iRdSize := 512
        defFdt := if slot = obcSlotB then configDefaultAm62xFdt1Devaddr
          else configDefaultAm62xFdt0Devaddr } }

/-- The media a device tree is loaded from. -/
def BoardAbilityBoot.FromMmc (b : BoardAbilityBoot) : Prop :=
  b.iBootMedia = boardAbilityDevSd ∨ b.iBootMedia = boardAbilityDevEmmc

theorem upTable_fromMmc {slot : UInt8} {t : BoardAbilityTable} :
    (upTable U slot t).stBoot.FromMmc := by
  simp only [upTable, BoardAbilityBoot.FromMmc]
  split <;> simp

/-- **The hardware up**: the medium is in use, and the slot is its
flag's. -/
theorem am62xBoardHwInit_up (h : HwUp U w d) :
    am62xBoardHwInit U w = (0, ((w.advance [] [] 4).withDev (some d)).withAbility
      (upTable U (bootSlot U w d) w.stAbility)) := by
  simp only [am62xBoardHwInit, World.setBlk_tick, World.setBoot_tick, h.find, h.init, h.select,
    h.desc, World.withDev_gstBlkDev, reduceCtorEq, ne_eq, not_true_eq_false, ↓reduceIte,
    obcSlotRead_snd, World.setBoot_gstBlkDev]
  have hslot : ∀ w', w'.gstBlkDev = some d → w'.tick = w.tick + 3 → w'.disk = w.disk →
      (obcSlotRead U w').1.getD obcSlotA = bootSlot U w d := fun w' h₁ h₂ h₃ =>
    congrArg (·.getD obcSlotA) (obcSlotRead_fst h₁ h₂ (h₃.trans (by simp)))
  rw [hslot _ rfl rfl (by simp)]
  cases hb : U.getBootDevice <;>
    simp [upTable, hb, bootdevOf, World.setBoot, World.setBlk, World.withAbility, World.withDev,
      World.advance]

/-- The hardware is up, or no medium came into use and the table was
given a medium and a read size. -/
theorem am62xBoardHwInit_cases :
    (∃ d, HwUp U w d) ∨ ∃ t dev n,
      (am62xBoardHwInit U w).2 = ((w.advance [] [] n).withDev dev).withAbility t ∧
        (t.stBoot.FromMmc ∧ t.stBoot.iPartType = w.stAbility.stBoot.iPartType ∧
          t.stBlk = { w.stAbility.stBlk with iRdSize := 512 }) ∧
        (dev = w.gstBlkDev ∨ dev = none) := by
  have hmmc : (if bootdevOf U.getBootDevice = configAm62xDevSd then boardAbilityDevSd
      else if bootdevOf U.getBootDevice = configAm62xDevEmmc then boardAbilityDevEmmc
      else w.stAbility.stBoot.iBootMedia) = boardAbilityDevSd ∨
      (if bootdevOf U.getBootDevice = configAm62xDevSd then boardAbilityDevSd
      else if bootdevOf U.getBootDevice = configAm62xDevEmmc then boardAbilityDevEmmc
      else w.stAbility.stBoot.iBootMedia) = boardAbilityDevEmmc := by
    cases U.getBootDevice <;> simp [bootdevOf]
  simp only [am62xBoardHwInit, World.setBlk_tick, World.setBoot_tick]
  -- the returns of the source in their order, each with the clock it has come to
  by_cases hfind : U.findMmcDevice w.tick (bootdevOf U.getBootDevice) = false
  · rw [if_pos hfind]
    exact Or.inr ⟨_, w.gstBlkDev, 1, rfl, ⟨hmmc, rfl, rfl⟩, Or.inl rfl⟩
  by_cases hinit : U.mmcInit (w.tick + 1) (bootdevOf U.getBootDevice) = 0
  swap
  · rw [if_neg hfind, if_pos hinit]
    exact Or.inr ⟨_, w.gstBlkDev, 2, rfl, ⟨hmmc, rfl, rfl⟩, Or.inl rfl⟩
  by_cases hselect : U.blkSelectHwpartDevnum (w.tick + 2) (bootdevOf U.getBootDevice) = 0
  swap
  · rw [if_neg hfind, if_neg (not_not.2 hinit), if_pos hselect]
    exact Or.inr ⟨_, w.gstBlkDev, 3, rfl, ⟨hmmc, rfl, rfl⟩, Or.inl rfl⟩
  cases hdesc : U.mmcGetBlkDesc (bootdevOf U.getBootDevice) with
  | none =>
    rw [if_neg hfind, if_neg (not_not.2 hinit), if_neg (not_not.2 hselect), World.withDev_gstBlkDev,
      if_pos rfl]
    exact Or.inr ⟨_, none, 3, rfl, ⟨hmmc, rfl, rfl⟩, Or.inr rfl⟩
  | some d => exact Or.inl ⟨d, by simpa using hfind, hinit, hselect, hdesc⟩

/-- **What the hardware's step leaves**: no call noted and a table that
names a medium; and a medium is in use only where the hardware is up. -/
theorem am62xBoardHwInit_still (hw : w.gstBlkDev = none) :
    (am62xBoardHwInit U w).2.trace = w.trace ∧
      (am62xBoardHwInit U w).2.stAbility.stBoot.FromMmc ∧
      ∀ d, (am62xBoardHwInit U w).2.gstBlkDev = some d → HwUp U w d := by
  rcases am62xBoardHwInit_cases (U := U) (w := w) with
    ⟨d, hup⟩ | ⟨t, dev, n, hr, ⟨ht, -⟩, hdev⟩
  · rw [am62xBoardHwInit_up hup]
    refine ⟨List.append_nil _, upTable_fromMmc, ?_⟩
    intro d' hd
    obtain rfl : d = d' := Option.some.inj hd
    exact hup
  · rw [hr]
    refine ⟨List.append_nil _, ht, ?_⟩
    intro d hd
    rw [World.withAbility_gstBlkDev, World.withDev_gstBlkDev] at hd
    rcases hdev with rfl | rfl
    · exact absurd (hw.symm.trans hd) (by simp)
    · exact absurd hd (by simp)

/-- From `w` to `w'` the environment may have changed and minor calls
were made, no more. -/
structure Aside (w w' : World) : Prop where
  mem : w'.mem = w.mem
  disk : w'.disk = w.disk
  tick : w'.tick = w.tick
  dev : w'.gstBlkDev = w.gstBlkDev
  stAbility : w'.stAbility = w.stAbility
  trace : ∃ cs, (∀ c ∈ cs, c.Minor) ∧ w'.trace = w.trace ++ cs

theorem Aside.refl : Aside w w := ⟨rfl, rfl, rfl, rfl, rfl, [], by simp, by simp⟩

theorem Aside.trans {w' w'' : World} (h : Aside w w') (h' : Aside w' w'') : Aside w w'' := by
  obtain ⟨cs, hcs, ht⟩ := h.trace
  obtain ⟨cs', hcs', ht'⟩ := h'.trace
  refine ⟨h'.mem.trans h.mem, h'.disk.trans h.disk, h'.tick.trans h.tick, h'.dev.trans h.dev,
    h'.stAbility.trans h.stAbility, cs ++ cs', ?_, ?_⟩
  · intro c hc
    exact (List.mem_append.1 hc).elim (hcs c) (hcs' c)
  · rw [ht', ht, List.append_assoc]

theorem Aside.ite {p : Prop} [Decidable p] {a b : World} (ha : Aside w a) (hb : Aside w b) :
    Aside w (if p then a else b) := by
  split
  · exact ha
  · exact hb

theorem aside_envSet {name value : String} : Aside w (w.envSet name value) :=
  ⟨rfl, rfl, rfl, rfl, rfl, [], by simp, by simp [World.envSet]⟩

theorem aside_advance {c : Call} (hc : c.Minor) : Aside w (w.advance [] [c] 0) :=
  ⟨rfl, World.disk_advance_nil, rfl, rfl, rfl, [c], by simpa using hc, rfl⟩

theorem aside_envEnsure {name want set : String} {s : World × Bool} (h : Aside w s.1) :
    Aside w (envEnsure name want set s).1 := by
  rw [envEnsure, apply_ite Prod.fst]
  exact h.ite (h.trans aside_envSet)

/-- What `am62x_board_env_init` sets in an environment that is new. -/
def envFirst (w : World) : World × Bool :=
  if w.env "bootdelay" = none then
    ((((((w.envSet "netmask" "255.255.0.0").envSet "fdt_addr" "0x81000000").envSet
      "loadaddr" "0x82000000").envSet "mmcpart" "1").envSet "bootdelay" "0"), true)
  else (w, false)

/-- And what it compares and sets in any, before it saves. -/
def envPass (w : World) : World × Bool :=
  let media := w.stAbility.stBoot.iBootMedia
  let mmcdev := if media = boardAbilityDevEmmc then "0" else "1"
  let s := envEnsure "mmcdev" mmcdev mmcdev (envEnsure "gatewayip" "192.168.1.1" "192.168.1.1"
    (envEnsure "ipaddr" "192.168.1.100" "192.168.1.50"
      (envEnsure "serverip" "192.168.1.124" "192.168.1.124" (envFirst w))))
  if media = boardAbilityDevSd ∨ media = boardAbilityDevEmmc then
    envEnsure "bootcmd" "run mmcboot" "run mmcboot" (envEnsure "mmcboot" "bootk" "bootk" s)
  else s

theorem aside_envFirst : Aside w (envFirst w).1 := by
  rw [envFirst, apply_ite Prod.fst]
  exact ((((aside_envSet.trans aside_envSet).trans aside_envSet).trans aside_envSet).trans
    aside_envSet).ite Aside.refl

theorem aside_envPass : Aside w (envPass w).1 := by
  have hnet : ∀ {n₁ n₂ n₃ n₄ a₁ a₂ a₃ a₄ b₁ b₂ b₃ b₄ : String}, Aside w (envEnsure n₄ a₄ b₄
      (envEnsure n₃ a₃ b₃ (envEnsure n₂ a₂ b₂ (envEnsure n₁ a₁ b₁ (envFirst w))))).1 :=
    aside_envEnsure (aside_envEnsure (aside_envEnsure (aside_envEnsure aside_envFirst)))
  simp only [envPass]
  rw [apply_ite Prod.fst]
  exact (aside_envEnsure (aside_envEnsure hnet)).ite hnet

/-- The step is that, and the save. -/
theorem am62xBoardEnvInit_eq : (am62xBoardEnvInit w).2 =
    if (envPass w).2 then (envPass w).1.advance [] [.envSave] 0 else (envPass w).1 := rfl

/-- The environment's step is one aside. -/
theorem am62xBoardEnvInit_aside : Aside w (am62xBoardEnvInit w).2 := by
  rw [am62xBoardEnvInit_eq]
  exact (aside_envPass.trans (aside_advance (c := .envSave) trivial)).ite aside_envPass

/-- And so is the arguments'. -/
theorem am62xBoardArgsInit_aside : Aside w (am62xBoardArgsInit U w).2 := by
  have hset : ∀ dev console, Aside w (obcBootargsSet U w dev console).2 := by
    intro dev console
    have hw : ∀ p : Bool, Aside w (if p then w.advance [] [.overrun] 0 else w) := fun p =>
      (aside_advance (c := .overrun) trivial).ite Aside.refl
    rw [obcBootargsSet, apply_ite Prod.snd]
    exact (hw _).ite ((hw _).trans aside_envSet)
  rw [am62xBoardArgsInit, apply_ite Prod.snd]
  refine Aside.refl.ite ?_
  simp only [apply_ite Prod.snd]
  exact ((hset _ _).ite (hset _ _)).ite ((hset _ _).ite (hset _ _))

/-! ## The device tree's step -/

/-- A table with the two partitions made up where it counts none. -/
def defaultFdt (t : BoardAbilityTable) : BoardAbilityTable :=
  if t.stBlk.iPartCountMmc = 0 then { t with stBlk := defaultFdtParts t.stBlk } else t

/-- The table a device tree is looked up in, from the SPL's where there
is one. -/
def fdtTable (U : UBoot) (t : BoardAbilityTable) : BoardAbilityTable :=
  defaultFdt (if U.ShmemValid then takeShmem U.shmem t else t)

/-- The table the kernel is looked up in, with the device tree in
memory. -/
def kernelTable (U : UBoot) (m : Store UInt8) (t : BoardAbilityTable) : BoardAbilityTable :=
  if U.ShmemValid then fdtTable U t else
  { fdtTable U t with
    stBlk := parseTables (U.fdt m configAm62xHexFdtAddr) (fdtTable U t).stBlk }

/-- The slot of both. -/
def fdtSlot (U : UBoot) (t : BoardAbilityTable) : UInt8 :=
  if U.ShmemValid then U.shmem.stBoot.iPartType else t.stBoot.iPartType

theorem defaultFdt_stBoot {t : BoardAbilityTable} : (defaultFdt t).stBoot = t.stBoot := by
  unfold defaultFdt
  split <;> rfl

theorem defaultFdt_iRdSize {t : BoardAbilityTable} :
    (defaultFdt t).stBlk.iRdSize = t.stBlk.iRdSize := by
  unfold defaultFdt
  split <;> rfl

theorem fdtTable_stBoot {t : BoardAbilityTable} :
    (fdtTable U t).stBoot = { t.stBoot with iPartType := fdtSlot U t } := by
  rw [fdtTable, defaultFdt_stBoot, fdtSlot]
  split <;> rfl

theorem fdtTable_iRdSize {t : BoardAbilityTable} :
    (fdtTable U t).stBlk.iRdSize = t.stBlk.iRdSize := by
  rw [fdtTable, defaultFdt_iRdSize]
  split <;> rfl

theorem kernelTable_stBoot {m : Store UInt8} {t : BoardAbilityTable} :
    (kernelTable U m t).stBoot = { t.stBoot with iPartType := fdtSlot U t } := by
  rw [← fdtTable_stBoot]
  unfold kernelTable
  split <;> rfl

theorem kernelTable_iRdSize {m : Store UInt8} {t : BoardAbilityTable} :
    (kernelTable U m t).stBlk.iRdSize = t.stBlk.iRdSize := by
  rw [← fdtTable_iRdSize (U := U) (t := t), kernelTable]
  split
  · rfl
  · exact obcBlkParseFdt_iRdSize.trans obcBlkParseFdt_iRdSize

/-- The loop reads once: the partition of the slot. -/
theorem obcFdtLoop_eq {n i : ℕ} (hi : i = w.stAbility.stBoot.iPartType.toNat) :
    obcFdtLoop U (n + 1) i w =
      obcBlkReadPartByName U w (fdtName i) w.stAbility.stBoot.uiFdtAddr := by
  obtain ⟨m, cs, t, hr, -, hret⟩ := obcBlkReadPartByName_loaded (U := U) (w := w)
    (fdtName i) w.stAbility.stBoot.uiFdtAddr
  rw [obcFdtLoop, if_neg (not_not.2 hi)]
  rcases hret with ⟨hret, -⟩ | ⟨hret, -⟩
  · simp only [hret]
    rw [if_neg (by decide), Prod.ext_iff]
    cases n with
    | zero => exact ⟨hret.symm, rfl⟩
    | succ n =>
      have hnext : i + 1 ≠ (obcBlkReadPartByName U w (fdtName i)
          w.stAbility.stBoot.uiFdtAddr).2.stAbility.stBoot.iPartType.toNat := by
        rw [hr, World.loaded_stAbility, ← hi]
        exact Nat.succ_ne_self i
      rw [obcFdtLoop, if_pos hnext]
      exact ⟨hret.symm, rfl⟩
  · simp only [hret, if_true]
    rw [Prod.ext_iff]
    exact ⟨hret.symm, rfl⟩

/-- One read of the slot's partition, where there is such a slot. -/
def fdtRead (U : UBoot) (w : World) : ℤ × World :=
  let boot := w.stAbility.stBoot
  if boot.iPartType ≤ obcSlotB then
    obcBlkReadPartByName U w (fdtName boot.iPartType.toNat) boot.uiFdtAddr
  else (-1, w)

theorem obcFdtLoadToMem_eq (h : w.stAbility.stBoot.FromMmc) :
    obcFdtLoadToMem U w = fdtRead U (w.withAbility (defaultFdt w.stAbility)) := by
  have hdefault : (if w.stAbility.stBlk.iPartCountMmc = 0 then w.setBlk defaultFdtParts else w) =
      w.withAbility (defaultFdt w.stAbility) := by
    unfold defaultFdt
    split <;> rfl
  unfold BoardAbilityBoot.FromMmc at h
  simp only [obcFdtLoadToMem, fdtRead, hdefault, World.withAbility_stAbility, defaultFdt_stBoot]
  rw [if_pos h]
  by_cases hslot : w.stAbility.stBoot.iPartType ≤ obcSlotB
  · have hlt : w.stAbility.stBoot.iPartType.toNat ≤ 1 := hslot
    rw [if_pos hslot, if_pos hslot]
    obtain ⟨n, hn⟩ : ∃ n, 2 - w.stAbility.stBoot.iPartType.toNat = n + 1 :=
      Nat.exists_eq_succ_of_ne_zero (by omega)
    rw [hn, obcFdtLoop_eq (by rw [World.withAbility_stAbility, defaultFdt_stBoot]),
      World.withAbility_stAbility, defaultFdt_stBoot]
  · have hne : 0 ≠ w.stAbility.stBoot.iPartType.toNat := fun h0 => hslot (by
      rw [UInt8.le_iff_toNat_le, ← h0]
      exact Nat.zero_le _)
    rw [if_neg hslot, if_neg hslot]
    exact if_pos (by rw [World.withAbility_stAbility, defaultFdt_stBoot]; exact hne)

/-- What the read calls: a package verified is the slot's device tree's,
and makes the read succeed. -/
theorem fdtRead_loaded :
    ∃ m cs n, (fdtRead U w).2 = w.loaded m cs n ∧ (∀ c ∈ cs, ¬ c.StageFailed) ∧
      (∀ image fdt m', .booti image fdt m' ∉ cs) ∧
      ∀ part payload, .verify part payload 0 ∈ cs →
        (fdtRead U w).1 = 0 ∧ part.name = fdtName w.stAbility.stBoot.iPartType.toNat := by
  simp only [fdtRead]
  split
  swap
  · exact ⟨w.mem, [], 0, by simp [World.loaded], by simp, by simp, by simp⟩
  obtain ⟨m, cs, n, hr, -, ⟨hret, rfl | ⟨part, payload, ret, hne, rfl⟩⟩ |
    ⟨hret, i, payload, hfind, rfl⟩⟩ := obcBlkReadPartByName_loaded (U := U) (w := w)
      (fdtName w.stAbility.stBoot.iPartType.toNat) w.stAbility.stBoot.uiFdtAddr
  · exact ⟨m, [], n, hr, by simp, by simp, by simp⟩
  · refine ⟨m, _, n, hr, by simp [Call.StageFailed], by simp, ?_⟩
    intro part' payload' hmem
    rw [List.mem_singleton, Call.verify.injEq] at hmem
    exact absurd hmem.2.2.symm hne
  · refine ⟨m, _, n, hr, by simp [Call.StageFailed], by simp, ?_⟩
    intro part' payload' hmem
    rw [List.mem_singleton, Call.verify.injEq] at hmem
    rw [hmem.1]
    exact ⟨hret, (obcBlkFindPartByNameEx_some hfind).2⟩

/-- The same of what it calls from the world before its table on. -/
theorem fdtRead_since {t : BoardAbilityTable} :
    (∀ image fdt m, .booti image fdt m ∉ w.since (fdtRead U (w.withAbility t)).2) ∧
      ∀ part payload, .verify part payload 0 ∈ w.since (fdtRead U (w.withAbility t)).2 →
        (fdtRead U (w.withAbility t)).1 = 0 ∧ part.name = fdtName t.stBoot.iPartType.toNat := by
  obtain ⟨m, cs, n, hload, -, hno, hver⟩ := fdtRead_loaded (U := U) (w := w.withAbility t)
  have hsince : w.since (fdtRead U (w.withAbility t)).2 = cs :=
    World.since_of_trace (by rw [hload]; rfl)
  rw [hsince]
  exact ⟨hno, hver⟩

/-- **The device tree's step**: one read, and then the table for the
kernel or a switch of the slot. -/
theorem am62xBoardFdtInit_eq (h : w.stAbility.stBoot.FromMmc) {r : ℤ × World}
    (hr : fdtRead U (w.withAbility (fdtTable U w.stAbility)) = r) :
    am62xBoardFdtInit U w =
      if r.1 ≠ 0 then
        (-1, (obcSlotSwitch U (r.2.advance [] [.stage .fdtLoad r.1] 0)
          (fdtSlot U w.stAbility)).2)
      else (0, (r.2.advance [] [.stage .fdtLoad r.1] 0).withAbility
        (kernelTable U r.2.mem w.stAbility)) := by
  have hability : r.2.stAbility = fdtTable U w.stAbility := by
    obtain ⟨m, cs, n, hload, -⟩ := fdtRead_loaded (U := U)
      (w := w.withAbility (fdtTable U w.stAbility))
    rw [← hr, hload]
    rfl
  have hslot : r.2.stAbility.stBoot.iPartType = fdtSlot U w.stAbility := by
    rw [hability, fdtTable_stBoot]
  -- with the table of the SPL the read is made in the world that has it already
  by_cases hs : U.ShmemValid
  · have hload : obcFdtLoadToMem U (w.withAbility (takeShmem U.shmem w.stAbility)) = r := by
      rw [obcFdtLoadToMem_eq (w := w.withAbility (takeShmem U.shmem w.stAbility)) h, ← hr,
        fdtTable, if_pos hs]
      rfl
    simp only [am62xBoardFdtInit, if_pos hs, hload, World.advance_stAbility, hslot]
    congr 2
    rw [kernelTable, if_pos hs, ← hability]
    rfl
  · have hload : obcFdtLoadToMem U w = r := by
      rw [obcFdtLoadToMem_eq h, ← hr, fdtTable, if_neg hs]
    simp only [am62xBoardFdtInit, if_neg hs, hload, World.advance_stAbility, hslot]
    congr 2
    rw [kernelTable, if_neg hs, ← hability]
    rfl

/-- The step as a stage. -/
theorem am62xBoardFdtInit_staged (h : w.stAbility.stBoot.FromMmc) {r : ℤ × World}
    (hr : fdtRead U (w.withAbility (fdtTable U w.stAbility)) = r) :
    Staged U w (fdtSlot U w.stAbility) (w.since r.2 ++ [.stage .fdtLoad r.1])
        (am62xBoardFdtInit U w) ∧
      (am62xBoardFdtInit U w).2.stAbility.stBoot =
        { w.stAbility.stBoot with iPartType := fdtSlot U w.stAbility } := by
  obtain ⟨m, cs, n, hload, hno, -⟩ := fdtRead_loaded (U := U)
    (w := w.withAbility (fdtTable U w.stAbility))
  rw [hr] at hload
  have hcalls : Calls w r.2 cs := by
    rw [hload]
    exact calls_withAbility.trans calls_loaded
  have hability : r.2.stAbility = fdtTable U w.stAbility := by
    rw [hload]
    rfl
  rw [am62xBoardFdtInit_eq h hr, World.since_of_trace hcalls.trace]
  -- a read that fails ends in the other slot, and the switch leaves the table
  by_cases hret : r.1 = 0
  · rw [if_neg (not_not.2 hret)]
    refine ⟨⟨_, hcalls.trans (calls_advance.trans calls_withAbility), Or.inr ⟨?_, rfl⟩⟩,
      kernelTable_stBoot⟩
    intro c hc
    rw [List.mem_append, List.mem_singleton] at hc
    rcases hc with hc | rfl
    · exact hno c hc
    · exact not_not.2 hret
  · rw [if_pos hret]
    refine ⟨⟨_, hcalls.trans calls_advance, Or.inl ⟨⟨.stage .fdtLoad r.1, by simp, hret⟩, rfl⟩⟩, ?_⟩
    obtain ⟨l, cs', n', hadv, -⟩ := obcSlotWrite_minor (U := U)
      (w := r.2.advance [] [.stage .fdtLoad r.1] 0) (nextSlot (fdtSlot U w.stAbility))
    rw [obcSlotSwitch, hadv, World.advance_stAbility, World.advance_stAbility, hability,
      fdtTable_stBoot]

end Steps

end Boot

end ObcSdk
