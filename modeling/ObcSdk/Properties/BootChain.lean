import ObcSdk.Boot.Bench
/-!
# The chain of a boot

What a boot hands to `booti` should be one slot's: its device tree,
verified and in memory, and its kernel, verified and moved to where it
runs. `bootk` holds the kernel to that. The device tree is loaded before
it, by a step of `obc_board_init` whose result nobody looks at, so the
chain holds exactly where that step found a package to verify.
-/

namespace ObcSdk

namespace Boot

variable {U : UBoot} {w : World} {d : BlkDesc} {i image fdt : ℕ} {payload : List UInt8}
  {mem : Store UInt8}

/-- `obc_board_init`, and `bootk` behind it. -/
def bootRun (U : UBoot) (w : World) : World := (doBootk U (obcBoardInit U w).2).2

/-- **The chain behind a `booti`**: for one slot, its device tree was
verified and is in memory, and its kernel was verified, placed and
started. -/
def Chain (evs : List Call) (image fdt : ℕ) (mem : Store UInt8) : Prop :=
  ∃ s, (s = obcSlotA ∨ s = obcSlotB) ∧
    (∃ part payload, .verify part payload 0 ∈ evs ∧ part.name = fdtName s.toNat ∧
      Store.read mem fdt payload.length = payload) ∧
    ∃ part payload, part.name = kernelName s ∧
      [.verify part payload 0, .stage .kernelLoad 0, .stage .transfer 0,
        .booti image fdt mem] <:+: evs

/-! ## The condition -/

/-- The table the hardware's step of `obc_board_init` leaves. -/
def startTable (U : UBoot) (w : World) (d : BlkDesc) : BoardAbilityTable :=
  upTable U (bootSlot U w d) .zero

/-- The entries the device tree is looked up in. -/
def fdtParts (U : UBoot) (w : World) (d : BlkDesc) : ℕ → BoardAbilityBlkParts :=
  (fdtTable U (startTable U w d)).stBlk.part U.beyond .mmc

/-- The slot of the boot: the SPL's, or the flag's. -/
def runSlot (U : UBoot) (w : World) (d : BlkDesc) : UInt8 := fdtSlot U (startTable U w d)

/-- The device tree of the slot loads: there is such a slot, the medium
holds a package in its partition `i`, and no read faults. -/
structure FdtLoads (U : UBoot) (w : World) (d : BlkDesc) (i : ℕ) (payload : List UInt8) :
    Prop where
  up : HwUp U w d
  slot : runSlot U w d ≤ obcSlotB
  found : obcBlkFindPartByNameEx (fdtParts U w d)
    (fdtTable U (startTable U w d)).stBlk.iPartCountMmc (fdtName (runSlot U w d).toNat) = some i
  holds : HoldsPackage U (w.disk d.devnum) (fdtParts U w d i).base (fdtParts U w d i).size payload
  header : U.fault (w.tick + 4) ((fdtParts U w d i).addr.toNat / 512) 1 = none
  body : U.fault (w.tick + 5) ((fdtParts U w d i).addr.toNat / 512 + 1)
    (blockCount payload.length 512) = none

/-- The memory with that device tree. -/
def fdtMem (U : UBoot) (w : World) (d : BlkDesc) (i : ℕ) (payload : List UInt8) : Store UInt8 :=
  staged w.mem (w.disk d.devnum) configAm62xHexFdtAddr (fdtParts U w d i).base payload

/-- The table the kernel is then looked up in. -/
def bootkTable (U : UBoot) (w : World) (d : BlkDesc) (i : ℕ) (payload : List UInt8) :
    BoardAbilityTable :=
  kernelTable U (fdtMem U w d i payload) (startTable U w d)

/-- The memory with the kernel's package read from its partition `j` and
placed. -/
def bootkMem (U : UBoot) (w : World) (d : BlkDesc) (i j : ℕ) (payload kernel : List UInt8) :
    Store UInt8 :=
  placed U (w.tick + 8) (staged (fdtMem U w d i payload) (w.disk d.devnum) kernelCompLoadAddr
    ((bootkTable U w d i payload).stBlk.part U.beyond .mmc j).base kernel) configAm62xHexKernelAddr

/-- The medium holds a package in the partition `j` of the slot's
kernel. -/
structure KernelHeld (U : UBoot) (w : World) (d : BlkDesc) (i j : ℕ) (payload kernel : List UInt8) :
    Prop where
  found : obcBlkFindPartByNameEx ((bootkTable U w d i payload).stBlk.part U.beyond .mmc)
    (bootkTable U w d i payload).stBlk.iPartCountMmc (kernelName (runSlot U w d)) = some j
  holds : HoldsPackage U (w.disk d.devnum)
    ((bootkTable U w d i payload).stBlk.part U.beyond .mmc j).base
    ((bootkTable U w d i payload).stBlk.part U.beyond .mmc j).size kernel

/-- The kernel's place is 16 MiB above the device tree's: what the
device tree has beyond them, the kernel's bytes do not change. -/
def FdtStays (U : UBoot) (w : World) (d : BlkDesc) (i : ℕ) (payload : List UInt8) : Prop :=
  ∀ j kernel, KernelHeld U w d i j payload kernel →
    ∀ x (hx : x < payload.length), 0x1000000 ≤ x →
      bootkMem U w d i j payload kernel (configAm62xHexFdtAddr + x) = payload[x]

/-! ## The steps of the run -/

/-- The board before the device tree's step. -/
def beforeFdt (U : UBoot) (w : World) : World :=
  (am62xBoardEnvInit (am62xBoardHwInit U (w.withAbility .zero)).2).2

/-- And in the table that step reads in. -/
def fdtWorld (U : UBoot) (w : World) : World :=
  (beforeFdt U w).withAbility (fdtTable U (beforeFdt U w).stAbility)

/-- The calls of a run: the device tree's, the kernel's, and minor ones
around them. -/
structure RunCalls (U : UBoot) (w : World) (evsF evsK : List Call) : Prop where
  fdt : evsF = (beforeFdt U w).since (fdtRead U (fdtWorld U w)).2 ++
    [.stage .fdtLoad (fdtRead U (fdtWorld U w)).1]
  bootk : BootkCalls U (obcBoardInit U w).2 evsK
  calls : ∃ a b c, w.since (bootRun U w) = a ++ evsF ++ b ++ evsK ++ c ∧
    ∀ e ∈ a ++ b ++ c, e.Minor

theorem bootRun_calls (hw : w.gstBlkDev = none) :
    (∀ d, (obcBoardInit U w).2.gstBlkDev = some d → HwUp U w d) ∧
      ∃ evsF evsK, RunCalls U w evsF evsK := by
  obtain ⟨htrace, hmmc, hdev⟩ := am62xBoardHwInit_still (U := U) (w := w.withAbility .zero) hw
  have henv : Aside (am62xBoardHwInit U (w.withAbility .zero)).2 (beforeFdt U w) :=
    am62xBoardEnvInit_aside
  obtain ⟨a, ha, htrace₂⟩ := henv.trace
  have hmmc₂ : (beforeFdt U w).stAbility.stBoot.FromMmc := by
    rw [henv.stAbility]
    exact hmmc
  -- the steps one after the other, each with the calls it adds
  obtain ⟨hdev₃, b, hb, htrace₃⟩ := (am62xBoardFdtInit_staged (U := U) hmmc₂ rfl).1.calls
  have hargs : Aside (am62xBoardFdtInit U (beforeFdt U w)).2 (obcBoardInit U w).2 :=
    am62xBoardArgsInit_aside
  obtain ⟨b', hb', htrace₄⟩ := hargs.trace
  obtain ⟨evsK, hbootk, hstaged⟩ := doBootk_staged (U := U) (w := (obcBoardInit U w).2)
  obtain ⟨-, c, hc, htrace₅⟩ := hstaged.calls
  refine ⟨?_, _, evsK, rfl, hbootk, a, b ++ b', c, World.since_of_trace ?_, ?_⟩
  · intro d hd
    rw [hargs.dev, hdev₃, henv.dev] at hd
    obtain ⟨h₁, h₂, h₃, h₄⟩ := hdev d hd
    exact ⟨h₁, h₂, h₃, h₄⟩
  · rw [bootRun, htrace₅, htrace₄, htrace₃, htrace₂, htrace]
    simp only [World.withAbility_trace, List.append_assoc]
    rfl
  · intro e he
    simp only [List.mem_append] at he
    rcases he with (he | he | he) | he
    · exact ha e he
    · exact hb e he
    · exact hb' e he
    · exact hc e he

/-- The world a read is made in: the device in use, the memory, the
media, the clock and the table. -/
structure AtRead (U : UBoot) (w' : World) (d : BlkDesc) (m : Store UInt8)
    (disk : ℕ → Store UInt8) (tick : ℕ) (t : BoardAbilityTable) : Prop where
  desc : U.mmcGetBlkDesc d.devnum = some d
  dev : w'.gstBlkDev = some d
  mem : w'.mem = m
  disk : w'.disk = disk
  tick : w'.tick = tick
  stAbility : w'.stAbility = t
  rdSize : t.stBlk.iRdSize = 512

section AtRead

variable {w' : World} {m : Store UInt8} {disk : ℕ → Store UInt8} {tick addr : ℕ}
  {t : BoardAbilityTable} {name : List Char}

theorem AtRead.on (h : AtRead U w' d m disk tick t) : w'.On d :=
  ⟨h.dev, (U.mmc_desc h.desc).2.1, by rw [h.stAbility, h.rdSize]⟩

theorem AtRead.bootTable (h : AtRead U w' d m disk tick t) : w'.bootTable = .mmc := by
  simp only [World.bootTable, h.dev]
  rw [if_neg (U.mmc_desc h.desc).2.2]

theorem AtRead.parts (h : AtRead U w' d m disk tick t) :
    w'.parts U = t.stBlk.part U.beyond .mmc := by
  rw [World.parts, h.bootTable, h.stAbility]

theorem AtRead.find (h : AtRead U w' d m disk tick t) :
    obcBlkFindPartByName U w' name =
      obcBlkFindPartByNameEx (t.stBlk.part U.beyond .mmc) t.stBlk.iPartCountMmc name := by
  rw [obcBlkFindPartByName, h.parts, World.partCount, h.bootTable, h.stAbility]
  rfl

/-- **What a successful read tells**, in the terms of its start. -/
theorem AtRead.success (h : AtRead U w' d m disk tick t)
    (hr : (obcBlkReadPartByName U w' name addr).1 = 0) :
    ∃ i payload, obcBlkFindPartByNameEx (t.stBlk.part U.beyond .mmc) t.stBlk.iPartCountMmc name =
        some i ∧
      HoldsPackage U (disk d.devnum) (t.stBlk.part U.beyond .mmc i).base
        (t.stBlk.part U.beyond .mmc i).size payload ∧
      U.fault tick ((t.stBlk.part U.beyond .mmc i).addr.toNat / 512) 1 = none ∧
      U.fault (tick + 1) ((t.stBlk.part U.beyond .mmc i).addr.toNat / 512 + 1)
        (blockCount payload.length 512) = none ∧
      obcBlkReadPartByName U w' name addr = (0, w'.loaded
        (staged m (disk d.devnum) addr (t.stBlk.part U.beyond .mmc i).base payload)
        [.verify (t.stBlk.part U.beyond .mmc i) payload 0] 2) := by
  have hsuccess := obcBlkReadPartByName_success h.on hr
  rw [h.parts, h.find, h.tick, h.disk, h.mem] at hsuccess
  exact hsuccess

end AtRead

/-- The hardware up, the device tree's step starts from here. -/
theorem HwUp.beforeFdt (h : HwUp U w d) :
    AtRead U (beforeFdt U w) d w.mem w.disk (w.tick + 4) (startTable U w d) := by
  have hup : HwUp U (w.withAbility .zero) d := ⟨h.find, h.init, h.select, h.desc⟩
  have henv : Aside (am62xBoardHwInit U (w.withAbility .zero)).2 (Boot.beforeFdt U w) :=
    am62xBoardEnvInit_aside
  have hread : (obcSlotRead U (((w.withAbility .zero).advance [] [] 3).withDev (some d))).1 =
      (obcSlotRead U ((w.advance [] [] 3).withDev (some d))).1 := obcSlotRead_fst rfl rfl rfl
  have hslot : bootSlot U (w.withAbility .zero) d = bootSlot U w d :=
    congrArg (Option.getD · obcSlotA) hread
  rw [am62xBoardHwInit_up hup, hslot] at henv
  have hdesc : U.mmcGetBlkDesc d.devnum = some d := by
    rw [(U.mmc_desc h.desc).1]
    exact h.desc
  exact ⟨hdesc, henv.dev, henv.mem, henv.disk.trans (by simp), henv.tick, henv.stAbility, rfl⟩

/-- And the read in it from here. -/
theorem HwUp.fdtWorld (h : HwUp U w d) :
    AtRead U (fdtWorld U w) d w.mem w.disk (w.tick + 4) (fdtTable U (startTable U w d)) := by
  have hat := h.beforeFdt
  refine ⟨hat.desc, hat.dev, hat.mem, hat.disk, hat.tick, ?_, ?_⟩
  · rw [Boot.fdtWorld, World.withAbility_stAbility, hat.stAbility]
  · rw [fdtTable_iRdSize]
    rfl

theorem HwUp.fdtRead (h : HwUp U w d) :
    Boot.fdtRead U (Boot.fdtWorld U w) = if runSlot U w d ≤ obcSlotB then
        obcBlkReadPartByName U (Boot.fdtWorld U w) (fdtName (runSlot U w d).toNat)
          configAm62xHexFdtAddr
      else (-1, Boot.fdtWorld U w) := by
  have hboot : (Boot.fdtWorld U w).stAbility.stBoot =
      { (startTable U w d).stBoot with iPartType := runSlot U w d } := by
    rw [h.fdtWorld.stAbility, fdtTable_stBoot, runSlot]
  rw [Boot.fdtRead, hboot]
  rfl

/-- **The device tree loads** exactly where its read succeeds. -/
theorem loads_of_fdtRead (hup : HwUp U w d) (h : (fdtRead U (fdtWorld U w)).1 = 0) :
    ∃ i payload, FdtLoads U w d i payload := by
  rw [hup.fdtRead] at h
  split at h
  swap
  · exact absurd h (by simp)
  obtain ⟨i, payload, hfind, hholds, hheader, hbody, -⟩ := hup.fdtWorld.success h
  exact ⟨i, payload, hup, ‹_›, hfind, hholds, hheader, hbody⟩

theorem fdtRead_of_loads (h : FdtLoads U w d i payload) :
    fdtRead U (fdtWorld U w) = (0, (fdtWorld U w).loaded (fdtMem U w d i payload)
      [.verify (fdtParts U w d i) payload 0] 2) := by
  have hat := h.up.fdtWorld
  have hok : (obcBlkReadPartByName U (fdtWorld U w) (fdtName (runSlot U w d).toNat)
      configAm62xHexFdtAddr).1 = 0 := by
    have hholds : HoldsPackage U ((fdtWorld U w).disk d.devnum)
        ((fdtWorld U w).parts U i).base ((fdtWorld U w).parts U i).size payload := by
      rw [hat.parts, hat.disk]
      exact h.holds
    refine obcBlkReadPartByName_of_holds hat.on (hat.find.trans h.found) hholds ?_ ?_
    · rw [hat.parts, hat.tick]
      exact h.header
    · rw [hat.parts, hat.tick]
      exact h.body
  obtain ⟨i', payload', hfind, hholds, -, -, hr⟩ := hat.success hok
  obtain rfl : i = i' := Option.some.inj (h.found.symm.trans hfind)
  obtain rfl := h.holds.eq hholds
  rw [h.up.fdtRead, if_pos h.slot, hr]
  rfl

/-- The device tree loaded, the read of the kernel starts from here. -/
theorem FdtLoads.beforeBootk (h : FdtLoads U w d i payload) :
    AtRead U (obcBoardInit U w).2 d (fdtMem U w d i payload) w.disk (w.tick + 6)
      (bootkTable U w d i payload) := by
  have hat := h.up.fdtWorld
  have hstart := h.up.beforeFdt.stAbility
  have hargs : Aside (am62xBoardFdtInit U (beforeFdt U w)).2 (obcBoardInit U w).2 :=
    am62xBoardArgsInit_aside
  have hmmc : (beforeFdt U w).stAbility.stBoot.FromMmc := by
    rw [hstart]
    exact upTable_fromMmc
  rw [am62xBoardFdtInit_eq hmmc (fdtRead_of_loads h), if_neg (not_not.2 rfl), hstart] at hargs
  refine ⟨hat.desc, hargs.dev.trans hat.dev, hargs.mem, hargs.disk.trans ?_, hargs.tick.trans ?_,
    hargs.stAbility, kernelTable_iRdSize⟩
  · rw [World.withAbility_disk, World.disk_advance_nil, World.loaded_disk, hat.disk]
  · rw [World.withAbility_tick, World.advance_tick, World.loaded_tick, hat.tick]

/-! ## What is started -/

section Started

variable {evsF evsK : List Call} {e : Call}

theorem RunCalls.mem_iff (h : RunCalls U w evsF evsK) (he : ¬ e.Minor) :
    e ∈ w.since (bootRun U w) ↔ e ∈ evsF ∨ e ∈ evsK := by
  obtain ⟨a, b, c, hcalls, hminor⟩ := h.calls
  have hno : e ∉ a ++ b ++ c := fun hmem => he (hminor e hmem)
  simp only [List.mem_append, not_or] at hno
  obtain ⟨⟨ha, hb⟩, hc⟩ := hno
  rw [hcalls]
  simp only [List.mem_append, ha, hb, hc, false_or, or_false]

theorem RunCalls.within (h : RunCalls U w evsF evsK) : evsK <:+: w.since (bootRun U w) := by
  obtain ⟨a, b, c, hcalls, -⟩ := h.calls
  exact ⟨a ++ evsF ++ b, c, hcalls.symm⟩

/-- A `booti` is the kernel's step's. -/
theorem RunCalls.booti_mem (h : RunCalls U w evsF evsK)
    (hbooti : .booti image fdt mem ∈ w.since (bootRun U w)) : .booti image fdt mem ∈ evsK := by
  refine ((h.mem_iff (e := .booti image fdt mem) id).1 hbooti).resolve_left ?_
  intro hmem
  rw [h.fdt, List.mem_append, List.mem_singleton] at hmem
  exact hmem.elim (fdtRead_since.1 image fdt mem) (by simp)

/-- No device tree is named like a kernel. -/
theorem fdtName_ne_kernelName {n : ℕ} {s : UInt8} : fdtName n ≠ kernelName s := by
  unfold fdtName kernelName
  split <;> simp

/-- A device tree verified was read. -/
theorem RunCalls.fdtRead_of_verify (h : RunCalls U w evsF evsK) {part : BoardAbilityBlkParts}
    {n : ℕ} (hver : .verify part payload 0 ∈ w.since (bootRun U w))
    (hname : part.name = fdtName n) :
    .verify part payload 0 ∈ evsF ∧ (fdtRead U (fdtWorld U w)).1 = 0 := by
  -- `bootk` verifies kernels alone
  have hF : .verify part payload 0 ∈ evsF := by
    refine ((h.mem_iff (e := .verify part payload 0) id).1 hver).resolve_right ?_
    intro hmem
    exact fdtName_ne_kernelName (hname.symm.trans (h.bootk.verified _ _ hmem))
  refine ⟨hF, ?_⟩
  rw [h.fdt, List.mem_append, List.mem_singleton] at hF
  exact (fdtRead_since.2 part payload (hF.resolve_right (by simp))).1

/-- With the device tree loaded, its verification is all its step
called. -/
theorem FdtLoads.calls (hl : FdtLoads U w d i payload) (h : RunCalls U w evsF evsK) :
    evsF = [.verify (fdtParts U w d i) payload 0, .stage .fdtLoad 0] := by
  rw [h.fdt, fdtRead_of_loads hl]
  have hsince : (beforeFdt U w).since ((fdtWorld U w).loaded (fdtMem U w d i payload)
      [.verify (fdtParts U w d i) payload 0] 2) = [.verify (fdtParts U w d i) payload 0] :=
    World.since_of_trace rfl
  rw [hsince]
  rfl

/-- **What is started behind a device tree that loaded**: the kernel of
its slot, over the memory the device tree left. -/
theorem FdtLoads.issued (hl : FdtLoads U w d i payload) (h : RunCalls U w evsF evsK)
    (hbooti : .booti image fdt mem ∈ evsK) :
    fdt = configAm62xHexFdtAddr ∧
      (∃ part kernel ret, part.name = kernelName (runSlot U w d) ∧
        evsK = [.verify part kernel 0, .stage .kernelLoad 0, .stage .transfer 0,
          .booti image fdt mem, .stage .booti ret]) ∧
      ∃ j kernel, KernelHeld U w d i j payload kernel ∧
        mem = bootkMem U w d i j payload kernel := by
  have hat := hl.beforeBootk
  have hboot : (obcBoardInit U w).2.stAbility.stBoot =
      { (startTable U w d).stBoot with iPartType := runSlot U w d } := by
    rw [hat.stAbility, bootkTable, kernelTable_stBoot, runSlot]
  have hclamp : clampSlot (runSlot U w d) = runSlot U w d := if_pos hl.slot
  obtain ⟨r, hr, hr0, hfdt, hmem, part, kernel, ret, hname, hevs⟩ := h.bootk.issued _ _ _ hbooti
  rw [hboot] at hr hfdt hmem hname
  simp only [hclamp] at hr hname
  have hok := hr ▸ hr0
  obtain ⟨j, kernel', hfind, hholds, -, -, hread⟩ := hat.success hok
  refine ⟨hfdt, ⟨part, kernel, ret, hname, hevs⟩, j, kernel', ⟨hfind, hholds⟩, ?_⟩
  rw [hmem, ← hr, hread, World.loaded_mem, World.loaded_tick, hat.tick]
  rfl

/-- Below its 16 MiB the device tree stays. -/
theorem bootkMem_of_lt {j x : ℕ} {kernel : List UInt8} (hx : x < payload.length)
    (hlt : x < 0x1000000) :
    bootkMem U w d i j payload kernel (configAm62xHexFdtAddr + x) = payload[x] := by
  have hk : configAm62xHexFdtAddr + x < configAm62xHexKernelAddr := Nat.add_lt_add_left hlt _
  rw [bootkMem, placed_of_lt hk, staged_of_lt (hk.trans (by decide)), fdtMem, staged,
    Store.write_add hx]

/-- **What the kernel leaves of the device tree.** -/
theorem fdtStays_iff {j : ℕ} {kernel : List UInt8} (hk : KernelHeld U w d i j payload kernel) :
    Store.read (bootkMem U w d i j payload kernel) configAm62xHexFdtAddr payload.length = payload ↔
      FdtStays U w d i payload := by
  constructor
  · intro hread j' kernel' hk' x hx _
    obtain rfl : j = j' := Option.some.inj (hk.found.symm.trans hk'.found)
    obtain rfl := hk.holds.eq hk'.holds
    rw [List.getElem_of_eq hread.symm hx, Store.getElem_read]
  · intro hstays
    refine (Store.eq_read rfl ?_).symm
    intro x hx
    rcases Nat.lt_or_ge x 0x1000000 with hlt | hge
    · exact (bootkMem_of_lt hx hlt).symm
    · exact (hstays j kernel hk x hx hge).symm

end Started

/-- A read that succeeds had a device to read. -/
theorem dev_of_read {name : List Char} {addr : ℕ} (h : (obcBlkReadPartByName U w name addr).1 = 0) :
    ∃ d, w.gstBlkDev = some d := by
  generalize hr : obcBlkReadPartByName U w name addr = r at h
  rcases obcBlkReadPartByName_cases hr with ⟨m, n, rfl, -⟩ | ⟨m, part, payload, ret, -, rfl, -⟩ |
    ⟨i, m₁, m₂, count, -, hread, -⟩
  · exact absurd h (by simp)
  · exact absurd h (by simp)
  · obtain ⟨d, hd, -⟩ := dread_eq Nat.one_pos hread
    exact ⟨d, hd⟩

/-- **The chain, exactly.** Whatever the media and the SPL's table hold
and whatever the reads come to, behind a `booti` the chain holds if and
only if the device tree of the slot loaded and the kernel left it
alone. -/
theorem boot_chain (hw : w.gstBlkDev = none)
    (hbooti : .booti image fdt mem ∈ w.since (bootRun U w)) :
    Chain (w.since (bootRun U w)) image fdt mem ↔
      ∃ d i payload, FdtLoads U w d i payload ∧ FdtStays U w d i payload := by
  obtain ⟨hup, evsF, evsK, hrun⟩ := bootRun_calls (U := U) hw
  have hK := hrun.booti_mem hbooti
  constructor
  · -- whichever slot the chain is of, its device tree was read by this run
    rintro ⟨s, -, ⟨part, payload, hver, hname, hread⟩, -⟩
    obtain ⟨hF, hok⟩ := hrun.fdtRead_of_verify hver hname
    obtain ⟨r, hr, hr0, -⟩ := hrun.bootk.issued _ _ _ hK
    obtain ⟨d, hd⟩ := dev_of_read (hr ▸ hr0)
    obtain ⟨i, payload', hl⟩ := loads_of_fdtRead (hup d hd) hok
    rw [hl.calls hrun] at hF
    obtain rfl : payload = payload' := by
      simp only [List.mem_cons, Call.verify.injEq, reduceCtorEq, List.not_mem_nil, or_false] at hF
      exact hF.2.1
    obtain ⟨rfl, -, j, kernel, hk, rfl⟩ := hl.issued hrun hK
    exact ⟨d, i, payload, hl, (fdtStays_iff hk).1 hread⟩
  · rintro ⟨d, i, payload, hl, hstays⟩
    obtain ⟨rfl, ⟨part, kernel, ret, hname, hevs⟩, j, kernel', hk, rfl⟩ := hl.issued hrun hK
    refine ⟨runSlot U w d, ?_, ⟨fdtParts U w d i, payload, ?_, ?_, ?_⟩, part, kernel, hname, ?_⟩
    · have hle : (runSlot U w d).toNat ≤ 1 := hl.slot
      rcases Nat.le_one_iff_eq_zero_or_eq_one.1 hle with h | h
      · exact Or.inl (UInt8.toNat_inj.1 h)
      · exact Or.inr (UInt8.toNat_inj.1 h)
    · refine (hrun.mem_iff (e := .verify _ _ 0) id).2 (Or.inl ?_)
      rw [hl.calls hrun]
      exact List.mem_cons_self
    · exact (obcBlkFindPartByNameEx_some hl.found).2
    · exact (fdtStays_iff hk).2 hstays
    · refine List.IsInfix.trans ?_ hrun.within
      rw [hevs]
      exact List.IsPrefix.isInfix ⟨[.stage .booti ret], rfl⟩

/-! ## Two boots -/

/-- A `booti` and what it starts. -/
def bootiOf : Call → Option (ℕ × ℕ × Store UInt8)
  | .booti image fdt mem => some (image, fdt, mem)
  | _ => none

theorem exists_booti {evs : List Call} (h : (evs.findSome? bootiOf).isSome) :
    ∃ image fdt mem, .booti image fdt mem ∈ evs := by
  obtain ⟨⟨image, fdt, mem⟩, hfind⟩ := Option.isSome_iff_exists.1 h
  obtain ⟨c, hc, hcb⟩ := List.exists_of_findSome?_eq_some hfind
  cases c with
  | booti image' fdt' mem' => exact ⟨image', fdt', mem', hc⟩
  | _ => exact absurd hcb (by simp [bootiOf])

/-- Whether a call verified a device tree. -/
def verifiesFdt : Call → Bool
  | .verify part _ _ => part.name.head? = some 'f'
  | _ => false

theorem Chain.verifiesFdt {evs : List Call} (h : Chain evs image fdt mem) :
    evs.any Boot.verifiesFdt := by
  obtain ⟨s, -, ⟨part, payload, hver, hname, -⟩, -⟩ := h
  refine List.any_eq_true.2 ⟨_, hver, ?_⟩
  rw [Boot.verifiesFdt, hname]
  unfold fdtName
  split <;> rfl

/-- Whether calls start a kernel and verify no device tree. -/
def startsUnverified (evs : List Call) : Bool :=
  (evs.findSome? bootiOf).isSome && !evs.any verifiesFdt

theorem startsUnverified_iff {evs : List Call} : startsUnverified evs = true ↔
    (evs.findSome? bootiOf).isSome ∧ ¬ evs.any verifiesFdt = true := by
  rw [startsUnverified, Bool.and_eq_true, Bool.not_eq_true', Bool.not_eq_true]

/-- The bench board at reset, with a signed kernel for slot A, and `fdt0`
where its device tree is to be. -/
def Bench.chainWorld (fdt0 : List UInt8) : World :=
  { world (fun _ => 0) with
    gstBlkDev := none
    media := fun _ =>
      Store.write (Store.write (fun _ => 0) 0x900000 fdt0) 0x1000000 signed }

/-- **A board with no device tree starts its kernel**: the load fails,
the slot is switched, and `bootk` goes on. -/
theorem boot_without_chain :
    ¬ ∀ (U : UBoot) (w : World) (image fdt : ℕ) (mem : Store UInt8), w.gstBlkDev = none →
      .booti image fdt mem ∈ w.since (bootRun U w) →
      Chain (w.since (bootRun U w)) image fdt mem := by
  intro h
  have hrun : startsUnverified
      ((Bench.chainWorld []).since (bootRun Bench.uboot (Bench.chainWorld []))) = true := by
    decide +kernel
  obtain ⟨hstart, hnone⟩ := startsUnverified_iff.1 hrun
  obtain ⟨image, fdt, mem, hbooti⟩ := exists_booti hstart
  exact hnone (h Bench.uboot (Bench.chainWorld []) image fdt mem rfl hbooti).verifiesFdt

/-- One with a signed device tree has the chain. -/
theorem boot_chain_signed :
    ∃ image fdt mem,
      .booti image fdt mem ∈ (Bench.chainWorld Bench.signed).since
        (bootRun Bench.uboot (Bench.chainWorld Bench.signed)) ∧
      Chain ((Bench.chainWorld Bench.signed).since
        (bootRun Bench.uboot (Bench.chainWorld Bench.signed))) image fdt mem := by
  have hstart : (((Bench.chainWorld Bench.signed).since
      (bootRun Bench.uboot (Bench.chainWorld Bench.signed))).findSome? bootiOf).isSome := by
    decide +kernel
  obtain ⟨image, fdt, mem, hbooti⟩ := exists_booti hstart
  refine ⟨image, fdt, mem, hbooti, (boot_chain rfl hbooti).2 ⟨Bench.emmc, 3, [0xAB], ?_, ?_⟩⟩
  · refine ⟨⟨rfl, rfl, rfl, rfl⟩, by decide +kernel, by decide +kernel, ?_, rfl, rfl⟩
    exact ⟨by decide +kernel, by decide +kernel, by decide, by decide +kernel, by decide +kernel,
      by decide +kernel⟩
  · intro j kernel _ x hx hge
    exact absurd (hx.trans_le (by decide)) (Nat.not_lt.2 hge)

end Boot

end ObcSdk
