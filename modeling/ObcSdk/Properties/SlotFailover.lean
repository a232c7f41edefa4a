import ObcSdk.Lib.Failover
import ObcSdk.Boot.Bench
/-!
# Failing over between the slots

A boot attempt starts from the slot the flag names. Each of its stages
that fails switches the flag, and every switch of one attempt writes the
same value, so the flag has moved to the other slot if any stage failed
and is where it was if none did. From there a run of attempts is a run
of a pointer over two alternatives.
-/

namespace ObcSdk

namespace Boot

variable {U : UBoot} {w w' w'' : World} {d : BlkDesc} {s : UInt8} {evs evs' : List Call}

/-! ## One attempt -/

/-- The media with a flag of `s` on the medium `d`. -/
def flagged (d : BlkDesc) (s : UInt8) (disk : ℕ → Store UInt8) : ℕ → Store UInt8 :=
  Function.update disk d.devnum (Function.update (disk d.devnum) configAm62xSysflagDevaddr s)

theorem flagged_flagged {disk : ℕ → Store UInt8} :
    flagged d s (flagged d s disk) = flagged d s disk := by
  simp [flagged]

/-- Some stage among the calls failed. -/
def SomeFailed (evs : List Call) : Prop := ∃ c ∈ evs, c.StageFailed

/-- From `w` to `w'`, boot stages of slot `s` ran and made the calls
`evs`: the flag went to the other slot if one failed, and nothing else
on the media changed. -/
structure Went (d : BlkDesc) (s : UInt8) (w w' : World) (evs : List Call) : Prop where
  dev : w'.gstBlkDev = w.gstBlkDev
  trace : w'.trace = w.trace ++ evs
  kept : ¬ SomeFailed evs → w'.disk = w.disk
  switched : SomeFailed evs → w'.disk = flagged d (nextSlot s) w.disk

theorem someFailed_append : SomeFailed (evs ++ evs') ↔ SomeFailed evs ∨ SomeFailed evs' := by
  simp only [SomeFailed, List.mem_append, or_and_right, exists_or]

/-- **Two switches are one**: stages after stages. -/
theorem Went.trans (h : Went d s w w' evs) (h' : Went d s w' w'' evs') :
    Went d s w w'' (evs ++ evs') := by
  refine ⟨h'.dev.trans h.dev, by rw [h'.trace, h.trace, List.append_assoc], ?_, ?_⟩
  · intro hno
    rw [someFailed_append, not_or] at hno
    rw [h'.kept hno.2, h.kept hno.1]
  · intro hsome
    -- the second switch of an attempt writes what the first one did
    by_cases hfst : SomeFailed evs
    · by_cases hsnd : SomeFailed evs'
      · rw [h'.switched hsnd, h.switched hfst, flagged_flagged]
      · rw [h'.kept hsnd, h.switched hfst]
    · have hsnd := (someFailed_append.1 hsome).resolve_left hfst
      rw [h'.switched hsnd, h.kept hfst]

/-- Calls that are no stage. -/
theorem Calls.went (h : Calls w w' evs) (hno : ¬ SomeFailed evs) : Went d s w w' evs :=
  ⟨h.dev, h.trace, fun _ => h.disk, fun hsome => absurd hsome hno⟩

/-- A step's stages, with the switch that follows one that failed. -/
theorem Staged.went {r : ℤ × World} (h : Staged U w s evs r) (hw : FlagOk U w d) :
    ∃ cs, (∀ c ∈ cs, c.Minor) ∧ Went d s w r.2 (evs ++ cs) := by
  obtain ⟨hdev, cs, hminor, htrace⟩ := h.calls
  have hiff : SomeFailed (evs ++ cs) ↔ SomeFailed evs := by
    rw [someFailed_append, or_iff_left]
    rintro ⟨c, hc, hcf⟩
    exact (hminor c hc).not_stageFailed hcf
  suffices hdisk : (¬ SomeFailed evs → r.2.disk = w.disk) ∧
      (SomeFailed evs → r.2.disk = flagged d (nextSlot s) w.disk) from
    ⟨cs, hminor, hdev, htrace, by rw [hiff]; exact hdisk.1, by rw [hiff]; exact hdisk.2⟩
  obtain ⟨w₁, hcalls, ⟨hsome, rfl⟩ | ⟨hno, rfl⟩⟩ := h
  · have hle : nextSlot s ≤ obcSlotB := by
      unfold nextSlot
      split <;> decide
    have hdisk := obcSlotWrite_eq (hw.of_dev hcalls.dev) hle
    rw [hcalls.disk] at hdisk
    exact ⟨fun hno => absurd hsome hno, fun _ => hdisk⟩
  · exact ⟨fun _ => hcalls.disk, fun ⟨c, hc, hcf⟩ => absurd hcf (hno c hc)⟩

/-- The device tree's step. -/
theorem fdtInit_went (hw : FlagOk U w d) (hm : w.stAbility.stBoot.FromMmc)
    (hs : fdtSlot U w.stAbility = s) :
    ∃ evs, Went d s w (am62xBoardFdtInit U w).2 evs ∧
      ∀ part payload, .verify part payload 0 ∈ evs → part.name = fdtName s.toNat := by
  obtain ⟨hstaged, -⟩ := am62xBoardFdtInit_staged (U := U) hm rfl
  rw [hs] at hstaged
  obtain ⟨cs, hminor, hwent⟩ := hstaged.went hw
  refine ⟨_, hwent, ?_⟩
  intro part payload hmem
  rw [List.mem_append, List.mem_append, List.mem_singleton] at hmem
  rcases hmem with (hmem | hmem) | hmem
  · have hname := (fdtRead_since.2 part payload hmem).2
    rw [fdtTable_stBoot, hs] at hname
    exact hname
  · exact absurd hmem (by simp)
  · exact (hminor _ hmem).elim

/-- The kernel's. -/
theorem doBootk_went (hw : FlagOk U w d) (hs : clampSlot w.stAbility.stBoot.iPartType = s) :
    ∃ evs, Went d s w (doBootk U w).2 evs ∧
      ∀ part payload, .verify part payload 0 ∈ evs → part.name = kernelName s := by
  subst hs
  obtain ⟨evs, hbootk, hstaged⟩ := doBootk_staged (U := U) (w := w)
  obtain ⟨cs, hminor, hwent⟩ := hstaged.went hw
  refine ⟨_, hwent, ?_⟩
  intro part payload hmem
  rw [List.mem_append] at hmem
  exact hbootk.verified part payload (hmem.resolve_right fun hmem => (hminor _ hmem).elim)

/-- A boot attempt: the hardware, the device tree, the kernel. -/
def bootAttempt (U : UBoot) (w : World) : World :=
  (doBootk U (am62xBoardFdtInit U (am62xBoardHwInit U w).2).2).2

/-- The boot medium comes up as `d`, the flag's block is read and written
without a fault, and a table the SPL left carries the flag's slot. -/
structure AttemptOk (U : UBoot) (w : World) (d : BlkDesc) : Prop where
  up : HwUp U w d
  sector : ∀ t, U.fault t (configAm62xSysflagDevaddr / 512) 1 = none
  shmem : U.ShmemValid → U.shmem.stBoot.iPartType = slotOn (w.disk d.devnum)

/-- The slot an attempt boots: it verifies no other's packages. -/
def Boots (s : UInt8) (evs : List Call) : Prop :=
  ∀ part payload, .verify part payload 0 ∈ evs →
    part.name = fdtName s.toNat ∨ part.name = kernelName s

/-- **One attempt.** Its slot is the flag's, and its stages take the flag
on. -/
theorem bootAttempt_went (h : AttemptOk U w d) :
    ∃ evs, Went d (slotOn (w.disk d.devnum)) ((w.advance [] [] 4).withDev (some d))
      (bootAttempt U w) evs ∧ Boots (slotOn (w.disk d.devnum)) evs := by
  obtain ⟨s, hs⟩ : ∃ s, slotOn (w.disk d.devnum) = s := ⟨_, rfl⟩
  have hblksz : d.blksz = 512 := (U.mmc_desc h.up.desc).2.1
  have hflag : ∀ w' : World, w'.gstBlkDev = some d → FlagOk U w' d := fun w' hd =>
    ⟨hd, hblksz, h.sector⟩
  have hslot : bootSlot U w d = s := by
    rw [bootSlot, obcSlotRead_eq (hflag _ rfl), World.withDev_disk, World.disk_advance_nil, hs]
    rfl
  have hclamp : clampSlot s = s := by
    rcases decodeSlot_le (w.disk d.devnum configAm62xSysflagDevaddr) with hd | hd
    all_goals
      rw [← hs, slotOn, hd]
      rfl
  -- the hardware's step takes the flag's slot on, the device tree's keeps it for `bootk`
  rw [bootAttempt, am62xBoardHwInit_up h.up, hslot, hs]
  obtain ⟨w₁, hw₁⟩ : ∃ w₁, ((w.advance [] [] 4).withDev (some d)).withAbility
    (upTable U s w.stAbility) = w₁ := ⟨_, rfl⟩
  have hstart : Went d s ((w.advance [] [] 4).withDev (some d)) w₁ [] := by
    rw [← hw₁]
    refine calls_withAbility.went ?_
    rintro ⟨c, hc, -⟩
    exact List.not_mem_nil hc
  have hfdt : fdtSlot U w₁.stAbility = s := by
    unfold fdtSlot
    split
    · rw [h.shmem ‹_›, hs]
    · rw [← hw₁]
      rfl
  have hm : w₁.stAbility.stBoot.FromMmc := hw₁ ▸ upTable_fromMmc
  have hpart : (am62xBoardFdtInit U w₁).2.stAbility.stBoot.iPartType = s := by
    rw [(am62xBoardFdtInit_staged hm rfl).2, hfdt]
  obtain ⟨evs, hwent, hver⟩ := fdtInit_went (U := U) (hflag w₁ (hw₁ ▸ rfl)) hm hfdt
  obtain ⟨evs', hwent', hver'⟩ := doBootk_went (U := U) (s := s)
    (hflag _ (hwent.dev.trans (hw₁ ▸ rfl))) (by rw [hpart, hclamp])
  rw [hw₁]
  refine ⟨_, (hstart.trans hwent).trans hwent', ?_⟩
  intro part payload hmem
  rw [List.nil_append, List.mem_append] at hmem
  exact hmem.imp (hver part payload) (hver' part payload)

/-! ## What the stages tell -/

/-- The stages among some calls, with what they returned. -/
def stages (evs : List Call) : List (Stage × ℤ) :=
  evs.filterMap fun
    | .stage s ret => some (s, ret)
    | _ => none

theorem stages_append : stages (evs ++ evs') = stages evs ++ stages evs' := List.filterMap_append

theorem someFailed_iff_stages : SomeFailed evs ↔ ∃ p ∈ stages evs, p.2 ≠ 0 := by
  simp only [SomeFailed, stages, List.mem_filterMap]
  constructor
  · rintro ⟨c, hc, hcf⟩
    cases c with
    | stage s ret => exact ⟨(s, ret), ⟨_, hc, rfl⟩, hcf⟩
    | _ => exact hcf.elim
  · rintro ⟨p, ⟨c, hc, hp⟩, hne⟩
    cases c with
    | stage s ret =>
      obtain rfl := Option.some_inj.1 hp
      exact ⟨_, hc, hne⟩
    | _ => simp at hp

theorem stages_of_minor (h : ∀ c ∈ evs, c.Minor) : stages evs = [] := by
  refine List.filterMap_eq_nil_iff.2 fun c hc => ?_
  cases c with
  | stage s ret => exact (h _ hc).elim
  | _ => rfl

/-- A switch of the slot is no stage, -/
theorem stages_obcSlotSwitch : stages (obcSlotSwitch U w s).2.trace = stages w.trace := by
  obtain ⟨l, cs, n, hadv, hminor⟩ := obcSlotWrite_minor (U := U) (w := w) (nextSlot s)
  rw [obcSlotSwitch, hadv, World.advance_trace, stages_append, stages_of_minor hminor,
    List.append_nil]

/-- and no more is the read of a package. -/
theorem stages_obcBlkReadPartByName {partname : List Char} {addr : ℕ} :
    stages (obcBlkReadPartByName U w partname addr).2.trace = stages w.trace := by
  obtain ⟨m, cs, n, hr, -, hload⟩ := obcBlkReadPartByName_loaded (U := U) (w := w) partname addr
  have hcs : stages cs = [] := by
    rcases hload with ⟨-, rfl | ⟨part, payload, ret, -, rfl⟩⟩ | ⟨-, i, payload, -, rfl⟩ <;> rfl
  rw [hr, World.loaded_trace, stages_append, hcs, List.append_nil]

theorem stages_fdtRead : stages (fdtRead U w).2.trace = stages w.trace := by
  rw [fdtRead]
  split_ifs
  · exact stages_obcBlkReadPartByName
  · rfl

/-- **The device tree's stage** is the result of its read. -/
theorem am62xBoardFdtInit_stages (hm : w.stAbility.stBoot.FromMmc) :
    stages (am62xBoardFdtInit U w).2.trace = stages w.trace ++
      [(.fdtLoad, (fdtRead U (w.withAbility (fdtTable U w.stAbility))).1)] := by
  obtain ⟨r, hr⟩ : ∃ r, fdtRead U (w.withAbility (fdtTable U w.stAbility)) = r := ⟨_, rfl⟩
  have hread : stages r.2.trace = stages w.trace := hr ▸ stages_fdtRead
  rw [am62xBoardFdtInit_eq hm hr, hr]
  split_ifs
  · rw [stages_obcSlotSwitch, World.advance_trace, stages_append, hread]
    rfl
  · rw [World.withAbility_trace, World.advance_trace, stages_append, hread]
    rfl

/-- What `unzip`, or `cp.b` of a package that is not packed, returns. -/
def transferStatus (U : UBoot) (t : ℕ) (m : Store UInt8) : ℤ :=
  if m kernelCompLoadAddr = 0x1f ∧ m (kernelCompLoadAddr + 1) = 0x8b then
    (U.unzip t m kernelCompLoadAddr).status
  else (U.cpB t).1

theorem placeKernel_status {target : ℕ} :
    (placeKernel U w target).1 = transferStatus U w.tick w.mem := by
  unfold placeKernel transferStatus
  split <;> rfl

/-- What the stages of `bootk` come to: the read's result, then that of
`unzip` or `cp.b` on the package that was read, then `booti`'s. -/
def bootkStages (U : UBoot) (w : World) : List (Stage × ℤ) :=
  let r := obcBlkReadPartByName U w
    (kernelName (clampSlot w.stAbility.stBoot.iPartType)) kernelCompLoadAddr
  let status := transferStatus U r.2.tick r.2.mem
  (.kernelLoad, r.1) :: if r.1 ≠ 0 then [] else
    (.transfer, status) :: if status ≠ 0 then [] else [(.booti, U.booti (r.2.tick + 1))]

/-- **The kernel's stages** are the results of its read, of `unzip` or
`cp.b`, and of `booti`, up to the first that fails. -/
theorem doBootk_stages : stages (doBootk U w).2.trace = stages w.trace ++ bootkStages U w := by
  obtain ⟨r, hr⟩ : ∃ r, obcBlkReadPartByName U w
    (kernelName (clampSlot w.stAbility.stBoot.iPartType)) kernelCompLoadAddr = r := ⟨_, rfl⟩
  have hread : stages r.2.trace = stages w.trace := hr ▸ stages_obcBlkReadPartByName
  obtain ⟨w₁, hw₁⟩ : ∃ w₁, r.2.advance [] [.stage .kernelLoad r.1] 0 = w₁ := ⟨_, rfl⟩
  have htrace : stages w₁.trace = stages w.trace ++ [(.kernelLoad, r.1)] := by
    rw [← hw₁, World.advance_trace, stages_append, hread]
    rfl
  have hplace := placeKernel_loaded (U := U) (w := w₁) w.stAbility.stBoot.uiImageAddr
  have hstatus : (placeKernel U w₁ w.stAbility.stBoot.uiImageAddr).1 =
      transferStatus U r.2.tick r.2.mem := by
    rw [placeKernel_status, ← hw₁]
    rfl
  obtain ⟨st, hst⟩ : ∃ st, transferStatus U r.2.tick r.2.mem = st := ⟨_, rfl⟩
  rw [hstatus, hst] at hplace
  simp only [doBootk, bootkStages, hr, hw₁, hstatus, hst, hplace]
  by_cases hload : r.1 = 0
  swap
  · rw [if_pos hload, if_pos hload, stages_obcSlotSwitch, htrace]
  rw [if_neg (not_not.2 hload), if_neg (not_not.2 hload)]
  by_cases htransfer : st = 0
  swap
  · rw [if_pos htransfer, if_pos htransfer, stages_obcSlotSwitch, World.loaded_trace,
      stages_append, htrace, List.append_assoc]
    rfl
  rw [if_neg (not_not.2 htransfer), if_neg (not_not.2 htransfer)]
  have htick : U.booti (w₁.loaded (placed U w₁.tick w₁.mem w.stAbility.stBoot.uiImageAddr)
      [.stage .transfer st] 1).tick = U.booti (r.2.tick + 1) := by
    rw [← hw₁]
    rfl
  rw [htick]
  split_ifs
  · rw [stages_obcSlotSwitch, World.advance_trace, World.loaded_trace, stages_append,
      stages_append, htrace, List.append_assoc, List.append_assoc]
    rfl
  · rw [World.advance_trace, World.loaded_trace, stages_append, stages_append, htrace,
      List.append_assoc, List.append_assoc]
    rfl

/-- **An attempt's stages** are the results of the calls it made for them:
the device tree's, and the kernel's behind it. -/
theorem bootAttempt_stages (h : AttemptOk U w d) :
    stages (bootAttempt U w).trace = stages w.trace ++
      (.fdtLoad, (fdtRead U ((am62xBoardHwInit U w).2.withAbility
        (fdtTable U (am62xBoardHwInit U w).2.stAbility))).1) ::
          bootkStages U (am62xBoardFdtInit U (am62xBoardHwInit U w).2).2 := by
  have hup := am62xBoardHwInit_up h.up
  have htrace : stages (am62xBoardHwInit U w).2.trace = stages w.trace := by
    rw [hup, World.withAbility_trace, World.withDev_trace, World.advance_trace, List.append_nil]
  have hm : (am62xBoardHwInit U w).2.stAbility.stBoot.FromMmc := by
    rw [hup]
    exact upTable_fromMmc
  rw [bootAttempt, doBootk_stages, am62xBoardFdtInit_stages hm, htrace, List.append_assoc]
  rfl

/-! ## A run of attempts -/

/-- An attempt of a run: the outside it has, and the state it starts
in. -/
structure Attempt where
  uboot : UBoot
  world : World

namespace Attempt

variable {a b : Attempt} {run : List Attempt} {g : UInt8}

/-- Where it leaves the board. -/
def after (a : Attempt) : World := bootAttempt a.uboot a.world

/-- What it called. -/
def calls (a : Attempt) : List Call := a.world.since a.after

/-- A stage of it failed. -/
def Failed (a : Attempt) : Prop := SomeFailed a.calls

/-- The slot the flag names when it starts. -/
def slot (d : BlkDesc) (a : Attempt) : UInt8 := slotOn (a.world.disk d.devnum)

/-- The next attempt finds the medium as this one left it. -/
def Then (d : BlkDesc) (a b : Attempt) : Prop :=
  b.world.disk d.devnum = a.after.disk d.devnum

/-- A run of attempts on one medium. -/
structure IsRun (d : BlkDesc) (run : List Attempt) : Prop where
  ok : ∀ a ∈ run, AttemptOk a.uboot a.world d
  chain : run.IsChain (Then d)

theorem slot_le : a.slot d = obcSlotA ∨ a.slot d = obcSlotB := decodeSlot_le _

theorem went (h : AttemptOk a.uboot a.world d) :
    Went d (a.slot d) ((a.world.advance [] [] 4).withDev (some d)) a.after a.calls ∧
      Boots (a.slot d) a.calls := by
  obtain ⟨evs, hwent, hboots⟩ := bootAttempt_went h
  have hcalls : a.calls = evs := World.since_of_trace <| by
    rw [after, hwent.trace, World.withDev_trace, World.advance_trace, List.append_nil]
  rw [hcalls]
  exact ⟨hwent, hboots⟩

/-- What an attempt leaves on the media. -/
theorem disk_after (h : AttemptOk a.uboot a.world d) :
    (a.Failed → a.after.disk = flagged d (nextSlot (a.slot d)) a.world.disk) ∧
      (¬ a.Failed → a.after.disk = a.world.disk) := by
  have hwent := (went h).1
  have hdisk : ((a.world.advance [] [] 4).withDev (some d)).disk = a.world.disk := by simp
  rw [← hdisk]
  exact ⟨hwent.switched, hwent.kept⟩

/-- The flag behind an attempt. -/
theorem slotOn_after (h : AttemptOk a.uboot a.world d) :
    (a.Failed → slotOn (a.after.disk d.devnum) = nextSlot (a.slot d)) ∧
      (¬ a.Failed → slotOn (a.after.disk d.devnum) = a.slot d) := by
  obtain ⟨hfailed, hok⟩ := disk_after h
  refine ⟨?_, fun hf => by rw [hok hf, slot]⟩
  intro hf
  rw [hfailed hf, flagged, Function.update_self, slotOn, Function.update_self,
    decodeSlot_nextSlot]

/-- **An attempt fails** exactly if the read of its device tree or of its
kernel, `unzip` or `cp.b`, or `booti` does. -/
theorem failed_iff (h : AttemptOk a.uboot a.world d) {w₁ w₂ : World}
    (hw₁ : (am62xBoardHwInit a.uboot a.world).2 = w₁)
    (hw₂ : (am62xBoardFdtInit a.uboot w₁).2 = w₂) :
    a.Failed ↔ (fdtRead a.uboot (w₁.withAbility (fdtTable a.uboot w₁.stAbility))).1 ≠ 0 ∨
      ∃ p ∈ bootkStages a.uboot w₂, p.2 ≠ 0 := by
  obtain ⟨evs, hwent, -⟩ := bootAttempt_went h
  have htrace : a.after.trace = a.world.trace ++ evs := by
    rw [after, hwent.trace, World.withDev_trace, World.advance_trace, List.append_nil]
  have hstages := bootAttempt_stages h
  rw [← after, htrace, stages_append, List.append_cancel_left_eq, hw₁, hw₂] at hstages
  rw [Failed, calls, World.since_of_trace htrace, someFailed_iff_stages, hstages]
  simp

/-- An attempt as a try of its slot. -/
def toTry (d : BlkDesc) (a : Attempt) : Failover.Try UInt8 := ⟨a.slot d, a.Failed⟩

/-- A run of attempts, with a slot that does not fail, is a run of
tries. -/
theorem IsRun.goodRun (h : IsRun d run) (hg : g = obcSlotA ∨ g = obcSlotB)
    (hgood : ∀ a ∈ run, a.slot d = g → ¬ a.Failed) :
    Failover.GoodRun nextSlot g (run.map (toTry d)) where
  chain := by
    rw [List.isChain_map]
    refine h.chain.imp_of_mem_imp ?_
    intro a b ha _ hab
    obtain ⟨hfailed, hok⟩ := slotOn_after (h.ok a ha)
    exact ⟨fun hf => (congrArg slotOn hab).trans (hfailed hf),
      fun hf => (congrArg slotOn hab).trans (hok hf)⟩
  good := List.forall_mem_map.2 hgood
  to_good := List.forall_mem_map.2 fun _ _ hne => nextSlot_eq slot_le hg hne

end Attempt

/-- **Failover between the slots.** Behind an attempt the flag names the
other slot if and only if one of its stages failed, however many, and no
other byte of any medium has changed. So in a run of attempts, where the
slot `g` does not fail, one attempt fails at most, and every attempt
behind a failed one is of `g`. -/
theorem slot_failover (d : BlkDesc) :
    (∀ a : Attempt, AttemptOk a.uboot a.world d →
      (slotOn (a.after.disk d.devnum) = 1 - a.slot d ↔ a.Failed) ∧
      (slotOn (a.after.disk d.devnum) = a.slot d ↔ ¬ a.Failed) ∧
      (∀ dev x, ¬ (dev = d.devnum ∧ x = configAm62xSysflagDevaddr) →
        a.after.disk dev x = a.world.disk dev x) ∧
      Boots (a.slot d) a.calls) ∧
    ∀ (run : List Attempt) (g : UInt8), Attempt.IsRun d run → g = obcSlotA ∨ g = obcSlotB →
      (∀ a ∈ run, a.slot d = g → ¬ a.Failed) →
      (∀ i j (hi : i < run.length) (hj : j < run.length),
        run[i].Failed → run[j].Failed → i = j) ∧
      ∀ i j (hij : i < j) (hj : j < run.length), run[i].Failed → run[j].slot d = g := by
  constructor
  · intro a h
    obtain ⟨hfailed, hok⟩ := Attempt.slotOn_after h
    have hsub : nextSlot (a.slot d) = 1 - a.slot d := nextSlot_eq_sub Attempt.slot_le
    -- the flag tells the two cases apart: it is never both slots
    have hne : 1 - a.slot d ≠ a.slot d := by
      rcases Attempt.slot_le (a := a) (d := d) with hs | hs <;> rw [hs] <;> decide
    rw [hsub] at hfailed
    refine ⟨⟨?_, hfailed⟩, ⟨?_, hok⟩, ?_, (Attempt.went h).2⟩
    · intro he
      by_contra hf
      exact hne (he.symm.trans (hok hf))
    · intro he hf
      exact hne ((hfailed hf).symm.trans he)
    · intro dev x hx
      obtain ⟨hfailed', hok'⟩ := Attempt.disk_after h
      by_cases hf : a.Failed
      · rw [hfailed' hf, flagged]
        by_cases hdev : dev = d.devnum
        · subst hdev
          rw [Function.update_self, Function.update_of_ne fun hxs => hx ⟨rfl, hxs⟩]
        · rw [Function.update_of_ne hdev]
      · rw [hok' hf]
  · intro run g hrun hg hgood
    have hgoodRun := hrun.goodRun hg hgood
    constructor
    · intro i j hi hj hfi hfj
      exact hgoodRun.failed_unique (by simpa using hi) (by simpa using hj)
        (by simpa [Attempt.toTry] using hfi) (by simpa [Attempt.toTry] using hfj)
    · intro i j hij hj hfi
      have htarget := hgoodRun.target_of_failed hij (by simpa using hj)
        (by simpa [Attempt.toTry] using hfi)
      rw [List.getElem_map] at htarget
      exact htarget

/-! ## Two attempts -/

instance : DecidablePred Call.StageFailed
  | .stage _ ret => inferInstanceAs (Decidable (ret ≠ 0))
  | .dwrite .. | .verify .. | .booti .. | .envSave | .overrun => inferInstanceAs (Decidable False)

instance : DecidablePred SomeFailed := fun evs =>
  inferInstanceAs (Decidable (∃ c ∈ evs, c.StageFailed))

/-- A medium with a signed device tree and kernel for slot B alone. -/
def Bench.slotBMedia : ℕ → Store UInt8 :=
  fun _ => Store.write (Store.write (fun _ => 0) 0x980000 signed) 0x2000000 signed

/-- The bench board over media, with nothing from the SPL. -/
def Bench.attempt (slot : UInt8) (media : ℕ → Store UInt8) : Attempt where
  uboot := { uboot with
    shmem := { ability with stBoot := { ability.stBoot with iPartType := slot } } }
  world := { world (fun _ => 0) with media := media }

theorem Bench.attemptOk {slot : UInt8} {media : ℕ → Store UInt8} (h : slot = slotOn (media 0)) :
    AttemptOk (attempt slot media).uboot (attempt slot media).world emmc :=
  ⟨⟨rfl, rfl, rfl, rfl⟩, fun _ => rfl, fun _ => h⟩

/-- Slot A has nothing to boot; slot B is tried next. -/
def Bench.failoverRun : List Attempt :=
  [attempt 0 slotBMedia, attempt 1 (flagged emmc 1 slotBMedia)]

theorem Bench.attempt_failed : (attempt 0 slotBMedia).Failed := by
  unfold Attempt.Failed
  decide +kernel

theorem Bench.failoverRun_isRun : Attempt.IsRun emmc failoverRun where
  ok := by
    simp only [failoverRun, List.forall_mem_cons, List.not_mem_nil, false_imp_iff, implies_true,
      and_true]
    exact ⟨attemptOk (by decide +kernel), attemptOk (by decide +kernel)⟩
  chain := by
    have hok : AttemptOk (attempt 0 slotBMedia).uboot (attempt 0 slotBMedia).world emmc :=
      attemptOk (by decide +kernel)
    have hslot : (attempt 0 slotBMedia).slot emmc = 0 := by decide +kernel
    refine List.isChain_pair.2 ?_
    rw [Attempt.Then, (Attempt.disk_after hok).1 attempt_failed, hslot]
    rfl

/-- The failover of the bench board, from slot A to slot B. -/
theorem slot_failover_bench :
    (slotOn ((Bench.attempt 0 Bench.slotBMedia).after.disk 0) =
        1 - (Bench.attempt 0 Bench.slotBMedia).slot Bench.emmc ↔
      (Bench.attempt 0 Bench.slotBMedia).Failed) ∧
    ∀ i j (_ : i < j) (_ : j < Bench.failoverRun.length),
      Bench.failoverRun[i].Failed → Bench.failoverRun[j].slot Bench.emmc = 1 := by
  refine ⟨((slot_failover Bench.emmc).1 _ (Bench.attemptOk (by decide +kernel))).1,
    ((slot_failover Bench.emmc).2 Bench.failoverRun 1 Bench.failoverRun_isRun (Or.inr rfl) ?_).2⟩
  simp only [Bench.failoverRun, List.forall_mem_cons, List.not_mem_nil, false_imp_iff,
    implies_true, and_true]
  refine ⟨fun h => absurd h (by decide +kernel), ?_⟩
  intro _
  unfold Attempt.Failed
  decide +kernel

end Boot

end ObcSdk
