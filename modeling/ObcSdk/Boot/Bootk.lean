import ObcSdk.Boot.Board
/-!
# Booting the kernel

`do_bootk`: the kernel package of the slot the board came up in is read
to a load address of its own, unpacked or copied to where the kernel
runs, and started with the device tree. Where a stage fails the slot is
switched for the next boot.
-/

namespace ObcSdk

namespace Boot

/-- `KERNEL_COMP_LOAD_ADDR`. -/
abbrev kernelCompLoadAddr : ℕ := 0x90000000

/-- `"kernel%d"`. -/
def kernelName (slot : UInt8) : List Char :=
  ['k', 'e', 'r', 'n', 'e', 'l'] ++ Nat.toDigits 10 slot.toNat

/-- The slot a table's `iPartType` stands for. -/
def clampSlot (iPartType : UInt8) : UInt8 := if iPartType ≤ obcSlotB then iPartType else obcSlotA

/-- The kernel unpacked, or copied, from its load address: the command's
status. -/
def placeKernel (U : UBoot) (w : World) (target : ℕ) : ℤ × World :=
  if w.mem kernelCompLoadAddr = 0x1f ∧ w.mem (kernelCompLoadAddr + 1) = 0x8b then
    let z := U.unzip w.tick w.mem kernelCompLoadAddr
    (z.status, w.loaded (Store.write w.mem target z.out) [.stage .transfer z.status] 1)
  else
    let c := U.cpB w.tick
    let n := if c.1 = 0 then 0x2000000 else c.2
    (c.1, w.loaded (Store.write w.mem target (Store.read w.mem kernelCompLoadAddr n))
      [.stage .transfer c.1] 1)

/-- `do_bootk`. -/
def doBootk (U : UBoot) (w : World) : ℤ × World :=
  let boot := w.stAbility.stBoot
  let slot := clampSlot boot.iPartType
  let fail (w : World) : ℤ × World := (-1, (obcSlotSwitch U w slot).2)
  let r := obcBlkReadPartByName U w (kernelName slot) kernelCompLoadAddr
  let w := r.2.advance [] [.stage .kernelLoad r.1] 0
  if r.1 ≠ 0 then fail w else
  let p := placeKernel U w boot.uiImageAddr
  if p.1 ≠ 0 then fail p.2 else
  let w := p.2
  let ret := U.booti w.tick
  let w := w.advance [] [.booti boot.uiImageAddr boot.uiFdtAddr w.mem, .stage .booti ret] 1
  if ret ≠ 0 then fail w else (0, w)

/-! ## The calls of a run -/

section Run

variable {U : UBoot} {w : World} {evs : List Call} {target x t : ℕ} {m : Store UInt8}

/-- The memory with the kernel placed. -/
def placed (U : UBoot) (t : ℕ) (m : Store UInt8) (target : ℕ) : Store UInt8 :=
  Store.write m target <|
    if m kernelCompLoadAddr = 0x1f ∧ m (kernelCompLoadAddr + 1) = 0x8b then
      (U.unzip t m kernelCompLoadAddr).out
    else Store.read m kernelCompLoadAddr (if (U.cpB t).1 = 0 then 0x2000000 else (U.cpB t).2)

/-- The kernel goes to its target and above. -/
theorem placed_of_lt (h : x < target) : placed U t m target x = m x := Store.write_of_lt h

variable (target) in
theorem placeKernel_loaded :
    (placeKernel U w target).2 =
      w.loaded (placed U w.tick w.mem target) [.stage .transfer (placeKernel U w target).1] 1 := by
  unfold placeKernel placed
  split <;> rfl

/-- What the calls of a run tell: a package verified is the slot's
kernel's, and `booti` is issued on it, with the memory the kernel's
package was read and placed in. -/
structure BootkCalls (U : UBoot) (w : World) (evs : List Call) : Prop where
  verified : ∀ part payload, .verify part payload 0 ∈ evs →
    part.name = kernelName (clampSlot w.stAbility.stBoot.iPartType)
  issued : ∀ image fdt m, .booti image fdt m ∈ evs →
    ∃ r, obcBlkReadPartByName U w (kernelName (clampSlot w.stAbility.stBoot.iPartType))
        kernelCompLoadAddr = r ∧ r.1 = 0 ∧
      fdt = w.stAbility.stBoot.uiFdtAddr ∧
      m = placed U r.2.tick r.2.mem w.stAbility.stBoot.uiImageAddr ∧
      ∃ part payload ret, part.name = kernelName (clampSlot w.stAbility.stBoot.iPartType) ∧
        evs = [.verify part payload 0, .stage .kernelLoad 0, .stage .transfer 0,
          .booti image fdt m, .stage .booti ret]

/-- **A run of `bootk`**: its stages, and a switch of the slot behind one
that failed. -/
theorem doBootk_staged :
    ∃ evs, BootkCalls U w evs ∧
      Staged U w (clampSlot w.stAbility.stBoot.iPartType) evs (doBootk U w) := by
  obtain ⟨m, cs, n, hr, -, hload⟩ := obcBlkReadPartByName_loaded (U := U) (w := w)
    (kernelName (clampSlot w.stAbility.stBoot.iPartType)) kernelCompLoadAddr
  have hread : Calls w (w.loaded m cs n) cs := calls_loaded
  simp only [doBootk, hr]
  rcases hload with ⟨hret, hcs⟩ | ⟨hret, i, payload, hfind, rfl⟩
  · -- the kernel is not read
    rw [hret, if_pos (by decide)]
    refine ⟨_, ⟨?_, ?_⟩, _,
      hread.trans calls_advance,
      Or.inl ⟨⟨.stage .kernelLoad (-1), by simp, by simp [Call.StageFailed]⟩, rfl⟩⟩
    · intro part payload hmem
      rcases hcs with rfl | ⟨part', payload', ret, hne, rfl⟩
      · simp at hmem
      · simp only [List.mem_append, List.mem_singleton, Call.verify.injEq, reduceCtorEq,
          or_false] at hmem
        exact absurd hmem.2.2.symm hne
    · intro image fdt m' hmem
      rcases hcs with rfl | ⟨part', payload', ret, hne, rfl⟩ <;> simp at hmem
  rw [hret, if_neg (by decide)]
  have hname : (w.parts U i).name = kernelName (clampSlot w.stAbility.stBoot.iPartType) :=
    (obcBlkFindPartByNameEx_some hfind).2
  obtain ⟨w₁, hw₁⟩ : ∃ w₁, (w.loaded m [.verify (w.parts U i) payload 0] n).advance []
    [.stage .kernelLoad 0] 0 = w₁ := ⟨_, rfl⟩
  have hloaded : Calls w w₁ ([.verify (w.parts U i) payload 0] ++ [.stage .kernelLoad 0]) :=
    hw₁ ▸ hread.trans calls_advance
  have hplace := placeKernel_loaded (U := U) (w := w₁) w.stAbility.stBoot.uiImageAddr
  obtain ⟨m', hm'⟩ : ∃ m', placed U w₁.tick w₁.mem w.stAbility.stBoot.uiImageAddr = m' := ⟨_, rfl⟩
  obtain ⟨ret, hret'⟩ : ∃ ret, (placeKernel U w₁ w.stAbility.stBoot.uiImageAddr).1 = ret := ⟨_, rfl⟩
  rw [hret', hm'] at hplace
  have hplaced : Calls w (w₁.loaded m' [.stage .transfer ret] 1) _ := hloaded.trans calls_loaded
  simp only [hw₁, hplace, hret']
  by_cases hfail : ret = 0
  swap
  · -- the kernel is not placed
    rw [if_pos hfail]
    refine ⟨_, ⟨?_, ?_⟩, _, hplaced,
      Or.inl ⟨⟨.stage .transfer ret, by simp, hfail⟩, rfl⟩⟩
    · intro part payload' hmem
      simp only [List.mem_append, List.mem_singleton, Call.verify.injEq, reduceCtorEq,
        or_false] at hmem
      rw [hmem.1, hname]
    · intro image fdt m'' hmem
      simp at hmem
  rw [if_neg (not_not.2 hfail), hfail]
  rw [hfail] at hplaced
  have hcalls : BootkCalls U w ([.verify (w.parts U i) payload 0] ++ [.stage .kernelLoad 0] ++
      [.stage .transfer 0] ++
      [.booti w.stAbility.stBoot.uiImageAddr w.stAbility.stBoot.uiFdtAddr m',
        .stage .booti (U.booti (w₁.loaded m' [.stage .transfer 0] 1).tick)]) := by
    constructor
    · intro part payload' hmem
      simp only [List.mem_append, List.mem_cons, Call.verify.injEq, reduceCtorEq,
        List.not_mem_nil, or_false] at hmem
      rw [hmem.1, hname]
    · intro image fdt m'' hmem
      simp only [List.mem_append, List.mem_cons, Call.booti.injEq, reduceCtorEq, List.not_mem_nil,
        or_false, false_or] at hmem
      obtain ⟨rfl, rfl, rfl⟩ := hmem
      refine ⟨_, rfl, hret, rfl, ?_, _, payload, _, hname, rfl⟩
      rw [hr, ← hm', ← hw₁]
      rfl
  by_cases hbooti : U.booti (w₁.loaded m' [.stage .transfer 0] 1).tick = 0
  · rw [if_neg (not_not.2 hbooti)]
    refine ⟨_, hcalls, _, hplaced.trans calls_advance, Or.inr ⟨?_, rfl⟩⟩
    intro c hc
    simp only [List.mem_append, List.mem_cons, List.not_mem_nil, or_false] at hc
    rcases hc with ((rfl | rfl) | rfl) | rfl | rfl
    · exact id
    · exact not_not.2 rfl
    · exact not_not.2 rfl
    · exact id
    · exact not_not.2 hbooti
  · rw [if_pos hbooti]
    exact ⟨_, hcalls, _, hplaced.trans calls_advance,
      Or.inl ⟨⟨.stage .booti _, by simp, hbooti⟩, rfl⟩⟩

end Run

end Boot

end ObcSdk
