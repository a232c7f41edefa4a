import ObcSdk.Properties.RoundTrip
/-!
# The whole kernel

What is in memory where `bootk` tells `booti` to start. A compressed
kernel is unpacked by U-Boot. An uncompressed one is copied with a
length of its own, 32 MiB, whatever length was verified, so a longer one
is started without its end.
-/

namespace ObcSdk

namespace Boot

open Tools

/-! ## What is to be there -/

/-- The length `do_bootk` copies an uncompressed kernel with. -/
abbrev kernelCopyLength : ℕ := 0x2000000

/-- A payload with gzip's magic. -/
def IsGzip (payload : List UInt8) : Prop := payload.take 2 = [0x1f, 0x8b]

instance (payload : List UInt8) : Decidable (IsGzip payload) :=
  inferInstanceAs (Decidable (_ = _))

/-- `unzip` is right when it says so: what it stored is an image the
compressed bytes stand for, by `image`. -/
def UBoot.Unzips (U : UBoot) (image : List UInt8 → List UInt8 → Prop) : Prop :=
  ∀ (t : ℕ) (m : Store UInt8) (a : ℕ) (payload : List UInt8), IsGzip payload →
    Store.read m a payload.length = payload → (U.unzip t m a).status = 0 →
    image payload (U.unzip t m a).out

/-- The complete kernel of a package is at an address: the payload, or
the image a compressed one stands for. -/
def KernelAt (image : List UInt8 → List UInt8 → Prop) (m : Store UInt8) (target : ℕ)
    (payload : List UInt8) : Prop :=
  ∃ kernel, Store.read m target kernel.length = kernel ∧
    if IsGzip payload then image payload kernel else kernel = payload

/-- `bootk` hands over the whole kernel: where it issues `booti` the
kernel is complete at the address started, and where it does not it
fails and switches the slot. -/
structure HandsOverWhole (U : UBoot) (image : List UInt8 → List UInt8 → Prop) (w : World)
    (payload : List UInt8) : Prop where
  booted : ∀ target fdt m, Call.booti target fdt m ∈ w.since (doBootk U w).2 →
    target = w.stAbility.stBoot.uiImageAddr ∧ KernelAt image m target payload
  refused : (∀ target fdt m, Call.booti target fdt m ∉ w.since (doBootk U w).2) →
    ∃ w', doBootk U w =
      (-1, (obcSlotSwitch U w' (clampSlot w.stAbility.stBoot.iPartType)).2)

/-- The world with other bytes in memory. -/
def World.withMem (w : World) (m : Store UInt8) : World := { w with mem := m }

section Whole

variable {U : UBoot} {w : World} {d : BlkDesc} {image : List UInt8 → List UInt8 → Prop}
  {payload : List UInt8} {disk m : Store UInt8} {base i : ℕ} {size : UInt32}

/-! ## The kernel staged -/

/-- The magic's second byte. -/
theorem HoldsPackage.second (hp : HoldsPackage U disk base size payload) :
    disk (base + 1) = 0x42 := by
  have := congrArg (fun l => l[1]?) hp.magic
  simpa [ObcPackHead.ofStore, obcMagic] using this

/-- The first two bytes at the load address are the payload's. Of a
payload of one byte the second is the header's, which is not gzip's. -/
theorem isGzip_iff (hp : HoldsPackage U disk base size payload) :
    IsGzip payload ↔
      staged m disk kernelCompLoadAddr base payload kernelCompLoadAddr = 0x1f ∧
        staged m disk kernelCompLoadAddr base payload (kernelCompLoadAddr + 1) = 0x8b := by
  have hbyte : ∀ i (h : i < payload.length),
      staged m disk kernelCompLoadAddr base payload (kernelCompLoadAddr + i) = payload[i] := by
    intro i h
    rw [staged, Store.write_add h]
  unfold IsGzip
  rcases payload with _ | ⟨x, _ | ⟨y, rest⟩⟩
  · exact absurd rfl hp.nonempty
  · have hstale : staged m disk kernelCompLoadAddr base [x] (kernelCompLoadAddr + 1) = 0x42 := by
      have hlen : 1 < (Store.read disk base 512).length := by simp
      rw [staged, Store.write_of_ge (by simp), Store.write_of_lt (by simp),
        Store.write_add hlen, Store.getElem_read, hp.second]
    rw [hstale]
    simp
  · have h0 := hbyte 0 (by simp)
    have h1 := hbyte 1 (by simp)
    rw [Nat.add_zero] at h0
    rw [h0, h1]
    simp

/-! ## `do_bootk` behind the read -/

variable (U w m) in
/-- The world in which the kernel is placed, its package read into the
memory `m`. -/
def kernelLoaded (part : BoardAbilityBlkParts) (payload : List UInt8) : World :=
  (w.loaded m [.verify part payload 0] 2).advance [] [.stage .kernelLoad 0] 0

/-- **What a run does with a package read**: the kernel is placed, and it
is started or, where that fails, the slot switched. -/
theorem doBootk_of_read {part : BoardAbilityBlkParts}
    (h : obcBlkReadPartByName U w (kernelName (clampSlot w.stAbility.stBoot.iPartType))
      kernelCompLoadAddr = (0, w.loaded m [.verify part payload 0] 2)) :
    doBootk U w =
      let slot := clampSlot w.stAbility.stBoot.iPartType
      let boot := w.stAbility.stBoot
      let p := placeKernel U (kernelLoaded w m part payload) boot.uiImageAddr
      let ret := U.booti p.2.tick
      let w₂ := p.2.advance []
        [.booti boot.uiImageAddr boot.uiFdtAddr p.2.mem, .stage .booti ret] 1
      if p.1 ≠ 0 then (-1, (obcSlotSwitch U p.2 slot).2)
      else if ret ≠ 0 then (-1, (obcSlotSwitch U w₂ slot).2) else (0, w₂) := by
  simp only [doBootk, h]
  rfl

/-- The calls of a switch are not what matters here. -/
theorem mem_since_switch {w' : World} (evs : List Call) {slot : UInt8} {c : Call}
    (htrace : w'.trace = w.trace ++ evs) (hc : ¬ c.Minor) :
    c ∈ w.since (obcSlotSwitch U w' slot).2 ↔ c ∈ evs := by
  obtain ⟨l, cs, n, h, hminor⟩ := obcSlotWrite_minor (U := U) (w := w') (nextSlot slot)
  have hsince : w.since (obcSlotSwitch U w' slot).2 = evs ++ cs := by
    refine World.since_of_trace ?_
    rw [obcSlotSwitch, h, World.advance_trace, htrace, List.append_assoc]
  rw [hsince, List.mem_append]
  exact or_iff_left fun hmem => hc (hminor c hmem)

/-- **The whole kernel is handed over** when it is there once placed. -/
theorem handsOverWhole_iff_placed {part : BoardAbilityBlkParts}
    (h : obcBlkReadPartByName U w (kernelName (clampSlot w.stAbility.stBoot.iPartType))
      kernelCompLoadAddr = (0, w.loaded m [.verify part payload 0] 2)) :
    HandsOverWhole U image w payload ↔
      ((placeKernel U (kernelLoaded w m part payload) w.stAbility.stBoot.uiImageAddr).1 = 0 →
        KernelAt image (placed U (w.tick + 2) m w.stAbility.stBoot.uiImageAddr)
          w.stAbility.stBoot.uiImageAddr payload) := by
  set target := w.stAbility.stBoot.uiImageAddr with htarget
  have hplaced := placeKernel_loaded (U := U) (w := kernelLoaded w m part payload) target
  have htick : (kernelLoaded w m part payload).tick = w.tick + 2 := rfl
  have hmem : (kernelLoaded w m part payload).mem = m := rfl
  rw [htick, hmem] at hplaced
  obtain ⟨m', hm'⟩ : ∃ m', placed U (w.tick + 2) m target = m' := ⟨_, rfl⟩
  obtain ⟨st, hst⟩ : ∃ st, (placeKernel U (kernelLoaded w m part payload) target).1 = st := ⟨_, rfl⟩
  have hrun := doBootk_of_read h
  simp only [← htarget, hst, hplaced, hm', World.loaded_mem] at hrun
  rw [hst, hm']
  by_cases h0 : st = 0
  swap
  · -- placing the kernel failed
    rw [if_pos h0] at hrun
    refine ⟨fun _ hz => absurd hz h0, fun _ => ⟨?_, fun _ => ⟨_, hrun⟩⟩⟩
    intro target' fdt mem hcall
    rw [hrun, mem_since_switch [.verify part payload 0, .stage .kernelLoad 0,
      .stage .transfer st] (by simp [kernelLoaded]) (by simp [Call.Minor])] at hcall
    simp at hcall
  rw [if_neg (not_not.2 h0)] at hrun
  have hcalls : ∀ target' fdt mem, Call.booti target' fdt mem ∈ w.since (doBootk U w).2 ↔
      target' = target ∧ fdt = w.stAbility.stBoot.uiFdtAddr ∧ mem = m' := by
    intro target' fdt mem
    obtain ⟨ret, hret⟩ : ∃ ret, U.booti ((kernelLoaded w m part payload).loaded m'
      [.stage .transfer st] 1).tick = ret := ⟨_, rfl⟩
    rw [hret] at hrun
    have htrace : (((kernelLoaded w m part payload).loaded m' [.stage .transfer st] 1).advance []
        [.booti target w.stAbility.stBoot.uiFdtAddr m', .stage .booti ret] 1).trace =
        w.trace ++ [.verify part payload 0, .stage .kernelLoad 0, .stage .transfer st,
          .booti target w.stAbility.stBoot.uiFdtAddr m', .stage .booti ret] := by
      simp [kernelLoaded]
    by_cases hr : ret = 0
    · rw [if_neg (not_not.2 hr)] at hrun
      rw [hrun, World.since_of_trace htrace]
      simp
    · rw [if_pos hr] at hrun
      rw [hrun, mem_since_switch _ htrace (by simp [Call.Minor])]
      simp
  constructor
  · intro hwhole _
    exact (hwhole.booted _ _ _ ((hcalls _ _ _).2 ⟨rfl, rfl, rfl⟩)).2
  · intro hkernel
    refine ⟨?_, ?_⟩
    · intro target' fdt mem hcall
      obtain ⟨rfl, -, rfl⟩ := (hcalls _ _ _).1 hcall
      exact ⟨rfl, hkernel h0⟩
    · intro hno
      exact absurd ((hcalls _ _ _).2 ⟨rfl, rfl, rfl⟩) (hno _ _ _)


/-- The status with which a kernel is placed. -/
theorem placeKernel_fst {part : BoardAbilityBlkParts} {target : ℕ} :
    (placeKernel U (kernelLoaded w m part payload) target).1 =
      if m kernelCompLoadAddr = 0x1f ∧ m (kernelCompLoadAddr + 1) = 0x8b then
        (U.unzip (w.tick + 2) m kernelCompLoadAddr).status
      else (U.cpB (w.tick + 2)).1 := by
  unfold placeKernel
  split
  · rename_i h
    exact (if_pos h).symm
  · rename_i h
    exact (if_neg h).symm

/-- A compressed kernel that was unpacked is there. -/
theorem kernelAt_placed_gzip {t target : ℕ} (hunzip : U.Unzips image) (hgz : IsGzip payload)
    (hpayload : Store.read m kernelCompLoadAddr payload.length = payload)
    (hmagic : m kernelCompLoadAddr = 0x1f ∧ m (kernelCompLoadAddr + 1) = 0x8b)
    (hst : (U.unzip t m kernelCompLoadAddr).status = 0) :
    KernelAt image (placed U t m target) target payload := by
  refine ⟨(U.unzip t m kernelCompLoadAddr).out, ?_, ?_⟩
  · rw [placed, if_pos hmagic, Store.read_write_self]
  · rw [if_pos hgz]
    exact hunzip t m _ payload hgz hpayload hst

theorem placed_copy {t target : ℕ}
    (hmagic : ¬ (m kernelCompLoadAddr = 0x1f ∧ m (kernelCompLoadAddr + 1) = 0x8b))
    (hst : (U.cpB t).1 = 0) :
    placed U t m target =
      Store.write m target (Store.read m kernelCompLoadAddr kernelCopyLength) := by
  rw [placed, if_neg hmagic, if_pos hst]

/-- A kernel no longer than the copy is there. -/
theorem kernelAt_copy {target : ℕ} (hgz : ¬ IsGzip payload)
    (hpayload : Store.read m kernelCompLoadAddr payload.length = payload)
    (hlen : payload.length ≤ kernelCopyLength) :
    KernelAt image (Store.write m target (Store.read m kernelCompLoadAddr kernelCopyLength)) target
      payload := by
  refine ⟨payload, ?_, by rw [if_neg hgz]⟩
  rw [Store.read_write (by rw [Store.length_read]; exact hlen), Store.take_read hlen, hpayload]

/-- Of a longer one the byte after the copy is what was there before. -/
theorem byte_of_kernelAt_copy {target : ℕ} (hgz : ¬ IsGzip payload)
    (h : KernelAt image (Store.write m target (Store.read m kernelCompLoadAddr kernelCopyLength))
      target payload) (hlen : kernelCopyLength < payload.length) :
    m (target + kernelCopyLength) = payload[kernelCopyLength] := by
  obtain ⟨kernel, hread, hkernel⟩ := h
  rw [if_neg hgz] at hkernel
  subst hkernel
  have hbyte := congrArg (fun l => l[kernelCopyLength]?) hread
  rw [Store.getElem?_read hlen, Store.write_of_ge (by rw [Store.length_read]),
    List.getElem?_eq_getElem hlen] at hbyte
  exact Option.some.inj hbyte

variable (image m) in
/-- With a package that the reader accepts in the slot's partition, all
hangs on the kernel's place. -/
theorem handsOverWhole_withMem (hw : w.On d)
    (hfind : obcBlkFindPartByName U w (kernelName (clampSlot w.stAbility.stBoot.iPartType)) =
      some i)
    (hp : HoldsPackage U (w.disk d.devnum) (w.parts U i).base (w.parts U i).size payload)
    (hf₁ : U.fault w.tick ((w.parts U i).addr.toNat / 512) 1 = none)
    (hf₂ : U.fault (w.tick + 1) ((w.parts U i).addr.toNat / 512 + 1)
      (blockCount payload.length 512) = none) :
    ∃ m', m' = staged m (w.disk d.devnum) kernelCompLoadAddr (w.parts U i).base payload ∧
      (HandsOverWhole U image (w.withMem m) payload ↔
        ((if IsGzip payload then (U.unzip (w.tick + 2) m' kernelCompLoadAddr).status
          else (U.cpB (w.tick + 2)).1) = 0 →
        KernelAt image (placed U (w.tick + 2) m' w.stAbility.stBoot.uiImageAddr)
          w.stAbility.stBoot.uiImageAddr payload)) := by
  refine ⟨_, rfl, ?_⟩
  have hw' : (w.withMem m).On d := ⟨hw.dev, hw.blksz, hw.rdSize⟩
  have hok : (obcBlkReadPartByName U (w.withMem m)
      (kernelName (clampSlot w.stAbility.stBoot.iPartType)) kernelCompLoadAddr).1 = 0 :=
    obcBlkReadPartByName_of_holds hw' hfind hp hf₁ hf₂
  -- the read finds this package and no other
  obtain ⟨j, payload', hfind', hp', -, -, hr⟩ := obcBlkReadPartByName_success hw' hok
  obtain rfl : i = j := Option.some.inj (hfind.symm.trans hfind')
  obtain rfl := hp.eq hp'
  have hread : obcBlkReadPartByName U (w.withMem m)
      (kernelName (clampSlot w.stAbility.stBoot.iPartType)) kernelCompLoadAddr =
      (0, (w.withMem m).loaded
        (staged m (w.disk d.devnum) kernelCompLoadAddr (w.parts U i).base payload)
        [.verify (w.parts U i) payload 0] 2) := hr
  rw [handsOverWhole_iff_placed hread, placeKernel_fst]
  simp only [isGzip_iff (m := m) hp]
  rfl

/-- Where a kernel longer than the copy is handed over whole, its byte
after the copy was in memory before. -/
theorem byte_of_handsOverWhole (hw : w.On d)
    (himage : w.stAbility.stBoot.uiImageAddr = configAm62xHexKernelAddr)
    (hfind : obcBlkFindPartByName U w (kernelName (clampSlot w.stAbility.stBoot.iPartType)) =
      some i)
    (hp : HoldsPackage U (w.disk d.devnum) (w.parts U i).base (w.parts U i).size payload)
    (hf₁ : U.fault w.tick ((w.parts U i).addr.toNat / 512) 1 = none)
    (hf₂ : U.fault (w.tick + 1) ((w.parts U i).addr.toNat / 512 + 1)
      (blockCount payload.length 512) = none)
    (hgz : ¬ IsGzip payload) (hcopy : (U.cpB (w.tick + 2)).1 = 0)
    (hlen : kernelCopyLength < payload.length)
    (h : HandsOverWhole U image (w.withMem m) payload) :
    m (configAm62xHexKernelAddr + kernelCopyLength) = payload[kernelCopyLength] := by
  obtain ⟨m', hm', hiff⟩ := handsOverWhole_withMem image m hw hfind hp hf₁ hf₂
  rw [if_neg hgz, himage] at hiff
  have hkernel := hiff.1 h hcopy
  rw [placed_copy (fun hb => hgz ((isGzip_iff hp).2 (hm' ▸ hb))) hcopy] at hkernel
  have hbyte := byte_of_kernelAt_copy hgz hkernel hlen
  rwa [hm', staged_of_lt (by decide)] at hbyte

/-- **`bootk` hands over the whole kernel** of a package it read, whatever
is in memory, exactly when the kernel is compressed or is no longer than
what is copied, or the copy fails. -/
theorem handsOverWhole_iff (hunzip : U.Unzips image) (hw : w.On d)
    (himage : w.stAbility.stBoot.uiImageAddr = configAm62xHexKernelAddr)
    (hfind : obcBlkFindPartByName U w (kernelName (clampSlot w.stAbility.stBoot.iPartType)) =
      some i)
    (hp : HoldsPackage U (w.disk d.devnum) (w.parts U i).base (w.parts U i).size payload)
    (hf₁ : U.fault w.tick ((w.parts U i).addr.toNat / 512) 1 = none)
    (hf₂ : U.fault (w.tick + 1) ((w.parts U i).addr.toNat / 512 + 1)
      (blockCount payload.length 512) = none) :
    (∀ m, HandsOverWhole U image (w.withMem m) payload) ↔
      IsGzip payload ∨ payload.length ≤ kernelCopyLength ∨ (U.cpB (w.tick + 2)).1 ≠ 0 := by
  constructor
  · intro h
    by_contra hcon
    simp only [not_or, not_not] at hcon
    obtain ⟨hgz, hlen, hcopy⟩ := hcon
    have hlen : kernelCopyLength < payload.length := Nat.lt_of_not_le hlen
    -- memory in which the byte after the copy is not the kernel's
    have hbyte := byte_of_handsOverWhole hw himage hfind hp hf₁ hf₂ hgz hcopy hlen
      (h fun _ => payload[kernelCopyLength] + 1)
    simp at hbyte
  · intro h m
    obtain ⟨m', hm', hiff⟩ := handsOverWhole_withMem image m hw hfind hp hf₁ hf₂
    have hmagic := isGzip_iff (m := m) hp
    have hpayload : Store.read m' kernelCompLoadAddr payload.length = payload := by
      rw [hm']
      exact read_staged
    rw [← hm'] at hmagic
    rw [hiff]
    intro hst
    by_cases hgz : IsGzip payload
    · rw [if_pos hgz] at hst
      exact kernelAt_placed_gzip hunzip hgz hpayload (hmagic.1 hgz) hst
    · rw [if_neg hgz] at hst
      have hlen : payload.length ≤ kernelCopyLength :=
        (h.resolve_left hgz).resolve_right (not_not.2 hst)
      rw [placed_copy (fun hb => hgz (hmagic.2 hb)) hst]
      exact kernelAt_copy hgz hpayload hlen

/-! ## Signed kernels -/

/-- **A signed package on the medium** is one the reader accepts. -/
theorem holdsPackage_of_packHead {binPath outputPath data : List UInt8} {flag : UInt16}
    (hcrc : U.Crc16Reflected) (hne : data ≠ []) (hflag : flag ≤ 1)
    (hlen : data.length + 512 < 2 ^ 31) (hfit : data.length + 512 ≤ size.toNat)
    (hread : Store.read disk base (512 + data.length) =
      (packHead binPath outputPath data flag).bytes ++ data) :
    HoldsPackage U disk base size data := by
  have hpk := packed_of_packHead hcrc hne hlen hflag hread
  have hsize : (Int32.ofNat (512 + data.length)).toUInt32.toNat = 512 + data.length := by
    rw [Int32.toUInt32_ofNat', UInt32.toNat_ofNat_of_lt' (show 512 + data.length < 2 ^ 32 by omega)]
  have hpayload : (packHead binPath outputPath data flag).fileSize.toNat = data.length := by
    have := hpk.fileSize_add
    omega
  have hholds : HoldsPackage U disk base size (Store.read disk (base + obcHeaderSize)
      (packHead binPath outputPath data flag).fileSize.toNat) :=
    HoldsPackage.of_agree hpk (fun _ _ => rfl) (by omega)
  rwa [hpayload, read_payload_of_bytes hread] at hholds

end Whole

/-- The outside, with an `unzip` that finds nothing compressed. -/
def plainUboot : UBoot := { Bench.uboot with unzip := fun _ _ _ => ⟨1, []⟩ }

theorem plainUboot_unzips {image : List UInt8 → List UInt8 → Prop} : plainUboot.Unzips image := by
  intro _ _ _ _ _ _ h
  have hone : (1 : ℤ) = 0 := h
  cases hone

/-- The eMMC with a signed kernel of the given bytes in a partition of
64 MiB. -/
def kernelWorld (kernel : List UInt8) : World :=
  let w := Bench.world fun _ => 0
  { w with
    media := fun _ => Store.write (fun _ => 0) 0x1000000
      ((packHead [] [] kernel 0).bytes ++ kernel)
    stAbility :=
      { w.stAbility with
        stBlk :=
          { w.stAbility.stBlk with
            stPartsMmc := Vector.replicate _ (Bench.part "kernel0" 0x1000000 0x4000000)
            iPartCountMmc := 1 } } }

section Kernel

variable {kernel : List UInt8}

theorem kernelWorld_on : (kernelWorld kernel).On Bench.emmc := ⟨rfl, rfl, rfl⟩

theorem kernelWorld_find : obcBlkFindPartByName plainUboot (kernelWorld kernel)
    (kernelName (clampSlot (kernelWorld kernel).stAbility.stBoot.iPartType)) = some 0 := by
  have hname : (Bench.part "kernel0" 0x1000000 0x4000000).name = kernelName 0 := by
    decide +kernel
  exact if_pos hname

theorem kernelWorld_holds (hne : kernel ≠ []) (hlen : kernel.length + 512 ≤ 0x4000000) :
    HoldsPackage plainUboot ((kernelWorld kernel).disk Bench.emmc.devnum)
      ((kernelWorld kernel).parts plainUboot 0).base
      ((kernelWorld kernel).parts plainUboot 0).size kernel := by
  have hbytes : ((packHead [] [] kernel 0).bytes ++ kernel).length = 512 + kernel.length := by
    rw [List.length_append, ObcPackHead.length_bytes]
  have hread : Store.read ((kernelWorld kernel).disk Bench.emmc.devnum)
      ((kernelWorld kernel).parts plainUboot 0).base (512 + kernel.length) =
      (packHead [] [] kernel 0).bytes ++ kernel := by
    have hbase : (Bench.part "kernel0" 0x1000000 0x4000000).base = 0x1000000 := by decide +kernel
    have hpart : (kernelWorld kernel).parts plainUboot 0 =
      Bench.part "kernel0" 0x1000000 0x4000000 := rfl
    rw [← hbytes, hpart, hbase]
    exact Store.read_write_self
  exact holdsPackage_of_packHead (fun _ => rfl) hne (by decide) (by omega) hlen hread

end Kernel

/-- A kernel of one byte is handed over whole. -/
theorem handsOverWhole_byte : HoldsPackage plainUboot ((kernelWorld [0xAB]).disk Bench.emmc.devnum)
      ((kernelWorld [0xAB]).parts plainUboot 0).base ((kernelWorld [0xAB]).parts plainUboot 0).size
      [0xAB] ∧
    ∀ m, HandsOverWhole plainUboot (fun _ _ => False) ((kernelWorld [0xAB]).withMem m) [0xAB] :=
  ⟨kernelWorld_holds (by simp) (by simp),
    (handsOverWhole_iff plainUboot_unzips kernelWorld_on rfl kernelWorld_find
      (kernelWorld_holds (by simp) (by simp)) rfl rfl).2 (Or.inr (Or.inl (by decide)))⟩

/-- A kernel one byte longer than the copy. -/
def longKernel : List UInt8 := List.replicate (kernelCopyLength + 1) 0xAB

theorem length_longKernel : longKernel.length = kernelCopyLength + 1 := List.length_replicate

/-- **A kernel of more than 32 MiB is started without its end.** -/
theorem not_handsOverWhole_long :
    ¬ ∀ (U : UBoot) (image : List UInt8 → List UInt8 → Prop) (w : World) (d : BlkDesc)
      (payload : List UInt8) (i : ℕ), U.Unzips image → w.On d →
      w.stAbility.stBoot.uiImageAddr = configAm62xHexKernelAddr →
      obcBlkFindPartByName U w (kernelName (clampSlot w.stAbility.stBoot.iPartType)) = some i →
      HoldsPackage U (w.disk d.devnum) (w.parts U i).base (w.parts U i).size payload →
      U.fault w.tick ((w.parts U i).addr.toNat / 512) 1 = none →
      U.fault (w.tick + 1) ((w.parts U i).addr.toNat / 512 + 1)
        (blockCount payload.length 512) = none →
      HandsOverWhole U image w payload := by
  intro h
  have hlen := length_longKernel
  have hne : longKernel ≠ [] := by
    intro hnil
    rw [hnil] at hlen
    cases hlen
  have hholds := kernelWorld_holds hne (by rw [hlen]; decide)
  have hgz : ¬ IsGzip longKernel := by
    rw [IsGzip, longKernel, List.take_replicate]
    decide
  have hwhole := h plainUboot (fun _ _ => False) (kernelWorld longKernel) Bench.emmc longKernel 0
    plainUboot_unzips kernelWorld_on rfl kernelWorld_find hholds rfl rfl
  have hbyte := byte_of_handsOverWhole (m := fun _ => 0) kernelWorld_on rfl kernelWorld_find hholds
    rfl rfl hgz rfl (by rw [hlen]; exact Nat.lt_succ_self _) hwhole
  rw [List.getElem_of_eq longKernel.eq_1, List.getElem_replicate] at hbyte
  exact absurd hbyte (by decide)

end Boot

end ObcSdk
