import ObcSdk.Boot.Bench
/-!
# From the signer to the boot

What the signer packs, the writer stores and the reader takes back: four
pieces written apart, which have to agree on where the header's fields
are, which bytes the CRC covers, how a length is rounded to blocks and
when a package is too large. A package stored whole is what the reader
accepts (`HoldsPackage.of_agree`), and the signer's packages are stored
whole.
-/

namespace ObcSdk

namespace Boot

open Tools

variable {U : UBoot} {w : World} {d : BlkDesc} {fileaddr : ℕ} {fileSize : Int32}
  {head : ObcPackHead} {mem disk : Store UInt8} {base : ℕ} {size : UInt32}
  {part : BoardAbilityBlkParts} {pName : List Char} {i : ℕ}

/-! ## The signer's packages -/

section Signed

variable {binPath outputPath data : List UInt8} {flag : UInt16}

/-- The register of `crc16` is the reflected one with polynomial
`0xA001`. -/
def UBoot.Crc16Reflected (U : UBoot) : Prop :=
  ∀ bs, U.crc16 0xFFFF bs = UInt16.ofBitVec (Crc.run 0xA001#16 0xFFFF#16 bs)

theorem obcCalculateCrc16_eq (hcrc : U.Crc16Reflected) (bs : List UInt8) :
    obcCalculateCrc16 U bs = calculateCrc16 bs := by
  rw [obcCalculateCrc16, hcrc, ← calculateCrc16_eq]

/-- Behind the header lies the payload. -/
theorem read_payload_of_bytes
    (hmem : Store.read mem fileaddr (512 + data.length) = head.bytes ++ data) :
    Store.read mem (fileaddr + obcHeaderSize) data.length = data := by
  have hlen : (head.bytes ++ data).length = obcHeaderSize + data.length := by
    rw [List.length_append, ObcPackHead.length_bytes]
  rw [read_behind_head (hlen.symm ▸ hmem) hlen, List.drop_left' (ObcPackHead.length_bytes _)]

/-- **What the signer packs, the writer takes for a package.** -/
theorem packed_of_packHead (hcrc : U.Crc16Reflected) (hne : data ≠ [])
    (hlen : data.length + 512 < 2 ^ 31) (hflag : flag ≤ 1)
    (hmem : Store.read mem fileaddr (512 + data.length) =
      (packHead binPath outputPath data flag).bytes ++ data) :
    Packed U mem fileaddr (Int32.ofNat (512 + data.length))
      (packHead binPath outputPath data flag) := by
  have hhead : Store.read mem fileaddr obcHeaderSize =
      (packHead binPath outputPath data flag).bytes := by
    rw [← Store.take_read (show obcHeaderSize ≤ 512 + data.length from Nat.le_add_right ..), hmem,
      List.take_left' (ObcPackHead.length_bytes _)]
  have hsize : (packHead binPath outputPath data flag).fileSize.toNat = data.length :=
    UInt32.toNat_ofNat_of_lt' (show data.length < 2 ^ 32 by omega)
  have hpos : 0 < data.length := List.length_pos_of_ne_nil hne
  obtain ⟨hlong, hfile⟩ := packed_size (by omega) hsize
  refine ⟨ObcPackHead.ofStore_of_bytes hhead, by rfl, hlong, ?_, hfile, hflag, ?_⟩
  · intro h0
    rw [h0] at hsize
    exact absurd hsize.symm (Nat.pos_iff_ne_zero.1 hpos)
  · rw [hsize, read_payload_of_bytes hmem, obcCalculateCrc16_eq hcrc]
    rfl

/-- **Sign, update, boot.** A signed package goes into a partition it fits
and into no other, and a boot from the same medium gets the signed bytes
back, at whatever address it loads them to. -/
theorem signed_package_round_trip {fault : PackStep → Bool} {pkg : List UInt8}
    (hcrc : U.Crc16Reflected) (hio : ∀ t start count, U.fault t start count = none)
    (hne : data ≠ []) (hlen : data.length + 512 ≤ 2 ^ 31 - 1)
    (hpack : packFunc fault binPath outputPath data 1 = (0, some pkg))
    (hw : w.On d)
    (hlabels : ∀ j k : ℕ, (j : ℤ) < w.partCount → (k : ℤ) < w.partCount →
      (w.parts U j).name = (w.parts U k).name → j = k)
    (hi : (i : ℤ) < w.partCount)
    (hmem : Store.read w.mem fileaddr pkg.length = pkg) :
    ((obcBlkWritePartByName U w (w.parts U i).name fileaddr (Int32.ofNat pkg.length)).1 = 0 ↔
      data.length + 512 ≤ (w.parts U i).size.toNat) ∧
    ((obcBlkWritePartByName U w (w.parts U i).name fileaddr (Int32.ofNat pkg.length)).1 = 0 →
      ∀ (w' : World) (addr : ℕ), w'.On d → w'.parts U = w.parts U → w'.partCount = w.partCount →
        w'.disk = (obcBlkWritePartByName U w (w.parts U i).name fileaddr
          (Int32.ofNat pkg.length)).2.disk →
        (obcBlkReadPartByName U w' (w.parts U i).name addr).1 = 0 ∧
        Store.read (obcBlkReadPartByName U w' (w.parts U i).name addr).2.mem addr data.length =
          data) := by
  obtain ⟨-, rfl⟩ := packFunc_eq_zero hpack
  have hpkglen : ((packHead binPath outputPath data 1).bytes ++ data).length =
      512 + data.length := by
    rw [List.length_append, ObcPackHead.length_bytes]
  rw [hpkglen] at hmem ⊢
  have hpk := packed_of_packHead (U := U) hcrc hne (by omega) (by decide) hmem
  have hsize : (Int32.ofNat (512 + data.length)).toUInt32.toNat = 512 + data.length := by
    rw [Int32.toUInt32_ofNat', UInt32.toNat_ofNat_of_lt' (show 512 + data.length < 2 ^ 32 by omega)]
  have hpayload : (packHead binPath outputPath data 1).fileSize.toNat = data.length := by
    have := hpk.fileSize_add
    omega
  have hfind : obcBlkFindPartByName U w (w.parts U i).name = some i :=
    obcBlkFindPartByNameEx_eq hi rfl fun k hk hname => hlabels k i hk hi hname
  have hprep := obcPrepareWriteImage_of_packed hpk rfl
  -- the plan is there exactly when the package fits
  have hplan : writePartPlan U w d (w.parts U i).name fileaddr
      (Int32.ofNat (512 + data.length)) = if data.length + 512 ≤ (w.parts U i).size.toNat then
        some (partBlocks d 512 (w.parts U i) (512 + data.length) (Store.tail w.mem fileaddr))
      else none := by
    rw [writePartPlan_eq hfind hprep, hw.rdSize, hsize, Nat.add_comm 512]
  by_cases hfit : data.length + 512 ≤ (w.parts U i).size.toNat
  swap
  · have hrej := obcBlkWritePartByName_planned (U := U) (w.parts U i).name fileaddr
      (Int32.ofNat (512 + data.length)) hw.dev
    rw [hplan, if_neg hfit] at hrej
    rw [show obcBlkWritePartByName U w _ _ _ = (-1, w) from hrej]
    exact ⟨⟨fun h => absurd h (by simp), fun h => absurd h hfit⟩, fun h => absurd h (by simp)⟩
  obtain ⟨hret, hdisk⟩ := obcBlkWritePartByName_of_plan (U := U) (hio _) hw.dev
    (hplan.trans (if_pos hfit))
  refine ⟨⟨fun _ => hfit, fun _ => hret⟩, ?_⟩
  intro _ w' addr hw' hparts hcount hdisk'
  have hfind' : obcBlkFindPartByName U w' (w.parts U i).name = some i := by
    rw [obcBlkFindPartByName, hparts, hcount]
    exact hfind
  have hholds : HoldsPackage U (w'.disk d.devnum) (w'.parts U i).base (w'.parts U i).size
      (Store.read w.mem (fileaddr + obcHeaderSize) data.length) := by
    rw [← hpayload]
    refine HoldsPackage.of_agree hpk ?_ (by rw [hsize, hparts]; omega)
    intro k hk
    rw [hdisk', hdisk, hparts]
    rw [hsize] at hk
    exact replay_partBlocks_apply _ _ hw.blksz hk
  have hread := obcBlkReadPartByName_content addr hw' hfind' hholds (hio _ _ _)
    (hio _ _ _)
  rwa [Store.length_read, read_payload_of_bytes hmem] at hread

/-- It goes into the kernel's partition and comes back. -/
theorem signed_byte_round_trip :
    (obcBlkWritePartByName Bench.uboot Bench.signedWorld
      (Bench.signedWorld.parts Bench.uboot 7).name updatexLoadeAddr
      (Int32.ofNat Bench.signed.length)).1 = 0 ∧
    (obcBlkReadPartByName Bench.uboot (obcBlkWritePartByName Bench.uboot Bench.signedWorld
      (Bench.signedWorld.parts Bench.uboot 7).name updatexLoadeAddr
      (Int32.ofNat Bench.signed.length)).2
      (Bench.signedWorld.parts Bench.uboot 7).name 0x90000000).1 = 0 ∧
    Store.read (obcBlkReadPartByName Bench.uboot (obcBlkWritePartByName Bench.uboot
      Bench.signedWorld (Bench.signedWorld.parts Bench.uboot 7).name updatexLoadeAddr
      (Int32.ofNat Bench.signed.length)).2
      (Bench.signedWorld.parts Bench.uboot 7).name 0x90000000).2.mem 0x90000000 1 = [0xAB] := by
  have hpack : packFunc (fun _ => false) [] [] [0xAB] 1 = (0, some Bench.signed) := rfl
  have h := signed_package_round_trip (U := Bench.uboot) (i := 7) (fun _ => rfl)
    (fun _ _ _ => rfl) (by simp) (by simp) hpack Bench.signedWorld_on Bench.name_inj (by decide)
    Store.read_write_self
  have h0 := h.1.2 (by decide +kernel)
  have hkeep := obcBlkWritePartByName_keeps (U := Bench.uboot)
    (Bench.signedWorld.parts Bench.uboot 7).name updatexLoadeAddr
    (Int32.ofNat Bench.signed.length) Bench.signedWorld_on
  exact ⟨h0, h.2 h0 _ _ hkeep.1 hkeep.2.1 hkeep.2.2 rfl⟩

end Signed

end Boot

end ObcSdk
