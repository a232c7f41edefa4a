import ObcSdk.Boot.Bench
import ObcSdk.Tools.FlashTfSigned
import ObcSdk.Tools.Unsign
/-!
# Packages on the host

Three programs on the host deal in packages: the signer makes them, the
unsigner takes them apart and the flasher writes them to a card. Each has
its own idea of what a package may be.
-/

namespace ObcSdk

namespace Boot

open Tools

/-! ## Signed and unsigned -/

section Unsigned

variable {fault : PackStep → Bool} {binPath outputPath b pkg : List UInt8} {flag : UInt16}
  {argc : ℕ}

/-- What a file packed is to come to: the unsigner gives it back, and it
is of a size the tools support. -/
structure Unpacks (argc : ℕ) (b pkg : List UInt8) : Prop where
  returned : unpackUboot (fun _ => false) argc pkg = (0, some b)
  supported : b.length ≤ unpackMaxSize

variable (binPath outputPath flag) in
/-- Of a signed file the unsigner looks at nothing but the size. -/
theorem unpackUboot_packHead (hsize : b.length < 2 ^ 32) (hargc : 2 < argc) :
    unpackUboot (fun _ => false) argc ((packHead binPath outputPath b flag).bytes ++ b) =
      if b = [] ∨ unpackMaxSize < b.length then (-1, none) else (0, some b) := by
  have hfile : (packHead binPath outputPath b flag).fileSize.toNat = b.length :=
    UInt32.toNat_ofNat_of_lt' hsize
  rw [unpackUboot_bytes (by rfl) hfile (by omega)]
  have hcrc : calculateCrc16 b = (packHead binPath outputPath b flag).crc16 := rfl
  simp only [hcrc, ne_eq, not_true_eq_false, Bool.false_eq_true, or_false, false_or, if_false]

/-- **The unsigner returns what the signer packed** exactly where there is
something and it is of at most 256 MB. -/
theorem unpacks_iff (hargc : 2 < argc)
    (hpack : packFunc fault binPath outputPath b flag = (0, some pkg)) :
    Unpacks argc b pkg ↔ 1 ≤ b.length ∧ b.length ≤ unpackMaxSize := by
  obtain ⟨hsize, rfl⟩ := packFunc_eq_zero hpack
  have hrun := unpackUboot_packHead binPath outputPath flag hsize hargc
  constructor
  · rintro ⟨hret, hsupp⟩
    refine ⟨?_, hsupp⟩
    by_contra hzero
    have hnil : b = [] := List.length_eq_zero_iff.1 (by omega)
    rw [hrun, if_pos (Or.inl hnil)] at hret
    cases hret
  · rintro ⟨hpos, hsupp⟩
    have hne : b ≠ [] := List.ne_nil_of_length_pos hpos
    exact ⟨by rw [hrun, if_neg (not_or.2 ⟨hne, Nat.not_lt.2 hsupp⟩)], hsupp⟩

/-- A byte comes back. -/
theorem unpacks_byte :
    Unpacks 3 [0xAB] ((packHead [] [] [0xAB] 0).bytes ++ [0xAB]) := by
  have hpack : packFunc (fun _ => false) [] [] [0xAB] 0 =
    (0, some ((packHead [] [] [0xAB] 0).bytes ++ [0xAB])) := rfl
  exact (unpacks_iff (by decide) hpack).2 ⟨by decide, by decide⟩

/-- **The signer packs what the unsigner refuses**: an empty file, and one
of a byte more than 256 MB. -/
theorem not_unpacks :
    (¬ ∀ (fault : PackStep → Bool) (binPath outputPath b pkg : List UInt8) (flag : UInt16),
      flag ≤ 1 → packFunc fault binPath outputPath b flag = (0, some pkg) → Unpacks 3 b pkg) ∧
    ∃ b pkg : List UInt8, packFunc (fun _ => false) [] [] b 0 = (0, some pkg) ∧
      unpackMaxSize < b.length ∧ ¬ Unpacks 3 b pkg := by
  constructor
  · intro h
    have hret := (h (fun _ => false) [] [] [] _ 0 (by decide) rfl).returned
    rw [unpackUboot_packHead _ _ _ (by decide) (by decide), if_pos (Or.inl rfl)] at hret
    cases hret
  · have hlen : (List.replicate 0x10000001 (0 : UInt8)).length = 0x10000001 :=
      List.length_replicate
    generalize List.replicate 0x10000001 (0 : UInt8) = b at hlen
    have hlong : unpackMaxSize < b.length := by
      rw [hlen]
      decide
    refine ⟨b, (packHead [] [] b 0).bytes ++ b, ?_, hlong, fun h => ?_⟩
    · have hfits : ¬ 0xFFFFFFFF < b.length := by omega
      simp [packFunc, hfits]
    · exact absurd h.supported (Nat.not_le.2 hlong)

end Unsigned

/-! ## Flashed and updated -/

section Flashed

variable {U : UBoot} {m : Store UInt8} {fileaddr h v : ℕ} {f : List UInt8} {z : ℤ}

/-- The writer takes a file of the flasher's as the flasher does: the
header kept or not, as many bytes, and the same. -/
def TakenAlike (U : UBoot) (m : Store UInt8) (fileaddr : ℕ) (f : List UInt8) (h v : ℕ)
    (z : ℤ) : Prop :=
  ∃ image, obcPrepareWriteImage U m fileaddr (Int32.ofNat f.length) = some image ∧
    image.headWriteFlag.toNat = h ∧ image.writeSize.toNat = v ∧
    writeOne (some f) h z = some (Store.read m image.writeData image.writeSize.toNat)

/-- A file in memory has its header there. -/
theorem ofStore_eq_headOf (hmem : Store.read m fileaddr f.length = f)
    (hlong : obcHeaderSize ≤ f.length) : ObcPackHead.ofStore m fileaddr = headOf f := by
  have h512 : obcHeaderSize = 512 := rfl
  refine ObcPackHead.ofStore_congr fun i hi => ?_
  have hget := congrArg (·[i]?) hmem
  simp only [Store.getElem?_read (show i < f.length by omega)] at hget
  rw [Nat.zero_add, List.getD_eq_getElem?_getD, ← hget, Option.getD_some]

/-- The header of a file in memory, where the flasher has been through
with it. -/
theorem head_of_validated (hmem : Store.read m fileaddr f.length = f)
    (hval : validateImage (some f) h z = some v) :
    (ObcPackHead.ofStore m fileaddr).HasMagic ∧
      f.length = obcHeaderSize + (ObcPackHead.ofStore m fileaddr).fileSize.toNat ∧
      0 < (ObcPackHead.ofStore m fileaddr).fileSize.toNat ∧
      (ObcPackHead.ofStore m fileaddr).headWriteFlag.toNat = h ∧
      v = (if h = 0 then f.length - obcHeaderSize else f.length) := by
  obtain ⟨hlong, hmagic, hsize, hflag, hv⟩ := validateImage_eq_some hval
  have field : ∀ o n, o + n ≤ f.length →
      Store.read m (fileaddr + o) n = (f.drop o).take n := by
    intro o n ho
    have h := Store.read_drop_take (m := m) (a := fileaddr) ho
    rw [hmem] at h
    exact h.symm
  have h512 : obcHeaderSize = 512 := rfl
  -- four bytes and two are as much as the words of the header hold
  have hword := leNat_lt ((f.drop 6).take 4)
  have hhalf := leNat_lt ((f.drop 12).take 2)
  have hfour : ((f.drop 6).take 4).length = 4 := by
    rw [List.length_take, List.length_drop]
    omega
  have htwo : ((f.drop 12).take 2).length = 2 := by
    rw [List.length_take, List.length_drop]
    omega
  rw [hfour] at hword
  rw [htwo] at hhalf
  have hfile : (ObcPackHead.ofStore m fileaddr).fileSize.toNat = leNat ((f.drop 6).take 4) := by
    rw [ObcPackHead.ofStore, field 6 4 (by omega)]
    exact UInt32.toNat_ofNat_of_lt' hword
  have hhead : (ObcPackHead.ofStore m fileaddr).headWriteFlag.toNat = h := by
    rw [ObcPackHead.ofStore, field 12 2 (by omega), ← hflag]
    exact UInt16.toNat_ofNat_of_lt' hhalf
  refine ⟨?_, by rw [hfile, hsize], by omega, hhead, ?_⟩
  · have hread := field 0 5 (by omega)
    rw [Nat.add_zero, List.drop_zero, hmagic] at hread
    exact hread
  · rw [hv]
    split <;> omega

/-- **A file the flasher is through with** the writer takes, and alike,
exactly where its payload has the CRC in its header. -/
theorem takenAlike_iff (hh : h ≤ 1) (hlen : f.length < 2 ^ 31)
    (hmem : Store.read m fileaddr f.length = f) (hval : validateImage (some f) h z = some v) :
    TakenAlike U m fileaddr f h v z ↔
      obcCalculateCrc16 U (f.drop obcHeaderSize) = (headOf f).crc16 := by
  obtain ⟨hmagic, hsize, hpos, hflag, hv⟩ := head_of_validated hmem hval
  have h512 : obcHeaderSize = 512 := rfl
  have hhead := ofStore_eq_headOf hmem (by omega)
  rw [hhead] at hmagic hsize hpos hflag
  obtain ⟨hlong, hfile⟩ := packed_size (n := (headOf f).fileSize.toNat) (by omega) rfl
  rw [← h512, ← hsize] at hlong hfile
  have hpayload := read_behind_head hmem hsize
  -- of the checks of the writer only the CRC is left
  have hprep := obcPrepareWriteImage_eq (U := U) hmagic hhead hlong
    (fun h0 => by rw [h0] at hpos; exact absurd hpos (by decide)) hfile
    (UInt16.le_iff_toNat_le.2 (by rw [hflag]; exact hh))
  rw [hpayload] at hprep
  have hwrite : writeOne (some f) h z = some (ddBytes f h) := by simp only [writeOne, hval]
  rw [TakenAlike, hwrite]
  constructor
  · rintro ⟨image, himage, -⟩
    by_contra hne
    rw [hprep, if_pos hne] at himage
    cases himage
  · intro hcrc
    rw [if_neg (not_not.2 hcrc)] at hprep
    have hzero : (headOf f).headWriteFlag = 0 ↔ h = 0 := by
      rw [← UInt16.toNat_inj, hflag]
      rfl
    rcases eq_or_ne h 0 with h0 | h0
    · rw [if_neg (not_not.2 (hzero.2 h0))] at hprep
      refine ⟨_, hprep, hflag, ?_, ?_⟩
      · rw [hv, if_pos h0, hsize, Nat.add_sub_cancel_left]
      · rw [hpayload, ddBytes, if_pos h0]
    · rw [if_pos fun hf => h0 (hzero.1 hf)] at hprep
      have hwhole : (Int32.ofNat f.length).toUInt32.toNat = f.length := by
        rw [Int32.toUInt32_ofNat', UInt32.toNat_ofNat_of_lt' (show f.length < 2 ^ 32 by omega)]
      refine ⟨_, hprep, hflag, ?_, ?_⟩
      · rw [hv, if_neg h0, hwhole]
      · rw [hwhole, hmem, ddBytes, if_neg h0]

/-- A byte, signed, is taken alike. -/
theorem takenAlike_byte : TakenAlike Bench.uboot (Store.write (fun _ => 0) 0 Bench.signed) 0
    Bench.signed 1 Bench.signed.length 0x80000 := by
  have hval : validateImage (some Bench.signed) 1 0x80000 = some Bench.signed.length := by
    decide +kernel
  refine (takenAlike_iff (by decide) ?_ Store.read_write_self hval).2 ?_
  · decide +kernel
  · decide +kernel

/-- A byte with the header of another. -/
def misfit : List UInt8 := (packHead [] [] [0xAB] 1).bytes ++ [0xAA]

/-- **The flasher has no CRC**: it is through with a package the writer
refuses. -/
theorem not_takenAlike_misfit :
    ¬ ∀ (U : UBoot) (m : Store UInt8) (fileaddr : ℕ) (f : List UInt8) (h v : ℕ) (z : ℤ), h ≤ 1 →
      f.length < 2 ^ 31 → Store.read m fileaddr f.length = f →
      validateImage (some f) h z = some v → TakenAlike U m fileaddr f h v z := by
  intro h
  have hval : validateImage (some misfit) 1 0x80000 = some misfit.length := by decide +kernel
  obtain ⟨image, himage, -⟩ := h Bench.uboot (Store.write (fun _ => 0) 0 misfit) 0 misfit 1
    misfit.length 0x80000 (by decide) (by decide +kernel) Store.read_write_self hval
  have hnone : (obcPrepareWriteImage Bench.uboot (Store.write (fun _ => 0) 0 misfit) 0
      (Int32.ofNat misfit.length)).isNone = true := by decide +kernel
  rw [himage] at hnone
  cases hnone

end Flashed

end Boot

end ObcSdk
