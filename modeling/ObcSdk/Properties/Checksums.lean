import ObcSdk.Lib.CrcErrors
import ObcSdk.Tools.Kimg
import ObcSdk.Tools.Unsign
import ObcSdk.Properties.RoundTrip
/-!
# The packages' checksum

The signer, the image packer and the boot each have a CRC16 of their own.
The two tables on the host hold one bit-serial register, the reflected one
of 16 bits with the polynomial `0x8005`; and what such a register tells
for certain, bursts of up to its length and odd numbers of bits, both
readers of a package reject.
-/

namespace ObcSdk

namespace Boot

open Tools

section Checksums

variable {a b d d' : List UInt8} {crc : UInt16}

/-- The polynomial as the reflected register has it. -/
abbrev crc16Poly : BitVec 16 := 0xA001#16

/-- **The signer's CRC is bit-serial.** -/
theorem calculateCrc16_eq_feed :
    (calculateCrc16 a).toBitVec = Crc.feed crc16Poly 0xFFFF#16 (Crc.bits a) := by
  rw [calculateCrc16_eq, Crc.run_eq_feed (by decide)]

/-- And goes on where it left off. -/
theorem calculateCrc16_append : (calculateCrc16 (a ++ b)).toBitVec =
    Crc.feed crc16Poly (calculateCrc16 a).toBitVec (Crc.bits b) := by
  rw [calculateCrc16_eq_feed, calculateCrc16_eq_feed, ← Crc.feed_append, Crc.bits,
    List.flatMap_append]
  rfl

/-- **Both tables hold the bit-serial register**: the tools agree on every
file, and both take it in parts. -/
theorem crc16_bit_serial (a b : List UInt8) :
    calculateCrc16 a = crc16Ccitt a ∧
      crc16Poly = (0x8005#16).reverse ∧
      (calculateCrc16 a).toBitVec = Crc.feed crc16Poly 0xFFFF#16 (Crc.bits a) ∧
      (crc16Ccitt a).toBitVec = Crc.feed crc16Poly 0xFFFF#16 (Crc.bits a) ∧
      (calculateCrc16 (a ++ b)).toBitVec =
        Crc.feed crc16Poly (calculateCrc16 a).toBitVec (Crc.bits b) ∧
      (crc16Ccitt (a ++ b)).toBitVec =
        Crc.feed crc16Poly (crc16Ccitt a).toBitVec (Crc.bits b) := by
  rw [crc16Ccitt_eq, crc16Ccitt_eq]
  exact ⟨rfl, by decide, calculateCrc16_eq_feed, calculateCrc16_eq_feed, calculateCrc16_append,
    calculateCrc16_append⟩

/-! ## Damage -/

/-- A file damaged in transfer: within 16 consecutive bits, in the order
they are fed to the CRC, or in an odd number of them. -/
def Damaged (d d' : List UInt8) : Prop :=
  (d ≠ d' ∧ ∃ p, ∀ i, (Crc.bits d)[i]? ≠ (Crc.bits d')[i]? → p ≤ i ∧ i < p + 16) ∨
    Odd (((Crc.bits d).zip (Crc.bits d')).countP fun x => x.1 ≠ x.2)

/-- **Damage changes the CRC.** -/
theorem Damaged.calculateCrc16_ne (h : Damaged d d') (hlen : d.length = d'.length) :
    calculateCrc16 d ≠ calculateCrc16 d' := by
  have hbits : (Crc.bits d).length = (Crc.bits d').length := by
    rw [Crc.length_bits, Crc.length_bits, hlen]
  intro heq
  have hcrc := congrArg UInt16.toBitVec heq
  rw [calculateCrc16_eq_feed, calculateCrc16_eq_feed, Crc.feed_eq_iff hbits] at hcrc
  rcases h with ⟨hne, p, hburst⟩ | hodd
  · refine Crc.feed_ne_zero_of_burst (by decide) (fun i hi => hburst i ?_) ?_ hcrc
    · exact (Crc.getElem?_zipWith_xor hbits).1 hi
    by_contra hnone
    refine hne (Crc.bits_injective (List.ext_getElem? fun i => ?_))
    by_contra hdiff
    exact hnone (List.mem_of_getElem? ((Crc.getElem?_zipWith_xor hbits).2 hdiff))
  · refine Crc.feed_ne_zero_of_odd (by decide) (by decide) ?_ hcrc
    rwa [Crc.count_zipWith_xor]

/-- **A damaged payload is rejected** behind the header that was signed,
by the boot's check of a package and by the unsigner, which makes no
file. -/
theorem damage_rejected {U : UBoot} {fault : PackStep → Bool} {binPath outputPath pkg : List UInt8}
    {flag : UInt16} (hcrc : U.Crc16Reflected)
    (hlen : d'.length = d.length) (hdam : Damaged d d')
    (hpack : packFunc fault binPath outputPath d flag = (0, some pkg)) :
    (∀ (m : Store UInt8) (header data : ℕ),
      Store.read m header obcHeaderSize = pkg.take obcHeaderSize →
      Store.read m data d'.length = d' → obcVerifyPackHeader U m header data = -2) ∧
    ∀ (fault' : UnpackStep → Bool) (argc : ℕ), 2 < argc →
      unpackUboot fault' argc (pkg.take obcHeaderSize ++ d') = (-1, none) := by
  obtain ⟨hsize, rfl⟩ := packFunc_eq_zero hpack
  have hne := hdam.calculateCrc16_ne hlen.symm
  have hmagic : (packHead binPath outputPath d flag).HasMagic := rfl
  have hfile : (packHead binPath outputPath d flag).fileSize.toNat = d'.length := by
    rw [hlen]
    exact UInt32.toNat_ofNat_of_lt' hsize
  rw [List.take_left' (ObcPackHead.length_bytes _)]
  constructor
  · intro m header data hhead hdata
    have hcheck : obcCalculateCrc16 U d' ≠ (packHead binPath outputPath d flag).crc16 := by
      rw [obcCalculateCrc16_eq hcrc]
      exact hne.symm
    simp only [obcVerifyPackHeader, ObcPackHead.ofStore_of_bytes hhead, hfile, hdata]
    rw [if_neg (not_not.2 hmagic), if_pos hcheck]
  · intro fault' argc hargc
    have hcheck : calculateCrc16 d' ≠ (packHead binPath outputPath d flag).crc16 := hne.symm
    rw [unpackUboot_bytes hmagic hfile (by omega)]
    simp only [hcheck, ne_eq, not_false_eq_true, true_or, or_true, if_true]

/-- A bit of a byte. -/
theorem damage_rejected_bit :
    obcVerifyPackHeader Bench.uboot (Store.write (Store.write (fun _ => 0) 0
        (Bench.signed.take obcHeaderSize)) obcHeaderSize [0xAA]) 0 obcHeaderSize = -2 ∧
      unpackUboot (fun _ => false) 3 (Bench.signed.take obcHeaderSize ++ [0xAA]) = (-1, none) := by
  have hpack : packFunc (fun _ => false) [] [] [0xAB] 1 = (0, some Bench.signed) := rfl
  have hdam : Damaged [0xAB] [0xAA] := Or.inr (by decide)
  have h := damage_rejected (U := Bench.uboot) (fun _ => rfl) (by decide) hdam hpack
  have hhead : (Bench.signed.take obcHeaderSize).length = obcHeaderSize := by
    have hsigned : Bench.signed = (packHead [] [] [0xAB] 1).bytes ++ [0xAB] := rfl
    rw [hsigned, List.take_left' (ObcPackHead.length_bytes _), ObcPackHead.length_bytes]
  have hwrite : (Store.write (fun _ => 0) 0 (Bench.signed.take obcHeaderSize)).read 0
      (Bench.signed.take obcHeaderSize).length = Bench.signed.take obcHeaderSize :=
    Store.read_write_self
  rw [hhead] at hwrite
  refine ⟨h.1 _ 0 obcHeaderSize ?_ Store.read_write_self, h.2 _ 3 (by decide)⟩
  exact (Store.read_congr fun i hi => Store.write_of_lt (by omega)).trans hwrite

end Checksums

end Boot

end ObcSdk
