import ObcSdk.Lib.Crc
import ObcSdk.Boot.Pack
/-!
# The signer

`obc_sign`, the host tool that makes a package of a file: its CRC, by
table (`crc16.c`), and `pack_func`. The host's file operations may each
fail; a run that does not is the header and the file behind it.
-/

namespace ObcSdk

namespace Tools

open Boot

/-! ## CRC -/

/-- `crc16_table`. -/
def crc16Table : Array UInt16 :=
  #[
    0x0000, 0xC0C1, 0xC181, 0x0140, 0xC301, 0x03C0, 0x0280, 0xC241,
    0xC601, 0x06C0, 0x0780, 0xC741, 0x0500, 0xC5C1, 0xC481, 0x0440,
    0xCC01, 0x0CC0, 0x0D80, 0xCD41, 0x0F00, 0xCFC1, 0xCE81, 0x0E40,
    0x0A00, 0xCAC1, 0xCB81, 0x0B40, 0xC901, 0x09C0, 0x0880, 0xC841,
    0xD801, 0x18C0, 0x1980, 0xD941, 0x1B00, 0xDBC1, 0xDA81, 0x1A40,
    0x1E00, 0xDEC1, 0xDF81, 0x1F40, 0xDD01, 0x1DC0, 0x1C80, 0xDC41,
    0x1400, 0xD4C1, 0xD581, 0x1540, 0xD701, 0x17C0, 0x1680, 0xD641,
    0xD201, 0x12C0, 0x1380, 0xD341, 0x1100, 0xD1C1, 0xD081, 0x1040,
    0xF001, 0x30C0, 0x3180, 0xF141, 0x3300, 0xF3C1, 0xF281, 0x3240,
    0x3600, 0xF6C1, 0xF781, 0x3740, 0xF501, 0x35C0, 0x3480, 0xF441,
    0x3C00, 0xFCC1, 0xFD81, 0x3D40, 0xFF01, 0x3FC0, 0x3E80, 0xFE41,
    0xFA01, 0x3AC0, 0x3B80, 0xFB41, 0x3900, 0xF9C1, 0xF881, 0x3840,
    0x2800, 0xE8C1, 0xE981, 0x2940, 0xEB01, 0x2BC0, 0x2A80, 0xEA41,
    0xEE01, 0x2EC0, 0x2F80, 0xEF41, 0x2D00, 0xEDC1, 0xEC81, 0x2C40,
    0xE401, 0x24C0, 0x2580, 0xE541, 0x2700, 0xE7C1, 0xE681, 0x2640,
    0x2200, 0xE2C1, 0xE381, 0x2340, 0xE101, 0x21C0, 0x2080, 0xE041,
    0xA001, 0x60C0, 0x6180, 0xA141, 0x6300, 0xA3C1, 0xA281, 0x6240,
    0x6600, 0xA6C1, 0xA781, 0x6740, 0xA501, 0x65C0, 0x6480, 0xA441,
    0x6C00, 0xACC1, 0xAD81, 0x6D40, 0xAF01, 0x6FC0, 0x6E80, 0xAE41,
    0xAA01, 0x6AC0, 0x6B80, 0xAB41, 0x6900, 0xA9C1, 0xA881, 0x6840,
    0x7800, 0xB8C1, 0xB981, 0x7940, 0xBB01, 0x7BC0, 0x7A80, 0xBA41,
    0xBE01, 0x7EC0, 0x7F80, 0xBF41, 0x7D00, 0xBDC1, 0xBC81, 0x7C40,
    0xB401, 0x74C0, 0x7580, 0xB541, 0x7700, 0xB7C1, 0xB681, 0x7640,
    0x7200, 0xB2C1, 0xB381, 0x7340, 0xB101, 0x71C0, 0x7080, 0xB041,
    0x5000, 0x90C1, 0x9181, 0x5140, 0x9301, 0x53C0, 0x5280, 0x9241,
    0x9601, 0x56C0, 0x5780, 0x9741, 0x5500, 0x95C1, 0x9481, 0x5440,
    0x9C01, 0x5CC0, 0x5D80, 0x9D41, 0x5F00, 0x9FC1, 0x9E81, 0x5E40,
    0x5A00, 0x9AC1, 0x9B81, 0x5B40, 0x9901, 0x59C0, 0x5880, 0x9841,
    0x8801, 0x48C0, 0x4980, 0x8941, 0x4B00, 0x8BC1, 0x8A81, 0x4A40,
    0x4E00, 0x8EC1, 0x8F81, 0x4F40, 0x8D01, 0x4DC0, 0x4C80, 0x8C41,
    0x4400, 0x84C1, 0x8581, 0x4540, 0x8701, 0x47C0, 0x4680, 0x8641,
    0x8201, 0x42C0, 0x4380, 0x8341, 0x4100, 0x81C1, 0x8081, 0x4040]

/-- One turn of the loop of `calculate_crc16`. -/
def crc16Turn (crc : UInt16) (b : UInt8) : UInt16 :=
  let index := (crc ^^^ b.toUInt16).toUInt8
  (crc >>> 8) ^^^ crc16Table.getD index.toNat 0

/-- `calculate_crc16`. -/
def calculateCrc16 (data : List UInt8) : UInt16 := data.foldl crc16Turn 0xFFFF

/-! ## Packing -/

/-- The calls of `pack_func` that can fail. -/
inductive PackStep where
  | openInput
  | seekEnd
  | tell
  | seekSet
  | malloc
  | read
  | openOutput
  | writeHeader
  | writeData
deriving DecidableEq

/-- What follows the last slash of a path, the path itself where it has
none. -/
def baseName (path : List UInt8) : List UInt8 :=
  (path.reverse.takeWhile (· ≠ 0x2F)).reverse

/-- `strncpy` into a field of 64 bytes that keeps its last for a NUL. -/
def nameField (name : List UInt8) : Vector UInt8 64 :=
  Vector.ofFn fun i => if i.val < 63 then name.getD i.val 0 else 0

/-- The header `pack_func` fills in. -/
def packHead (binPath outputPath data : List UInt8) (headWriteFlag : UInt16) : ObcPackHead where
  magic := #v[0x4F, 0x42, 0x43, 0x46, 0x53, 0]
  fileSize := UInt32.ofNat data.length
  crc16 := calculateCrc16 data
  headWriteFlag := headWriteFlag
  packFile := nameField (baseName outputPath)
  fileName := nameField (baseName binPath)

/-- `pack_func` on an input file of content `data`: its status, and the
output file once it is opened. -/
def packFunc (fault : PackStep → Bool) (binPath outputPath data : List UInt8)
    (headWriteFlag : UInt16) : ℤ × Option (List UInt8) :=
  if fault .openInput then (-1, none) else
  if fault .seekEnd then (-1, none) else
  if fault .tell ∨ 0xFFFFFFFF < data.length then (-1, none) else
  if fault .seekSet then (-1, none) else
  if fault .malloc then (-1, none) else
  if fault .read then (-1, none) else
  let header := packHead binPath outputPath data headWriteFlag
  if fault .openOutput then (-1, none) else
  if fault .writeHeader then (-1, some []) else
  if fault .writeData then (-1, some header.bytes) else
  (0, some (header.bytes ++ data))

/-! ## What is packed -/

section Pack

variable {fault : PackStep → Bool} {binPath outputPath data pkg : List UInt8}
  {headWriteFlag : UInt16} {crc : UInt16}

/-- The table holds the eight steps of each byte. -/
theorem crc16Table_eq : ∀ i, i < 256 →
    (crc16Table.getD i 0).toBitVec = Crc.bitSteps 0xA001#16 8 (BitVec.ofNat 16 i) := by
  have : ∀ i : Fin 256,
      (crc16Table.getD i.val 0).toBitVec = Crc.bitSteps 0xA001#16 8 (BitVec.ofNat 16 i.val) := by
    decide +kernel
  exact fun i hi => this ⟨i, hi⟩

/-- **A turn of the loop is a byte of the bit-serial register.** -/
theorem crc16Turn_eq (b : UInt8) :
    (crc16Turn crc b).toBitVec = Crc.byteStep 0xA001#16 crc.toBitVec b := by
  have hindex : ((crc ^^^ b.toUInt16).toUInt8).toNat =
      (crc.toBitVec ^^^ b.toBitVec.setWidth 16).toNat % 256 := by
    rw [UInt16.toNat_toUInt8, ← UInt16.toNat_toBitVec, UInt16.toBitVec_xor,
      UInt8.toBitVec_toUInt16]
  have hshift : (crc >>> 8).toBitVec = crc.toBitVec >>> 8 := rfl
  rw [Crc.byteStep_table crc16Table_eq, crc16Turn, UInt16.toBitVec_xor, hindex, hshift,
    BitVec.xor_comm]

/-- **Table CRC and bit-serial CRC agree.** -/
theorem calculateCrc16_eq :
    (calculateCrc16 data).toBitVec = Crc.run 0xA001#16 0xFFFF#16 data := by
  have turns : ∀ (data : List UInt8) (crc : UInt16),
      (data.foldl crc16Turn crc).toBitVec = Crc.run 0xA001#16 crc.toBitVec data := by
    intro data
    induction data with
    | nil => exact fun _ => rfl
    | cons b data ih =>
      intro crc
      rw [List.foldl_cons, ih, crc16Turn_eq, Crc.run_cons]
  exact turns data 0xFFFF

/-- **A run that succeeds** wrote the header and the file behind it. -/
theorem packFunc_eq_zero
    (h : packFunc fault binPath outputPath data headWriteFlag = (0, some pkg)) :
    data.length < 2 ^ 32 ∧
      pkg = (packHead binPath outputPath data headWriteFlag).bytes ++ data := by
  have not_fail : ∀ o : Option (List UInt8), ((-1 : ℤ), o) ≠ (0, some pkg) := by
    intro o h
    simpa using congrArg Prod.fst h
  -- every other return of the source is -1
  unfold packFunc at h
  split at h
  · exact absurd h (not_fail _)
  split at h
  · exact absurd h (not_fail _)
  split at h
  · exact absurd h (not_fail _)
  rename_i hlen
  rw [not_or, Nat.not_lt] at hlen
  split at h
  · exact absurd h (not_fail _)
  split at h
  · exact absurd h (not_fail _)
  split at h
  · exact absurd h (not_fail _)
  simp only [] at h
  split at h
  · exact absurd h (not_fail _)
  split at h
  · exact absurd h (not_fail _)
  split at h
  · exact absurd h (not_fail _)
  exact ⟨by omega, (Option.some.inj (Prod.mk.inj h).2).symm⟩

end Pack

end Tools

end ObcSdk
