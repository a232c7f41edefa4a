import Mathlib.Logic.Basic
import ObcSdk.Tools.Sign
/-!
# The unsigner

`unsign_demo`, the host tool that takes a package apart again
(`unpack_uboot`). It has checks of its own, on the size above all, and
opens its output only behind them.
-/

namespace ObcSdk

namespace Tools

open Boot

/-- The largest file `unpack_uboot` takes, `0x10000000` bytes. -/
abbrev unpackMaxSize : ℕ := 0x10000000

/-- The calls of `unpack_uboot` that can fail. -/
inductive UnpackStep where
  | openPacked
  | readHeader
  | malloc
  | read
  | openOutput
  | writeData
deriving DecidableEq

/-- The header of a file. -/
def headOf (file : List UInt8) : ObcPackHead := .ofStore (fun i => file.getD i 0) 0

/-- `unpack_uboot` on a packed file, with its argument count: its status,
and the output file once it is opened. -/
def unpackUboot (fault : UnpackStep → Bool) (argc : ℕ) (packedFile : List UInt8) :
    ℤ × Option (List UInt8) :=
  if fault .openPacked then (-1, none) else
  if fault .readHeader ∨ packedFile.length < obcHeaderSize then (-1, none) else
  let header := headOf packedFile
  if ¬ header.HasMagic then (-1, none) else
  if header.fileSize = 0 ∨ unpackMaxSize < header.fileSize.toNat then (-1, none) else
  -- without an output path the header is printed and no more
  if argc = 2 then (0, none) else
  if fault .malloc then (-1, none) else
  let ubootData := (packedFile.drop obcHeaderSize).take header.fileSize.toNat
  if fault .read ∨ ubootData.length ≠ header.fileSize.toNat then (-1, none) else
  if calculateCrc16 ubootData ≠ header.crc16 then (-1, none) else
  if fault .openOutput then (-1, none) else
  if fault .writeData then (-1, some []) else
  (0, some ubootData)

section Unpack

variable {fault : UnpackStep → Bool} {argc : ℕ} {header : ObcPackHead} {data : List UInt8}

/-- **A header in front of a file** is the file's. -/
theorem headOf_bytes : headOf (header.bytes ++ data) = header := by
  refine ObcPackHead.ofStore_of_bytes (Store.eq_read (by simp) ?_).symm
  intro i hi
  rw [Nat.zero_add, List.getD_eq_getElem?_getD, List.getElem?_append_left hi,
    List.getElem?_eq_getElem hi, Option.getD_some]

/-- **What becomes of a header and its payload**, the calls aside: the
size is looked at first, and the CRC before there is an output. -/
theorem unpackUboot_bytes (hmagic : header.HasMagic)
    (hsize : header.fileSize.toNat = data.length) (hargc : argc ≠ 2) :
    unpackUboot fault argc (header.bytes ++ data) =
      if fault .openPacked ∨ fault .readHeader ∨ data = [] ∨ unpackMaxSize < data.length ∨
        fault .malloc ∨ fault .read ∨ calculateCrc16 data ≠ header.crc16 ∨ fault .openOutput then
        (-1, none)
      else if fault .writeData then (-1, some []) else (0, some data) := by
  have hlen : ¬ (header.bytes ++ data).length < obcHeaderSize := by
    rw [List.length_append, ObcPackHead.length_bytes]
    omega
  have hdata : ((header.bytes ++ data).drop obcHeaderSize).take data.length = data := by
    rw [List.drop_left' (ObcPackHead.length_bytes _), List.take_length]
  have hzero : header.fileSize = 0 ↔ data = [] := by
    rw [← UInt32.toNat_inj, hsize, UInt32.toNat_zero, List.length_eq_zero_iff]
  simp only [unpackUboot, headOf_bytes, hdata, hzero, hsize, hlen, hmagic, hargc, ne_eq,
    not_true_eq_false, or_false, if_false, ite_or]

end Unpack

end Tools

end ObcSdk
