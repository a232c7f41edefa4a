import ObcSdk.Lib.CString
import ObcSdk.Boot.Read
/-!
# The kernel's arguments

The partition table rendered as the kernel's `blkdevparts` argument
(`obc_bootargs_blkparts_set`), and the command line it goes into
(`obc_bootargs_set`). The strings are built in arrays on the stack; what
does not fit one of them is recorded as an overrun.
-/

namespace ObcSdk

namespace Boot

/-! ## Conversions -/

/-- `%x`. -/
def formatX (v : UInt32) : List Char := Nat.toDigits 16 v.toNat

/-- `%d`, which takes an unsigned argument for a signed one. -/
def formatD (v : UInt32) : List Char :=
  let i := v.toInt32.toInt
  if i < 0 then '-' :: Nat.toDigits 10 i.natAbs else Nat.toDigits 10 i.toNat

/-- `hex_to_str`. -/
def hexToStr (value : UInt32) (buffer : CBuf) : CBuf :=
  buffer.sprintf (['0', 'x'] ++ formatX value)

/-- `size_to_readable`. -/
def sizeToReadable (size : UInt32) (buffer : CBuf) : CBuf :=
  if size % (1024 * 1024) = 0 then buffer.sprintf (formatD (size / (1024 * 1024)) ++ ['M'])
  else if size % 1024 = 0 then buffer.sprintf (formatD (size / 1024) ++ ['K'])
  else buffer.sprintf (['0', 'x'] ++ formatX size)

/-! ## The blkdevparts argument -/

/-- The variables of `obc_bootargs_blkparts_set`; `overrun` is for the
arrays of one turn of its loop. -/
structure BlkpartsState where
  blkdevparts : CBuf
  temp : CBuf
  first : Bool
  overrun : Bool

/-- One turn of its loop. -/
def blkpartsEntry (p : BoardAbilityBlkParts) (st : BlkpartsState) : BlkpartsState :=
  -- a bootable partition is skipped
  if p.flag ≠ 0 then st else
  let sizeStr := sizeToReadable p.size (CBuf.new 16)
  let addrStr := hexToStr p.addr (CBuf.new 16)
  let temp := st.temp.sprintf ((if st.first then [] else [',']) ++ cString sizeStr.chars ++ ['@'] ++
    cString addrStr.chars ++ ['('] ++ p.name ++ [')'])
  { blkdevparts := st.blkdevparts.strcat (cString temp.chars)
    temp := temp
    first := false
    overrun := st.overrun || sizeStr.overrun || addrStr.overrun }

/-- The loop, over `n` entries from index `i`. -/
def blkpartsLoop (parts : ℕ → BoardAbilityBlkParts) : ℕ → ℕ → BlkpartsState → BlkpartsState
  | 0, _, st => st
  | n + 1, i, st => blkpartsLoop parts n (i + 1) (blkpartsEntry (parts i) st)

/-- `obc_bootargs_blkparts_set`: the destination array, and whether one
of its own arrays was overrun. -/
def obcBootargsBlkpartsSet (U : UBoot) (w : World) (blkdevparts : CBuf) (device : List Char) :
    CBuf × Bool :=
  let st := blkpartsLoop (w.parts U) w.partCount.toNat 0
    ⟨blkdevparts.store 0 ['\x00'], CBuf.new 64, true, false⟩
  let temp := st.temp.sprintf (device ++ [':'])
  let moved := st.blkdevparts.memmove (device.length + 1) 0 (st.blkdevparts.strlen + 1)
  (moved.memcpy temp (device.length + 1), st.overrun || temp.overrun)

/-! ## The command line -/

/-- `env_set`. -/
def World.envSet (w : World) (name value : String) : World :=
  { w with env := fun n => if n = name then some value else w.env n }

/-- `obc_bootargs_set`. The command run sets `bootargs` to the rest of
its line. -/
def obcBootargsSet (U : UBoot) (w : World) (pDevName pConsole : List Char) : ℤ × World :=
  let r := obcBootargsBlkpartsSet U w (CBuf.new 512) pDevName
  let boot := w.stAbility.stBoot
  let bootMedia := if boot.iBootMedia = boardAbilityDevSd then "sd"
    else if boot.iBootMedia = boardAbilityDevEmmc then "emmc" else "unknown"
  let args := pConsole ++ " blkdevparts=".toList ++ cString r.1.chars ++
    " obcboot.part=".toList ++ Nat.toDigits 10 boot.iPartType.toNat ++
    " obcboot.media=".toList ++ bootMedia.toList
  let bootargs := "setenv bootargs ".toList ++ args
  let w := if r.1.overrun || r.2 then w.advance [] [.overrun] 0 else w
  if 1024 ≤ bootargs.length then (1, w) else (0, w.envSet "bootargs" (String.ofList args))

end Boot

end ObcSdk
