import ObcSdk.Boot.Bench
import ObcSdk.Boot.Commandline
import ObcSdk.Boot.Partitions
/-!
# The arrays of the boot arguments

`obc_bootargs_set` puts the command line together in five arrays on the
stack. The ones for a single entry take any entry, and the line is
measured before it is run. The one for the whole `blkdevparts` argument
is not: it takes a table only as long as the entries' widths come to no
more than it has.
-/

namespace ObcSdk

namespace Boot

/-- The arrays are enough for the table: nothing is stored outside one,
and a line that does not fit is refused. -/
structure BuffersSuffice (U : UBoot) (w : World) (device console : List Char) : Prop where
  arrays : Call.overrun ∉ w.since (obcBootargsSet U w device console).2
  refused : 1024 ≤ ("setenv bootargs ".toList ++ bootargsText U w device console).length →
    obcBootargsSet U w device console = (cmdRetFailure, w)

section Buffers

variable {U : UBoot} {w : World} {device console : List Char}

/-- **The arrays are enough** exactly for a table whose entries, with the
device and the commas, take no more than 511 characters. -/
theorem buffersSuffice_iff
    (hdev : device = configAm62xEmmcDevName ∨ device = configAm62xSdDevName) :
    BuffersSuffice U w device console ↔
      device.length + 1 + partsWidth (shownParts (w.parts U) 0 w.partCount.toNat) ≤ 511 := by
  have hnul : '\x00' ∉ device := by
    rcases hdev with rfl | rfl <;> decide
  have hlen : device.length ≤ 62 := by
    rcases hdev with rfl | rfl <;> decide
  rw [← length_blkdevpartsText]
  constructor
  · intro h
    by_contra hlong
    exact h.arrays (obcBootargsSet_of_le (by omega))
  · intro h
    have hset := obcBootargsSet_of_lt console hnul hlen (Nat.lt_succ_of_le h)
    constructor
    · have htrace : (obcBootargsSet U w device console).2.trace = w.trace ++ [] := by
        rw [hset, apply_ite Prod.snd, apply_ite World.trace, List.append_nil]
        exact ite_self _
      rw [World.since_of_trace htrace]
      exact List.not_mem_nil
    · intro hfull
      rw [hset, if_pos hfull]

end Buffers

open Bench

/-- The eMMC's layout. -/
theorem buffersSuffice_emmc :
    BuffersSuffice uboot (world fun _ => 0) configAm62xEmmcDevName configAm62xBootargsEmmc := by
  rw [buffersSuffice_iff (Or.inl rfl), ← length_partsText]
  decide +kernel

/-- The subnodes of a table too long: 13 of them, with a label of 15
characters and no size in whole KiB. -/
def longNodes : List FdtNode :=
  List.replicate 13 (.mk "partition".toList
    [("label", "calibration-dat".toUTF8.toList ++ [0]),
      ("reg", [0xFF, 0xFF, 0xFE, 0x00, 0x7F, 0xFF, 0xFE, 0x01])] [])

/-- A world with the table they make. -/
def longTableWorld : World :=
  let w := world fun _ => 0
  { w with stAbility :=
      { w.stAbility with
        stBlk := obcBlkParsePartitions .mmc longNodes BoardAbilityTable.zero.stBlk } }

/-- **A table of 13 partitions is stored behind the array.** -/
theorem not_buffersSuffice_longNodes :
    ¬ ∀ (U : UBoot) (w : World) (nodes : List FdtNode) (device console : List Char),
      w.stAbility.stBlk = obcBlkParsePartitions w.bootTable nodes BoardAbilityTable.zero.stBlk →
      nodes.length ≤ maxPartNum →
      (device, console) ∈ [(configAm62xEmmcDevName, configAm62xBootargsEmmc),
        (configAm62xEmmcDevName, configAm62xBootargsEmmcB),
        (configAm62xSdDevName, configAm62xBootargsSd),
        (configAm62xSdDevName, configAm62xBootargsSdB)] →
      BuffersSuffice U w device console := by
  intro h
  have htable : longTableWorld.bootTable = .mmc := rfl
  have hparsed : longTableWorld.stAbility.stBlk =
      obcBlkParsePartitions longTableWorld.bootTable longNodes BoardAbilityTable.zero.stBlk := by
    rw [htable, longTableWorld]
  have hbuffers := h uboot longTableWorld longNodes configAm62xEmmcDevName configAm62xBootargsEmmc
    hparsed (by decide) List.mem_cons_self
  exact hbuffers.arrays (obcBootargsSet_of_le (by decide +kernel))

end Boot

end ObcSdk
