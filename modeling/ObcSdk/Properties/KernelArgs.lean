import ObcSdk.Boot.Bench
import ObcSdk.Boot.Blkdevparts
/-!
# What the kernel is told

The `blkdevparts` argument, from the table to the kernel's reading of
it: the device and the entries the boot does not keep to itself, in
order and with their sizes and offsets, as long as the device's name
fits the array on the stack.
-/

namespace ObcSdk

namespace Boot

variable {U : UBoot} {w : World} {buf : CBuf} {device : List Char}

/-- A table the argument is made for: at most 32 entries, with labels of
at most 15 characters that are neither `)` nor white space. -/
def World.Plain (U : UBoot) (w : World) : Prop :=
  w.partCount ≤ maxPartNum ∧ ∀ i, i < w.partCount.toNat →
    (w.parts U i).Terminated ∧ ∀ c ∈ (w.parts U i).name, c ≠ ')' ∧ c.isWhitespace = false

instance : Decidable (w.Plain U) :=
  decidable_of_iff
    (w.partCount ≤ maxPartNum ∧ ∀ i ∈ List.range w.partCount.toNat,
      (w.parts U i).Terminated ∧
        (w.parts U i).name.all (fun c => decide (c ≠ ')' ∧ c.isWhitespace = false)) = true)
    (by simp only [World.Plain, List.mem_range, List.all_eq_true, decide_eq_true_eq])

/-- **The kernel reads the table back**: from what
`obc_bootargs_blkparts_set` leaves in its destination it takes the
device's name and exactly the entries whose flag is `0`, in the table's
order. -/
theorem blkdevparts_round_trip (htable : w.Plain U) (hcolon : ':' ∉ device)
    (hnul : '\x00' ∉ device) (hlen : device.length ≤ 62) (hbuf : buf.overrun = false)
    (hcap : (blkdevpartsText device (shownParts (w.parts U) 0 w.partCount.toNat)).length <
      buf.chars.length) :
    readBlkdevparts (cString (obcBootargsBlkpartsSet U w buf device).1.chars) =
        some (device, (shownParts (w.parts U) 0 w.partCount.toNat).map (·.entry)) ∧
      (obcBootargsBlkpartsSet U w buf device).1.overrun = false ∧
      (obcBootargsBlkpartsSet U w buf device).2 = false := by
  obtain ⟨-, hlabels⟩ := htable
  obtain ⟨⟨hholds, hover⟩, hstack⟩ := obcBootargsBlkpartsSet_holds (U := U) (w := w) _ hnul hlen
    hbuf hcap
  refine ⟨?_, hover, hstack⟩
  rw [hholds.cString_eq]
  refine readBlkdevparts_text hcolon ?_
  intro p hp
  obtain ⟨hp, -⟩ := List.mem_filter.1 hp
  obtain ⟨i, hi, rfl⟩ := List.mem_map.1 hp
  rw [List.mem_range'_1] at hi
  obtain ⟨-, hplain⟩ := hlabels i (by omega)
  exact fun hparen => (hplain _ hparen).1 rfl

/-- The eMMC's layout, read back. -/
theorem blkdevparts_round_trip_emmc :
    readBlkdevparts (cString (obcBootargsBlkpartsSet Bench.uboot (Bench.world fun _ => 0)
        (CBuf.new 512) "mmcblk0".toList).1.chars) =
      some ("mmcblk0".toList, Bench.layout.map (·.entry)) := by
  have htable : (Bench.world fun _ => 0).Plain Bench.uboot := by decide +kernel
  have hcolon : ':' ∉ "mmcblk0".toList := by decide
  have hbuf : (CBuf.new 512).overrun = false := rfl
  have h := blkdevparts_round_trip htable hcolon (by decide) (by decide) hbuf
    (by decide +kernel)
  rw [h.1]
  decide +kernel

/-- **A long name is cut short** by the array on the stack, and the kernel
reads another device. -/
theorem blkdevparts_long_device :
    ¬ ∀ (U : UBoot) (w : World) (buf : CBuf) (device : List Char), w.Plain U →
      ':' ∉ device → '\x00' ∉ device → buf.overrun = false →
      (blkdevpartsText device (shownParts (w.parts U) 0 w.partCount.toNat)).length <
        buf.chars.length →
      readBlkdevparts (cString (obcBootargsBlkpartsSet U w buf device).1.chars) =
        some (device, (shownParts (w.parts U) 0 w.partCount.toNat).map (·.entry)) := by
  intro h
  have htable : (Bench.world fun _ => 0).Plain Bench.uboot := by decide +kernel
  have hread := h Bench.uboot (Bench.world fun _ => 0) (CBuf.new 320) (List.replicate 64 'a')
    htable (by decide +kernel) (by decide +kernel) rfl (by decide +kernel)
  exact absurd hread (by decide +kernel)

end Boot

end ObcSdk
