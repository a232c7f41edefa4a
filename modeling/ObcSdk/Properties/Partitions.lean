import ObcSdk.Boot.Bench
import ObcSdk.Boot.Partitions
/-!
# Partitions out of the device tree

The table a `partitions` node leaves, and what the lookups by label find
in it. A node of at most 32 subnodes is recorded entry by entry and
nothing else is touched. One more subnode has its flag stored in the
entry after the last, which is the flash table's first. A label counts
with its first 15 characters.
-/

namespace ObcSdk

namespace Boot

/-! ## The table -/

/-- `nodes` are recorded in table `t` of `blk` as they should be: they
are counted up to 32, each entry is its subnode's, every store is to an
entry of the table or to its count, and the rest is as it was. -/
structure FilledFaithfully (beyond : ℕ → BoardAbilityBlkParts) (t : PartTable)
    (nodes : List FdtNode) (blk : BoardAbilityBlk) : Prop where
  count : (obcBlkParsePartitions t nodes blk).partCount t = (min nodes.length maxPartNum : ℕ)
  entries : ∀ (i : ℕ) (h : i < nodes.length), i < maxPartNum →
    (obcBlkParsePartitions t nodes blk).part beyond t i = nodes[i].entry
  inTable : ∀ s ∈ partStores nodes 0, s.InTable
  others : blk.SameBut t (obcBlkParsePartitions t nodes blk)

section Fill

variable {U : UBoot} {w : World} {beyond : ℕ → BoardAbilityBlkParts} {t : PartTable}
  {nodes : List FdtNode} {blk : BoardAbilityBlk} {i : ℕ}

/-- The count, whatever the number of subnodes. -/
theorem obcBlkParsePartitions_partCount (hcount : blk.partCount t = 0) :
    (obcBlkParsePartitions t nodes blk).partCount t = (min nodes.length maxPartNum : ℕ) := by
  have h := partCount_partStores nodes (Nat.zero_le _) hcount
  rwa [← obcBlkParsePartitions_eq hcount, Nat.zero_add] at h

/-- And the entries. -/
theorem obcBlkParsePartitions_part (hzero : ∀ i < maxPartNum, blk.part beyond t i = .zero)
    (hcount : blk.partCount t = 0) (h : i < nodes.length) (hi : i < maxPartNum) :
    (obcBlkParsePartitions t nodes blk).part beyond t i = nodes[i].entry := by
  have hpart := part_partStores (c := 0) h (by omega) fun j _ hj => hzero j hj
  rwa [← obcBlkParsePartitions_eq hcount, Nat.zero_add] at hpart

/-- **A `partitions` node is recorded faithfully and in bounds** exactly
when it has at most 32 subnodes. -/
theorem filledFaithfully_iff (hzero : ∀ i < maxPartNum, blk.part beyond t i = .zero)
    (hcount : blk.partCount t = 0) :
    FilledFaithfully beyond t nodes blk ↔ nodes.length ≤ maxPartNum := by
  have hbounds := inTable_partStores nodes (Nat.zero_le maxPartNum)
  rw [Nat.zero_add] at hbounds
  constructor
  · intro h
    exact hbounds.1 h.inTable
  · intro h
    have hin := hbounds.2 h
    refine ⟨obcBlkParsePartitions_partCount hcount, ?_, hin, ?_⟩
    · intro i hlt hi
      exact obcBlkParsePartitions_part hzero hcount hlt hi
    · rw [obcBlkParsePartitions_eq hcount]
      exact sameBut_foldl hin

end Fill

/-- A table of zeroes, filled from one subnode. -/
theorem filledFaithfully_one :
    FilledFaithfully (fun _ => .zero) .mmc [.mk "partition@0".toList [("bootable", [])] []]
      BoardAbilityTable.zero.stBlk :=
  (filledFaithfully_iff (by decide +kernel) rfl).2 (by decide)

/-- The subnodes of the failing tree: 33, all marked bootable. -/
def tooMany : List FdtNode :=
  List.replicate 33 (.mk "partition".toList [("bootable", [])] [])

/-- **The 33rd subnode marks the flash table's first entry**, so what the
parse writes is not confined to the table it fills. -/
theorem tooMany_marks_flash :
    (obcBlkParsePartitions .mmc tooMany BoardAbilityTable.zero.stBlk).stPartsFlash[0].flag = 1 ∧
      ¬ ∀ (t : PartTable) (nodes : List FdtNode) (blk : BoardAbilityBlk),
        (∀ i < maxPartNum, blk.part (fun _ => .zero) t i = .zero) → blk.partCount t = 0 →
          FilledFaithfully (fun _ => .zero) t nodes blk := by
  have hflag : (obcBlkParsePartitions .mmc tooMany
      BoardAbilityTable.zero.stBlk).stPartsFlash[0].flag = 1 := by
    decide +kernel
  refine ⟨hflag, fun h => ?_⟩
  have hsame := (h .mmc tooMany BoardAbilityTable.zero.stBlk (by decide +kernel) rfl).others.1
  have hflash : (obcBlkParsePartitions .mmc tooMany BoardAbilityTable.zero.stBlk).stPartsFlash =
    BoardAbilityTable.zero.stBlk.stPartsFlash := hsame
  rw [hflash] at hflag
  exact absurd hflag (by decide +kernel)

/-! ## The lookups -/

section Lookup

variable {U : UBoot} {w : World} {nodes : List FdtNode} {blk : BoardAbilityBlk}
  {pName : List Char}

/-- **A lookup finds the first label that agrees in its first 15
characters**, and fails exactly when there is none. The two lookups
agree. -/
theorem obcBlkFindPartByName_eq_some_iff
    (hw : w.stAbility.stBlk = obcBlkParsePartitions w.bootTable nodes blk)
    (hzero : ∀ i < maxPartNum, blk.part U.beyond w.bootTable i = .zero)
    (hcount : blk.partCount w.bootTable = 0) (hn : nodes.length ≤ maxPartNum) :
    (∀ i : ℕ, obcBlkFindPartByName U w pName = some i ↔
      ∃ h : i < nodes.length, nodes[i].shortLabel = pName ∧
        ∀ (j : ℕ) (hj : j < i), nodes[j].shortLabel ≠ pName) ∧
    (obcBlkFindPartByName U w pName = none ↔ ∀ n ∈ nodes, n.shortLabel ≠ pName) ∧
    obcBlkFindPartByNameEx ((obcBlkParsePartitions w.bootTable nodes blk).part U.beyond w.bootTable)
        ((obcBlkParsePartitions w.bootTable nodes blk).partCount w.bootTable) pName =
      obcBlkFindPartByName U w pName := by
  -- an entry's name is its subnode's label, as far as the field holds it
  have hnames : ∀ (j : ℕ) (h : j < nodes.length), (w.parts U j).name = nodes[j].shortLabel := by
    intro j h
    rw [World.parts, hw, obcBlkParsePartitions_part hzero hcount h (by omega), FdtNode.entry_name]
  have hlen : w.partCount.toNat = nodes.length := by
    rw [World.partCount, hw, obcBlkParsePartitions_partCount hcount, min_eq_left hn,
      Int.toNat_natCast]
  refine ⟨?_, ?_, ?_⟩
  · intro i
    rw [obcBlkFindPartByName, obcBlkFindPartByNameEx, hlen, findPart_eq_some_iff]
    constructor
    · rintro ⟨-, hi, hname, hfirst⟩
      have hlt : i < nodes.length := by omega
      refine ⟨hlt, (hnames i hlt).symm.trans hname, ?_⟩
      intro j hj
      rw [← hnames j (by omega)]
      exact hfirst j (Nat.zero_le _) hj
    · rintro ⟨hlt, hname, hfirst⟩
      refine ⟨Nat.zero_le _, by omega, (hnames i hlt).trans hname, ?_⟩
      intro j _ hj
      rw [hnames j (by omega)]
      exact hfirst j hj
  · rw [obcBlkFindPartByName, obcBlkFindPartByNameEx, hlen, findPart_eq_none_iff, Nat.zero_add,
      List.forall_mem_iff_forall_getElem]
    constructor
    · intro h j hj
      rw [← hnames j hj]
      exact h j (Nat.zero_le _) hj
    · intro h j _ hj
      rw [hnames j hj]
      exact h j hj
  · rw [obcBlkFindPartByName, World.parts, World.partCount, hw]

end Lookup

/-- A subnode with a label of 16 characters. -/
def longLabel : FdtNode :=
  .mk "partition@0".toList [("label", "calibration-data".toUTF8.toList ++ [0])] []

/-- A world whose MMC table holds that one entry. -/
def longWorld : World :=
  let w := Bench.world fun _ => 0
  { w with stAbility :=
      { w.stAbility with
        stBlk := obcBlkParsePartitions .mmc [longLabel] BoardAbilityTable.zero.stBlk } }

/-- Its entry is found under the first 15 characters. -/
theorem obcBlkFindPartByName_longLabel :
    obcBlkFindPartByName Bench.uboot longWorld "calibration-dat".toList = some 0 := by
  have hparsed : longWorld.stAbility.stBlk =
    obcBlkParsePartitions longWorld.bootTable [longLabel] BoardAbilityTable.zero.stBlk := rfl
  refine ((obcBlkFindPartByName_eq_some_iff hparsed (by decide +kernel) rfl (by decide)).1 0).2 ?_
  exact ⟨by decide, by decide +kernel, fun j hj => absurd hj (Nat.not_lt_zero j)⟩

/-- **The full label is not what counts**: the entry is found under a name
that is not its label. -/
theorem obcBlkFindPartByName_not_full_label :
    ¬ ∀ (U : UBoot) (w : World) (nodes : List FdtNode) (blk : BoardAbilityBlk) (i : ℕ)
      (pName : List Char),
      w.stAbility.stBlk = obcBlkParsePartitions w.bootTable nodes blk →
      (∀ i < maxPartNum, blk.part U.beyond w.bootTable i = .zero) →
      blk.partCount w.bootTable = 0 → nodes.length ≤ maxPartNum →
      (∀ n ∈ nodes, (n.getprop "label").isSome) →
      (obcBlkFindPartByName U w pName = some i ↔
        ∃ h : i < nodes.length, nodes[i].label = pName ∧
          ∀ (j : ℕ) (hj : j < i), nodes[j].label ≠ pName) := by
  intro h
  have hfull := h Bench.uboot longWorld [longLabel] BoardAbilityTable.zero.stBlk 0
    "calibration-dat".toList rfl (by decide +kernel) rfl (by decide) (by decide +kernel)
  have hfind : obcBlkFindPartByName Bench.uboot longWorld "calibration-dat".toList = some 0 := by
    decide +kernel
  obtain ⟨_, hlabel, -⟩ := hfull.1 hfind
  have hne : longLabel.label ≠ "calibration-dat".toList := by decide +kernel
  exact hne hlabel

end Boot

end ObcSdk
