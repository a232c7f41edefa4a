import Mathlib.Data.List.Basic
import Mathlib.Data.Set.BooleanAlgebra
import Mathlib.Order.CompletePartialOrder
import Mathlib.Order.Interval.Set.Basic
import ObcSdk.Lib.CString
import ObcSdk.Lib.LittleEndian
/-!
# The ability table

The partition tables U-Boot carries (`board_config.h`) and the two
lookups by label (`obc_blk_find_part_by_name` and its `_ex` variant).
The structures are packed and the flash table follows the MMC table, so
an index past an array lands in whatever is stored next; `part` says
where.
-/

namespace ObcSdk

namespace Boot

/-- `MAX_PART_NUM`. -/
abbrev maxPartNum : ℕ := 32

/-- `BOARD_ABILITY_BLK_PARTS_T`, a partition. -/
structure BoardAbilityBlkParts where
  lable : Vector Char 16
  addr : UInt32
  size : UInt32
  /-- `1` for a partition with the `bootable` property. -/
  flag : UInt8
deriving DecidableEq

namespace BoardAbilityBlkParts

/-- The bytes behind the label. -/
def behind (p : BoardAbilityBlkParts) : List UInt8 :=
  leBytes 4 p.addr.toNat ++ leBytes 4 p.size.toNat ++ [p.flag]

/-- The label, as `strcmp` and `%s` read it: up to the first NUL. Labels
are taken to be terminated; one without a NUL, which only a table from the
SPL can have, is read on into the fields behind it, to the entry's end at
the most. An entry that is printed ends in the flag `0`. -/
def name (p : BoardAbilityBlkParts) : List Char :=
  cString (p.lable.toList ++ p.behind.map fun b => Char.ofNat b.toNat)

/-- The label has a NUL among its 16 characters, and so at most 15 before
it. -/
def Terminated (p : BoardAbilityBlkParts) : Prop := '\x00' ∈ p.lable.toList

instance (p : BoardAbilityBlkParts) : Decidable p.Terminated :=
  inferInstanceAs (Decidable ('\x00' ∈ p.lable.toList))

/-- A terminated label is read the same, whatever is behind it. -/
theorem Terminated.name_eq {p : BoardAbilityBlkParts} (h : p.Terminated) :
    p.name = cString p.lable.toList :=
  cString_append_of_mem h

/-- The bytes of the medium that are the partition's. -/
def region (p : BoardAbilityBlkParts) : Set ℕ :=
  Set.Ico p.addr.toNat (p.addr.toNat + p.size.toNat)

/-- A partition of zeroes, which is what `memset` leaves. -/
def zero : BoardAbilityBlkParts := ⟨Vector.replicate 16 '\x00', 0, 0, 0⟩

end BoardAbilityBlkParts

/-- `BOARD_ABILITY_DEV_TYPE_E`: eMMC. -/
abbrev boardAbilityDevEmmc : ℕ := 0
/-- SD. -/
abbrev boardAbilityDevSd : ℕ := 1
/-- Flash. -/
abbrev boardAbilityDevFlash : ℕ := 2

/-- `OBC_SLOT_A`. -/
abbrev obcSlotA : UInt8 := 0
/-- `OBC_SLOT_B`. -/
abbrev obcSlotB : UInt8 := 1

/-- `BOARD_ABILITY_BOOT_T`. -/
structure BoardAbilityBoot where
  iBootMedia : ℕ
  iMediaId : ℕ
  /-- The slot. -/
  iPartType : UInt8
  uiFdtAddr : ℕ
  uiImageAddr : ℕ
  uiTmpAddr : ℕ

/-- `BOARD_ABILITY_BLK_T`, without the i.MX6ULL compatibility fields. -/
structure BoardAbilityBlk where
  iRdSize : ℕ
  defFdt : ℕ
  stPartsMmc : Vector BoardAbilityBlkParts maxPartNum
  stPartsFlash : Vector BoardAbilityBlkParts maxPartNum
  iPartCountMmc : ℤ
  iPartCountFlash : ℤ

/-- `BOARD_ABILITY_TABLE_T`. -/
structure BoardAbilityTable where
  magic : Vector Char 6
  stBoot : BoardAbilityBoot
  stBlk : BoardAbilityBlk

/-- The table `obc_board_init` starts from. -/
def BoardAbilityTable.zero : BoardAbilityTable where
  magic := Vector.replicate 6 '\x00'
  stBoot := ⟨0, 0, 0, 0, 0, 0⟩
  stBlk := ⟨0, 0, Vector.replicate _ .zero, Vector.replicate _ .zero, 0, 0⟩

/-- The two partition tables. -/
inductive PartTable where
  | mmc
  | flash
deriving DecidableEq

namespace BoardAbilityBlk

variable (blk : BoardAbilityBlk) (beyond : ℕ → BoardAbilityBlkParts)

/-- The entry at an index of the two adjacent arrays; `beyond` is the
memory that follows them. -/
def part (t : PartTable) (i : ℕ) : BoardAbilityBlkParts :=
  let j := match t with
    | .mmc => i
    | .flash => maxPartNum + i
  if h : j < maxPartNum then blk.stPartsMmc[j]
  else if h : j - maxPartNum < maxPartNum then blk.stPartsFlash[j - maxPartNum]
  else beyond (j - 2 * maxPartNum)

/-- The number of entries a table counts. -/
def partCount : PartTable → ℤ
  | .mmc => blk.iPartCountMmc
  | .flash => blk.iPartCountFlash

end BoardAbilityBlk

/-! ## Lookup by label -/

/-- The scan both lookups make: `n` entries, from index `i`. -/
def findPart (parts : ℕ → BoardAbilityBlkParts) (pName : List Char) : ℕ → ℕ → Option ℕ
  | 0, _ => none
  | n + 1, i => if (parts i).name = pName then some i else findPart parts pName n (i + 1)

/-- `obc_blk_find_part_by_name_ex`, `none` for `-1`. -/
def obcBlkFindPartByNameEx (parts : ℕ → BoardAbilityBlkParts) (partCount : ℤ)
    (pName : List Char) : Option ℕ :=
  findPart parts pName partCount.toNat 0

section Find

variable {parts : ℕ → BoardAbilityBlkParts} {pName : List Char} {n i j : ℕ} {c : ℤ}

theorem findPart_some (h : findPart parts pName n i = some j) :
    i ≤ j ∧ j < i + n ∧ (parts j).name = pName := by
  induction n generalizing i with
  | zero => cases h
  | succ n ih =>
    unfold findPart at h
    split at h
    · cases h
      exact ⟨le_rfl, by omega, ‹_›⟩
    · obtain ⟨h1, h2, h3⟩ := ih h
      exact ⟨by omega, by omega, h3⟩

theorem findPart_none (h : findPart parts pName n i = none) (hi : i ≤ j) (hj : j < i + n) :
    (parts j).name ≠ pName := by
  induction n generalizing i with
  | zero => omega
  | succ n ih =>
    unfold findPart at h
    split at h
    · cases h
    · rcases Nat.eq_or_lt_of_le hi with rfl | hlt
      · assumption
      · exact ih h hlt (by omega)

/-- The scan finds the first entry of that label. -/
theorem findPart_eq_some_iff : findPart parts pName n i = some j ↔
    i ≤ j ∧ j < i + n ∧ (parts j).name = pName ∧ ∀ k, i ≤ k → k < j → (parts k).name ≠ pName := by
  -- on the entries left to scan: the one at hand is the first, or the rest decides
  induction n generalizing i with
  | zero =>
    constructor
    · intro h
      cases h
    · omega
  | succ n ih =>
    unfold findPart
    split
    · rename_i hi
      constructor
      · intro h
        cases h
        exact ⟨le_rfl, by omega, hi, fun k h1 h2 => by omega⟩
      · rintro ⟨hij, -, -, hfirst⟩
        rcases Nat.eq_or_lt_of_le hij with rfl | hlt
        · rfl
        · exact absurd hi (hfirst i le_rfl hlt)
    · rename_i hi
      rw [ih]
      constructor
      · rintro ⟨h1, h2, h3, hfirst⟩
        refine ⟨by omega, by omega, h3, ?_⟩
        intro k hik hkj
        rcases Nat.eq_or_lt_of_le hik with rfl | hlt
        · exact hi
        · exact hfirst k hlt hkj
      · rintro ⟨h1, h2, h3, hfirst⟩
        have hne : i ≠ j := by
          rintro rfl
          exact hi h3
        exact ⟨by omega, by omega, h3, fun k hik hkj => hfirst k (by omega) hkj⟩

theorem findPart_eq_none_iff : findPart parts pName n i = none ↔
    ∀ k, i ≤ k → k < i + n → (parts k).name ≠ pName := by
  refine ⟨fun h k h1 h2 => findPart_none h h1 h2, fun h => ?_⟩
  cases hf : findPart parts pName n i with
  | none => rfl
  | some j =>
    obtain ⟨h1, h2, h3⟩ := findPart_some hf
    exact absurd h3 (h j h1 h2)

/-- **What a lookup finds** is counted and carries the label. -/
theorem obcBlkFindPartByNameEx_some (h : obcBlkFindPartByNameEx parts c pName = some j) :
    (j : ℤ) < c ∧ (parts j).name = pName := by
  obtain ⟨-, h2, h3⟩ := findPart_some h
  exact ⟨by omega, h3⟩

/-- **Lookup of a label only one entry has.** -/
theorem obcBlkFindPartByNameEx_eq (hj : (j : ℤ) < c) (hname : (parts j).name = pName)
    (huniq : ∀ k : ℕ, (k : ℤ) < c → (parts k).name = pName → k = j) :
    obcBlkFindPartByNameEx parts c pName = some j := by
  cases hf : obcBlkFindPartByNameEx parts c pName with
  | none => exact absurd hname (findPart_none hf (Nat.zero_le _) (by omega))
  | some k =>
    obtain ⟨hk, hkn⟩ := obcBlkFindPartByNameEx_some hf
    rw [huniq k hk hkn]

end Find

/-! ## Tables of disjoint, block-aligned partitions -/

/-- A partition that starts and ends on a block boundary. -/
def BlockAligned (bsz : ℕ) (p : BoardAbilityBlkParts) : Prop :=
  bsz ∣ p.addr.toNat ∧ bsz ∣ p.size.toNat

/-- A word a block length divides is that many blocks. -/
theorem div_mul_toNat {a b : UInt32} (h : a % b = 0) : (a / b).toNat * b.toNat = a.toNat := by
  have hmod : a.toNat % b.toNat = 0 := by
    rw [← UInt32.toNat_mod, h]
    rfl
  rw [UInt32.toNat_div, Nat.div_mul_cancel (Nat.dvd_of_mod_eq_zero hmod)]

/-- The first `c` entries lie on block boundaries and no two share a
byte. -/
structure WellLaid (bsz : ℕ) (parts : ℕ → BoardAbilityBlkParts) (c : ℤ) : Prop where
  aligned : ∀ i : ℕ, (i : ℤ) < c → BlockAligned bsz (parts i)
  disjoint : ∀ i j : ℕ, (i : ℤ) < c → (j : ℤ) < c → i ≠ j →
    Disjoint (parts i).region (parts j).region

/-- Two labels found name disjoint partitions. -/
theorem WellLaid.disjoint_of_find {bsz : ℕ} {parts : ℕ → BoardAbilityBlkParts} {c : ℤ}
    (hw : WellLaid bsz parts c) {a b : List Char} {i j : ℕ} (hab : a ≠ b)
    (hi : obcBlkFindPartByNameEx parts c a = some i)
    (hj : obcBlkFindPartByNameEx parts c b = some j) :
    Disjoint (parts i).region (parts j).region := by
  obtain ⟨hic, hia⟩ := obcBlkFindPartByNameEx_some hi
  obtain ⟨hjc, hjb⟩ := obcBlkFindPartByNameEx_some hj
  refine hw.disjoint i j hic hjc fun hij => hab ?_
  rw [← hia, ← hjb, hij]

end Boot

end ObcSdk
