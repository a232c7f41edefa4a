import ObcSdk.Boot.DeviceTree
/-!
# The partition parse, store by store

`obc_blk_parse_partitions` as the list of the stores it makes. Applying
them one after the other is the parse, so what the list says about
indices is what the parse writes. The entry a subnode leaves in a zeroed
table is `entry`.
-/

namespace ObcSdk

namespace Boot

/-- A store of the parse, to an entry or to the count. -/
inductive PartStore where
  | lable (i : ℕ) (s : List Char)
  | reg (i : ℕ) (addr size : UInt32)
  | flag (i : ℕ) (v : UInt8)
  | count (c : ℤ)
deriving DecidableEq

namespace PartStore

/-- A store is within the table: the count's own is, and one to an entry
is when the entry is one of the 32. -/
def InTable : PartStore → Prop
  | lable i _ | reg i _ _ | flag i _ => i < maxPartNum
  | count _ => True

/-- What a store does, in a table. -/
def apply (t : PartTable) (blk : BoardAbilityBlk) : PartStore → BoardAbilityBlk
  | lable i s => blk.setPart t i fun p => { p with lable := setCString p.lable s }
  | reg i addr size => blk.setPart t i fun p => { p with addr := addr, size := size }
  | flag i v => blk.setPart t i fun p => { p with flag := v }
  | count c => blk.setPartCount t c

end PartStore

namespace FdtNode

/-- The label a subnode brings, cut to what the field holds. -/
def lableStores (n : FdtNode) (c : ℕ) : List PartStore :=
  match n.getprop "label" with
  | some label => if c < maxPartNum then [.lable c ((chars label).take 15)] else []
  | none => []

/-- Its address and size. -/
def regStores (n : FdtNode) (c : ℕ) : List PartStore :=
  match n.getprop "reg" with
  | some reg => if c < maxPartNum ∧ 8 ≤ reg.length then [.reg c (fdt32 reg 0) (fdt32 reg 1)] else []
  | none => []

/-- Whether it is marked bootable. -/
def bootableFlag (n : FdtNode) : UInt8 := if (n.getprop "bootable").isSome then 1 else 0

/-- The stores to the entry of index `c`. -/
def stores (n : FdtNode) (c : ℕ) : List PartStore :=
  n.lableStores c ++ n.regStores c ++ [.flag c n.bootableFlag]

/-- The entry a subnode leaves where there were zeroes. -/
def entry (n : FdtNode) : BoardAbilityBlkParts where
  lable := match n.getprop "label" with
    | some label => setCString (Vector.replicate 16 '\x00') ((chars label).take 15)
    | none => Vector.replicate 16 '\x00'
  addr := match n.getprop "reg" with
    | some reg => if 8 ≤ reg.length then fdt32 reg 0 else 0
    | none => 0
  size := match n.getprop "reg" with
    | some reg => if 8 ≤ reg.length then fdt32 reg 1 else 0
    | none => 0
  flag := n.bootableFlag

end FdtNode

/-- The stores of the whole loop, `c` entries being counted at its
start. -/
def partStores : List FdtNode → ℕ → List PartStore
  | [], _ => []
  | n :: rest, c =>
    n.stores c ++ if c < maxPartNum then .count (c + 1 : ℕ) :: partStores rest (c + 1) else []

/-! ## Entries of the two tables -/

namespace BoardAbilityBlk

variable {blk : BoardAbilityBlk} {beyond : ℕ → BoardAbilityBlkParts} {t : PartTable} {i j : ℕ}
  {f : BoardAbilityBlkParts → BoardAbilityBlkParts} {c : ℤ}

/-- The table that is not `t`. -/
def otherParts (blk : BoardAbilityBlk) : PartTable → Vector BoardAbilityBlkParts maxPartNum
  | .mmc => blk.stPartsFlash
  | .flash => blk.stPartsMmc

/-- Its count. -/
def otherCount (blk : BoardAbilityBlk) : PartTable → ℤ
  | .mmc => blk.iPartCountFlash
  | .flash => blk.iPartCountMmc

/-- The two agree on everything that is not in table `t`: the other table
and its count, the read size and the default tree's address. -/
def SameBut (t : PartTable) (blk blk' : BoardAbilityBlk) : Prop :=
  blk'.otherParts t = blk.otherParts t ∧ blk'.otherCount t = blk.otherCount t ∧
    blk'.iRdSize = blk.iRdSize ∧ blk'.defFdt = blk.defFdt

theorem SameBut.refl : blk.SameBut t blk := ⟨rfl, rfl, rfl, rfl⟩

theorem SameBut.trans {blk' blk'' : BoardAbilityBlk} (h : blk.SameBut t blk')
    (h' : blk'.SameBut t blk'') : blk.SameBut t blk'' :=
  ⟨h'.1.trans h.1, h'.2.1.trans h.2.1, h'.2.2.1.trans h.2.2.1, h'.2.2.2.trans h.2.2.2⟩

/-- **A store to an entry** reads back there and nowhere else in the
table. -/
theorem part_setPart (hj : j < maxPartNum) :
    (blk.setPart t i f).part beyond t j =
      if j = i then f (blk.part beyond t i) else blk.part beyond t j := by
  by_cases hi : i < maxPartNum
  · cases t with
    | mmc =>
      simp only [setPart, part, dif_pos hi, dif_pos hj, Vector.getElem_set]
      simp only [eq_comm (a := i)]
    | flash =>
      have hi' : ¬ maxPartNum + i < maxPartNum := by omega
      have hj' : ¬ maxPartNum + j < maxPartNum := by omega
      simp only [setPart, part, dif_neg hi', dif_neg hj', Nat.add_sub_cancel_left, dif_pos hi,
        dif_pos hj, Vector.getElem_set]
      simp only [eq_comm (a := i)]
  · rw [if_neg (by omega)]
    cases t with
    | mmc =>
      simp only [setPart, dif_neg hi]
      split
      · simp only [part, dif_pos hj]
      · rfl
    | flash =>
      have hi' : ¬ maxPartNum + i < maxPartNum := by omega
      simp only [setPart, dif_neg hi', Nat.add_sub_cancel_left, dif_neg hi]

theorem sameBut_setPart (hi : i < maxPartNum) : blk.SameBut t (blk.setPart t i f) := by
  cases t with
  | mmc =>
    simp only [setPart, dif_pos hi]
    exact ⟨rfl, rfl, rfl, rfl⟩
  | flash =>
    have hi' : ¬ maxPartNum + i < maxPartNum := by omega
    simp only [setPart, dif_neg hi', Nat.add_sub_cancel_left, dif_pos hi]
    exact ⟨rfl, rfl, rfl, rfl⟩

@[simp] theorem setPart_partCount : (blk.setPart t i f).partCount t = blk.partCount t := by
  cases t <;> simp only [setPart] <;> split <;> try split
  all_goals rfl

@[simp] theorem setPartCount_partCount : (blk.setPartCount t c).partCount t = c := by
  cases t <;> rfl

@[simp] theorem part_setPartCount :
    (blk.setPartCount t c).part beyond t j = blk.part beyond t j := by
  cases t <;> rfl

theorem sameBut_setPartCount : blk.SameBut t (blk.setPartCount t c) := by
  cases t <;> exact ⟨rfl, rfl, rfl, rfl⟩

end BoardAbilityBlk

/-! ## The parse is its stores -/

section Stores

variable {blk : BoardAbilityBlk} {beyond : ℕ → BoardAbilityBlkParts} {t : PartTable}
  {nodes : List FdtNode} {n : FdtNode} {c i : ℕ}

theorem foldl_lableStores : (n.lableStores c).foldl (PartStore.apply t) blk =
    match n.getprop "label" with
    | some label =>
      if c < maxPartNum then
        blk.setPart t c fun p =>
          { p with lable := setCString p.lable ((FdtNode.chars label).take 15) }
      else blk
    | none => blk := by
  unfold FdtNode.lableStores
  cases n.getprop "label" with
  | none => rfl
  | some label =>
    simp only
    split <;> rfl

theorem foldl_regStores : (n.regStores c).foldl (PartStore.apply t) blk =
    match n.getprop "reg" with
    | some reg =>
      if c < maxPartNum ∧ 8 ≤ reg.length then
        blk.setPart t c fun p => { p with addr := fdt32 reg 0, size := fdt32 reg 1 }
      else blk
    | none => blk := by
  unfold FdtNode.regStores
  cases n.getprop "reg" with
  | none => rfl
  | some reg =>
    simp only
    split <;> rfl

/-- **The parse is the stores it makes**, one after the other. -/
theorem obcBlkParsePartitions_eq (hc : blk.partCount t = c) :
    obcBlkParsePartitions t nodes blk = (partStores nodes c).foldl (PartStore.apply t) blk := by
  induction nodes generalizing blk c with
  | nil => rfl
  | cons n rest ih =>
    have hcount : ((c : ℤ) + 1) = ((c + 1 : ℕ) : ℤ) := by omega
    simp only [obcBlkParsePartitions, hc, Int.ofNat_lt, Int.toNat_natCast, partStores,
      FdtNode.stores, List.foldl_append, foldl_lableStores, foldl_regStores, List.foldl_cons,
      List.foldl_nil]
    by_cases hroom : c < maxPartNum
    · simp only [if_pos hroom, List.foldl_cons]
      rw [ih (c := c + 1) (by rw [BoardAbilityBlk.setPartCount_partCount, hcount]), hcount]
      rfl
    · simp only [if_neg hroom, List.foldl_nil]
      rfl

/-! ## What the stores leave -/

/-- A subnode's stores leave the table's other entries. -/
theorem part_stores_of_ne (hi : i < maxPartNum) (hic : i ≠ c) :
    ((n.stores c).foldl (PartStore.apply t) blk).part beyond t i = blk.part beyond t i := by
  simp only [FdtNode.stores, List.foldl_append, foldl_lableStores, foldl_regStores,
    List.foldl_cons, List.foldl_nil, PartStore.apply, BoardAbilityBlk.part_setPart hi, if_neg hic]
  cases n.getprop "label" <;> cases n.getprop "reg" <;> simp only
  · split <;> simp only [BoardAbilityBlk.part_setPart hi, if_neg hic]
  · split <;> simp only [BoardAbilityBlk.part_setPart hi, if_neg hic]
  · split <;> split <;> simp only [BoardAbilityBlk.part_setPart hi, if_neg hic]

/-- Over zeroes they write its entry. -/
theorem part_stores_self (hc : c < maxPartNum) (hzero : blk.part beyond t c = .zero) :
    ((n.stores c).foldl (PartStore.apply t) blk).part beyond t c = n.entry := by
  simp only [FdtNode.stores, List.foldl_append, foldl_lableStores, foldl_regStores, hc, true_and,
    if_true, List.foldl_cons, List.foldl_nil, PartStore.apply, BoardAbilityBlk.part_setPart hc,
    FdtNode.entry]
  cases n.getprop "label" <;> cases n.getprop "reg" <;>
    simp only [BoardAbilityBlk.part_setPart hc, hzero, if_true]
  · rfl
  · split <;> simp only [BoardAbilityBlk.part_setPart hc, hzero, if_true] <;> rfl
  · rfl
  · split <;> simp only [BoardAbilityBlk.part_setPart hc, hzero, if_true] <;> rfl

theorem partCount_stores :
    ((n.stores c).foldl (PartStore.apply t) blk).partCount t = blk.partCount t := by
  simp only [FdtNode.stores, List.foldl_append, foldl_lableStores, foldl_regStores,
    List.foldl_cons, List.foldl_nil, PartStore.apply, BoardAbilityBlk.setPart_partCount]
  cases n.getprop "label" <;> cases n.getprop "reg" <;> simp only
  · split <;> simp only [BoardAbilityBlk.setPart_partCount]
  · split <;> simp only [BoardAbilityBlk.setPart_partCount]
  · split <;> split <;> simp only [BoardAbilityBlk.setPart_partCount]

variable (nodes) in
/-- **The count** stops at the table's length. -/
theorem partCount_partStores (hc : c ≤ maxPartNum) (hcount : blk.partCount t = c) :
    ((partStores nodes c).foldl (PartStore.apply t) blk).partCount t =
      (min (c + nodes.length) maxPartNum : ℕ) := by
  induction nodes generalizing blk c with
  | nil => rw [partStores, List.foldl_nil, hcount, List.length_nil, Nat.add_zero, min_eq_left hc]
  | cons n rest ih =>
    simp only [partStores, List.foldl_append]
    by_cases hroom : c < maxPartNum
    · rw [if_pos hroom, List.foldl_cons, PartStore.apply,
        ih (c := c + 1) hroom BoardAbilityBlk.setPartCount_partCount, List.length_cons,
        Nat.add_right_comm, Nat.add_assoc]
    · rw [if_neg hroom, List.foldl_nil, partCount_stores, hcount, List.length_cons]
      omega

/-- Entries already counted stay. -/
theorem part_partStores_of_lt (hi : i < maxPartNum) (hic : i < c) :
    ((partStores nodes c).foldl (PartStore.apply t) blk).part beyond t i = blk.part beyond t i := by
  induction nodes generalizing blk c with
  | nil => rfl
  | cons n rest ih =>
    simp only [partStores, List.foldl_append]
    split
    · rw [List.foldl_cons, PartStore.apply, ih (by omega), BoardAbilityBlk.part_setPartCount,
        part_stores_of_ne hi (by omega)]
    · rw [List.foldl_nil, part_stores_of_ne hi (by omega)]

/-- **The entries**: from index `c` on, where there were zeroes, the
subnodes in their order. -/
theorem part_partStores {k : ℕ} (hk : k < nodes.length) (hck : c + k < maxPartNum)
    (hzero : ∀ j, c ≤ j → j < maxPartNum → blk.part beyond t j = .zero) :
    ((partStores nodes c).foldl (PartStore.apply t) blk).part beyond t (c + k) =
      nodes[k].entry := by
  induction nodes generalizing blk c k with
  | nil => cases hk
  | cons n rest ih =>
    have hroom : c < maxPartNum := by omega
    rw [partStores, if_pos hroom, List.foldl_append, List.foldl_cons, PartStore.apply]
    cases k with
    | zero =>
      rw [part_partStores_of_lt hck (by omega), BoardAbilityBlk.part_setPartCount]
      exact part_stores_self hroom (hzero c le_rfl hroom)
    | succ k =>
      have hzero' : ∀ j, c + 1 ≤ j → j < maxPartNum →
          (((n.stores c).foldl (PartStore.apply t) blk).setPartCount t (c + 1 : ℕ)).part
            beyond t j = .zero := by
        intro j hcj hj
        rw [BoardAbilityBlk.part_setPartCount, part_stores_of_ne hj (by omega),
          hzero j (by omega) hj]
      have hrest := ih (c := c + 1) (k := k) (by simpa using hk) (by omega) hzero'
      rw [← Nat.add_right_comm] at hrest
      exact hrest

/-- Stores within the table touch nothing else. -/
theorem sameBut_foldl {l : List PartStore} (hl : ∀ s ∈ l, s.InTable) :
    blk.SameBut t (l.foldl (PartStore.apply t) blk) := by
  induction l generalizing blk with
  | nil => exact .refl
  | cons s rest ih =>
    have hs : blk.SameBut t (PartStore.apply t blk s) := by
      have hin : s.InTable := hl s List.mem_cons_self
      cases s with
      | lable i s => exact BoardAbilityBlk.sameBut_setPart hin
      | reg i addr size => exact BoardAbilityBlk.sameBut_setPart hin
      | flag i v => exact BoardAbilityBlk.sameBut_setPart hin
      | count c => exact BoardAbilityBlk.sameBut_setPartCount
    exact hs.trans (ih fun s' hs' => hl s' (List.mem_cons_of_mem _ hs'))

/-! ## Which indices are stored to -/

theorem inTable_stores (hc : c < maxPartNum) : ∀ s ∈ n.stores c, s.InTable := by
  intro s hs
  rw [FdtNode.stores, FdtNode.lableStores, FdtNode.regStores, List.mem_append,
    List.mem_append] at hs
  rcases hs with (hs | hs) | hs
  · split at hs
    · rw [if_pos hc, List.mem_singleton] at hs
      rw [hs]
      exact hc
    · cases hs
  · split at hs
    · split at hs
      · rw [List.mem_singleton] at hs
        rw [hs]
        exact hc
      · cases hs
    · cases hs
  · rw [List.mem_singleton] at hs
    rw [hs]
    exact hc

variable (nodes) in
/-- **Exactly the tables of at most 32 subnodes** are filled within
bounds: the subnode after them has its flag stored before the count is
looked at. -/
theorem inTable_partStores (hc : c ≤ maxPartNum) :
    (∀ s ∈ partStores nodes c, s.InTable) ↔ c + nodes.length ≤ maxPartNum := by
  induction nodes generalizing c with
  | nil => simp [partStores, hc]
  | cons n rest ih =>
    by_cases hroom : c < maxPartNum
    · have ih' := ih (c := c + 1) hroom
      rw [partStores, if_pos hroom, List.length_cons, ← Nat.add_assoc, Nat.add_right_comm, ← ih']
      constructor
      · intro h s hs
        exact h s (List.mem_append_right _ (List.mem_cons_of_mem _ hs))
      · intro h s hs
        rcases List.mem_append.1 hs with hs | hs
        · exact inTable_stores hroom s hs
        rcases List.mem_cons.1 hs with rfl | hs
        · trivial
        · exact h s hs
    · refine ⟨fun h => absurd ?_ hroom, fun h => ?_⟩
      · exact h (.flag c n.bootableFlag) (List.mem_append_left _ (List.mem_append_right _
          List.mem_cons_self))
      · rw [List.length_cons] at h
        omega

end Stores

/-! ## Labels -/

/-- What follows a NUL is not read. -/
theorem cString_append_nul {s t : List Char} : cString (s ++ '\x00' :: t) = cString s := by
  by_cases h : '\x00' ∈ s
  · exact cString_append_of_mem h
  · rw [CBuf.cString_append h, CBuf.cString_of_not_mem h]

/-- A string shorter than the field is copied with its NUL. -/
theorem terminated_setCString {n : ℕ} {old : Vector Char n} {s : List Char} (hs : s.length < n) :
    '\x00' ∈ (setCString old s).toList := by
  have hget : (setCString old s)[s.length] = '\x00' := by
    simp only [setCString, Vector.getElem_ofFn, lt_irrefl, if_true, if_false]
  rw [← hget, Vector.mem_toList_iff]
  exact Vector.getElem_mem _

/-- A string copied over zeroes is read back up to its NUL. -/
theorem cString_setCString {k : ℕ} {s : List Char} (hs : s.length < k) :
    cString (setCString (Vector.replicate k '\x00') s).toList = cString s := by
  have hlist : (setCString (Vector.replicate k '\x00') s).toList =
      s ++ '\x00' :: List.replicate (k - s.length - 1) '\x00' := by
    refine List.ext_getElem (by simp; omega) ?_
    intro i h1 h2
    simp only [setCString, Vector.getElem_toList, Vector.getElem_ofFn]
    by_cases h : i < s.length
    · rw [if_pos h, List.getElem_append_left h, List.getD_eq_getElem?_getD,
        List.getElem?_eq_getElem h, Option.getD_some]
    · have hzeroes : '\x00' :: List.replicate (k - s.length - 1) '\x00' =
        List.replicate (k - s.length - 1 + 1) '\x00' := rfl
      simp only [hzeroes, List.getElem_append_right (Nat.le_of_not_lt h), List.getElem_replicate]
      simp [h]
  rw [hlist, cString_append_nul]

namespace FdtNode

/-- A subnode's label, up to its NUL; empty when it has none. -/
def label (n : FdtNode) : List Char :=
  match n.getprop "label" with
  | some label => cString (chars label)
  | none => []

/-- What of it is recorded. -/
def shortLabel (n : FdtNode) : List Char := n.label.take 15

theorem length_take_label (label : List UInt8) : ((chars label).take 15).length < 16 := by
  rw [List.length_take]
  omega

theorem entry_terminated (n : FdtNode) : n.entry.Terminated := by
  unfold BoardAbilityBlkParts.Terminated entry
  cases n.getprop "label" with
  | none =>
    show '\x00' ∈ (Vector.replicate 16 '\x00').toList
    decide
  | some label => exact terminated_setCString (length_take_label label)

/-- **The recorded name** is the label's first 15 characters. -/
theorem entry_name (n : FdtNode) : n.entry.name = n.shortLabel := by
  rw [n.entry_terminated.name_eq]
  unfold entry shortLabel label
  cases n.getprop "label" with
  | none => rfl
  | some label =>
    rw [cString_setCString (length_take_label label)]
    exact List.take_takeWhile.symm

end FdtNode

end Boot

end ObcSdk
