import ObcSdk.Boot.Partitions
import ObcSdk.Properties.BootChain
/-!
# The table at the hand-over

After `am62x_board_fdt_init` the ability table is what every lookup,
every display and the kernel's arguments go by, and none of them looks
at its counts again. A table parsed out of a device tree is sound,
whatever the tree, and so are the two default entries. A table the SPL
left in memory is taken over behind a check of its magic alone: it is as
sound as it was left.
-/

namespace ObcSdk

namespace Boot

/-! ## Sound tables -/

/-- The entries of a table. -/
def BoardAbilityBlk.parts (b : BoardAbilityBlk) :
    PartTable → Vector BoardAbilityBlkParts maxPartNum
  | .mmc => b.stPartsMmc
  | .flash => b.stPartsFlash

/-- The entries counted are entries of the table, with their labels
terminated. -/
structure BoardAbilityBlk.Sound (b : BoardAbilityBlk) : Prop where
  count : ∀ t, 0 ≤ b.partCount t ∧ b.partCount t ≤ maxPartNum
  label : ∀ t (i : ℕ) (h : i < maxPartNum), (i : ℤ) < b.partCount t → (b.parts t)[i].Terminated

/-- And the slot is one of the two. -/
structure BoardAbilityTable.Sound (t : BoardAbilityTable) : Prop where
  blk : t.stBlk.Sound
  slot : t.stBoot.iPartType = obcSlotA ∨ t.stBoot.iPartType = obcSlotB

section Sound

variable {U : UBoot} {w : World} {b : BoardAbilityBlk} {t : PartTable}
  {f : BoardAbilityBlkParts → BoardAbilityBlkParts} {beyond beyond' : ℕ → BoardAbilityBlkParts}

/-- An entry of a table, whatever lies behind the arrays. -/
theorem BoardAbilityBlk.part_of_lt {i : ℕ} (hlt : i < maxPartNum) :
    b.part beyond t i = (b.parts t)[i] := by
  cases t with
  | mmc => simp only [BoardAbilityBlk.part, dif_pos hlt, BoardAbilityBlk.parts]
  | flash =>
    have hne : ¬ maxPartNum + i < maxPartNum := by omega
    simp only [BoardAbilityBlk.part, dif_neg hne, Nat.add_sub_cancel_left, dif_pos hlt,
      BoardAbilityBlk.parts]

theorem findPart_congr {parts parts' : ℕ → BoardAbilityBlkParts} {pName : List Char} {n i : ℕ}
    (h : ∀ j, j < i + n → parts j = parts' j) :
    findPart parts pName n i = findPart parts' pName n i := by
  induction n generalizing i with
  | zero => rfl
  | succ n ih =>
    rw [findPart, findPart, h i (by omega), ih fun j hj => h j (by omega)]

/-- **A lookup in a sound table** stays inside its arrays. -/
theorem BoardAbilityBlk.Sound.lookup (h : b.Sound) (pName : List Char) :
    obcBlkFindPartByNameEx (b.part beyond t) (b.partCount t) pName =
      obcBlkFindPartByNameEx (b.part beyond' t) (b.partCount t) pName := by
  refine findPart_congr ?_
  intro i hi
  have hlt : i < maxPartNum := by
    have hc := (h.count t).2
    omega
  rw [BoardAbilityBlk.part_of_lt hlt, BoardAbilityBlk.part_of_lt hlt]

/-! ## Parsed tables -/

/-- What a parse keeps: the counts in range and every label terminated,
that of an entry not counted yet too. -/
structure Parsed (b : BoardAbilityBlk) : Prop where
  count : ∀ t, 0 ≤ b.partCount t ∧ b.partCount t ≤ maxPartNum
  label : ∀ t (i : ℕ) (h : i < maxPartNum), (b.parts t)[i].Terminated

theorem Parsed.sound (h : Parsed b) : b.Sound := ⟨h.count, fun t i hi _ => h.label t i hi⟩

/-- A store to an entry, wherever it lands, that leaves its label
terminated. -/
theorem Parsed.setPart (h : Parsed b) (hf : ∀ p, p.Terminated → (f p).Terminated) {i : ℕ} :
    Parsed (b.setPart t i f) := by
  have hset : ∀ (v : Vector BoardAbilityBlkParts maxPartNum) (j : ℕ) (hj : j < maxPartNum),
      (∀ (k : ℕ) (hk : k < maxPartNum), v[k].Terminated) →
      ∀ (k : ℕ) (hk : k < maxPartNum), (v.set j (f v[j]))[k].Terminated := by
    intro v j hj hv k hk
    rw [Vector.getElem_set]
    split
    · exact hf _ (hv j hj)
    · exact hv k hk
  have hcount : ∀ b' : BoardAbilityBlk, (∀ t, b'.partCount t = b.partCount t) →
      ∀ t, 0 ≤ b'.partCount t ∧ b'.partCount t ≤ maxPartNum := by
    intro b' heq t
    rw [heq t]
    exact h.count t
  -- the store lands in the MMC table, in the flash table behind it, or past both
  unfold BoardAbilityBlk.setPart
  extract_lets j
  by_cases hmmc : j < maxPartNum
  · rw [dif_pos hmmc]
    refine ⟨hcount _ fun t => by cases t <;> rfl, ?_⟩
    intro t k hk
    cases t with
    | mmc => exact hset _ _ _ (h.label .mmc) k hk
    | flash => exact h.label .flash k hk
  rw [dif_neg hmmc]
  by_cases hflash : j - maxPartNum < maxPartNum
  · rw [dif_pos hflash]
    refine ⟨hcount _ fun t => by cases t <;> rfl, ?_⟩
    intro t k hk
    cases t with
    | mmc => exact h.label .mmc k hk
    | flash => exact hset _ _ _ (h.label .flash) k hk
  · rw [dif_neg hflash]
    exact h

theorem Parsed.setPartCount (h : Parsed b) {c : ℤ} (hc : 0 ≤ c ∧ c ≤ maxPartNum) :
    Parsed (b.setPartCount t c) := by
  constructor
  · intro t'
    cases t with
    | mmc =>
      cases t' with
      | mmc => exact hc
      | flash => exact h.count .flash
    | flash =>
      cases t' with
      | mmc => exact h.count .mmc
      | flash => exact hc
  · intro t'
    have hparts : (b.setPartCount t c).parts t' = b.parts t' := by
      cases t <;> cases t' <;> rfl
    rw [hparts]
    exact h.label t'

/-- A store of the parse fits: the label with its NUL, the count in the
table's range. -/
def PartStore.Fits : PartStore → Prop
  | lable _ s => s.length < 16
  | reg _ _ _ | flag _ _ => True
  | count c => 0 ≤ c ∧ c ≤ maxPartNum

/-- One store. -/
theorem Parsed.apply (h : Parsed b) {s : PartStore} (hs : s.Fits) : Parsed (s.apply t b) := by
  cases s with
  | lable i l =>
    have hl : l.length < 16 := hs
    simp only [PartStore.apply]
    refine h.setPart ?_
    intro p _
    exact terminated_setCString hl
  | reg i addr size =>
    simp only [PartStore.apply]
    refine h.setPart ?_
    intro p hp
    exact hp
  | flag i v =>
    simp only [PartStore.apply]
    refine h.setPart ?_
    intro p hp
    exact hp
  | count c => exact h.setPartCount hs

theorem fits_stores {n : FdtNode} {c : ℕ} : ∀ s ∈ n.stores c, s.Fits := by
  intro s hs
  rw [FdtNode.stores, FdtNode.lableStores, FdtNode.regStores, List.mem_append,
    List.mem_append] at hs
  rcases hs with (hs | hs) | hs
  · split at hs
    · split at hs
      · rw [List.mem_singleton] at hs
        rw [hs, PartStore.Fits, List.length_take]
        omega
      · cases hs
    · cases hs
  · split at hs
    · split at hs
      · rw [List.mem_singleton] at hs
        rw [hs]
        trivial
      · cases hs
    · cases hs
  · rw [List.mem_singleton] at hs
    rw [hs]
    trivial

/-- All of a parse's stores fit: the count is stored only below the
table's end. -/
theorem fits_partStores {nodes : List FdtNode} {c : ℕ} : ∀ s ∈ partStores nodes c, s.Fits := by
  induction nodes generalizing c with
  | nil => exact fun _ h => nomatch h
  | cons n rest ih =>
    intro s hs
    rw [partStores, List.mem_append] at hs
    rcases hs with hs | hs
    · exact fits_stores s hs
    by_cases hroom : c < maxPartNum
    · rw [if_pos hroom, List.mem_cons] at hs
      rcases hs with rfl | hs
      · exact ⟨by omega, by omega⟩
      · exact ih s hs
    · rw [if_neg hroom] at hs
      cases hs

/-- **A parse keeps its table sound**, whatever the subnodes. -/
theorem Parsed.parsePartitions (h : Parsed b) {nodes : List FdtNode} :
    Parsed (obcBlkParsePartitions t nodes b) := by
  obtain ⟨c, hc⟩ := Int.eq_ofNat_of_zero_le (h.count t).1
  rw [obcBlkParsePartitions_eq hc]
  have hfits : ∀ s ∈ partStores nodes c, s.Fits := fits_partStores
  -- store by store, whatever count the parse started from
  clear hc
  generalize partStores nodes c = stores at hfits
  induction stores generalizing b with
  | nil => exact h
  | cons s rest ih =>
    exact ih (h.apply (hfits s List.mem_cons_self)) fun s' hs' =>
      hfits s' (List.mem_cons_of_mem _ hs')

theorem Parsed.parseFdt (h : Parsed b) {pHostName : List Char} {root : FdtNode} :
    Parsed (obcBlkParseFdt pHostName root b) := by
  unfold obcBlkParseFdt
  split
  · exact h
  split
  · exact h
  split
  · exact h.parsePartitions
  split
  · exact h.parsePartitions
  · exact h

/-- **Tables parsed anew are sound**, whatever the device tree. -/
theorem parseTables_sound {root : FdtNode} : (parseTables root b).Sound := by
  have hzero : Parsed { b with
      iPartCountMmc := 0
      iPartCountFlash := 0
      stPartsMmc := Vector.replicate _ .zero
      stPartsFlash := Vector.replicate _ .zero } := by
    refine ⟨fun t => by cases t <;> exact ⟨le_rfl, Int.natCast_nonneg _⟩, ?_⟩
    intro t i hi
    have hterm : BoardAbilityBlkParts.zero.Terminated := by decide
    cases t <;> simpa only [BoardAbilityBlk.parts, Vector.getElem_replicate] using hterm
  exact (hzero.parseFdt.parseFdt).sound

/-! ## The table that is handed over -/

/-- The two entries made up have their labels. -/
theorem defaultFdtParts_label {i : ℕ} (hi : i < maxPartNum) (hc : i < 2) :
    ((defaultFdtParts b).parts .mmc)[i].Terminated := by
  have hname : ∀ {old : Vector Char 16} {n : ℕ}, '\x00' ∈ (setCString old (fdtName n)).toList :=
    terminated_setCString (by unfold fdtName; split <;> decide)
  have hcount : ∀ b' : BoardAbilityBlk,
      { b' with iPartCountMmc := 2 } = b'.setPartCount .mmc 2 := fun _ => rfl
  have hpart : ((defaultFdtParts b).parts .mmc)[i] =
      (defaultFdtParts b).part (fun _ => .zero) .mmc i := (BoardAbilityBlk.part_of_lt hi).symm
  rw [hpart, defaultFdtParts, hcount,
    BoardAbilityBlk.part_setPartCount, BoardAbilityBlk.part_setPart hi,
    BoardAbilityBlk.part_setPart (by decide), BoardAbilityBlk.part_setPart hi]
  unfold BoardAbilityBlkParts.Terminated
  by_cases h1 : i = 1
  · rw [if_pos h1]
    exact hname
  · rw [if_neg h1, if_pos (by omega)]
    exact hname

/-- The two default entries are as sound as a table that counts none. -/
theorem defaultFdt_sound {t : BoardAbilityTable} :
    (defaultFdt t).stBlk.Sound ↔ t.stBlk.Sound := by
  unfold defaultFdt
  split
  swap
  · rfl
  rename_i hmmc
  -- a table that counts none is sound as to its entries, and they are replaced
  constructor
  · intro h
    constructor
    · intro t'
      cases t' with
      | mmc =>
        rw [BoardAbilityBlk.partCount, hmmc]
        exact ⟨le_rfl, Int.natCast_nonneg _⟩
      | flash => exact h.count .flash
    · intro t' i hi hc
      cases t' with
      | mmc =>
        rw [BoardAbilityBlk.partCount, hmmc] at hc
        omega
      | flash => exact h.label .flash i hi hc
  · intro h
    constructor
    · intro t'
      cases t' with
      | mmc => exact ⟨Int.zero_le_ofNat 2, Int.ofNat_le.2 (Nat.le_add_left 2 30)⟩
      | flash => exact h.count .flash
    · intro t' i hi hc
      cases t' with
      | mmc => exact defaultFdtParts_label hi (Int.ofNat_lt.1 hc)
      | flash => exact h.label .flash i hi hc

/-- What is taken over is as sound as it is there. -/
theorem takeShmem_sound {shmem t : BoardAbilityTable} :
    (takeShmem shmem t).stBlk.Sound ↔ shmem.stBlk.Sound := by
  have hcount : ∀ t', (takeShmem shmem t).stBlk.partCount t' = shmem.stBlk.partCount t' :=
    fun t' => by cases t' <;> rfl
  have hparts : ∀ t', (takeShmem shmem t).stBlk.parts t' = shmem.stBlk.parts t' :=
    fun t' => by cases t' <;> rfl
  constructor
  · rintro ⟨h₁, h₂⟩
    simp only [hcount, hparts] at h₁ h₂
    exact ⟨h₁, h₂⟩
  · rintro ⟨h₁, h₂⟩
    constructor
    · simpa only [hcount] using h₁
    · simpa only [hcount, hparts] using h₂

/-- The table with which `am62x_board_fdt_init` returns, after the
hardware's and the environment's steps of a boot. -/
def handedOver (U : UBoot) (w : World) : BoardAbilityTable :=
  (am62xBoardFdtInit U (beforeFdt U w)).2.stAbility

/-- A boot starts from one of the two slots. -/
theorem bootSlot_le {d : BlkDesc} :
    bootSlot U w d = obcSlotA ∨ bootSlot U w d = obcSlotB := by
  rw [bootSlot, obcSlotRead]
  simp only [World.withDev_gstBlkDev]
  split
  · exact Or.inl rfl
  · exact decodeSlot_le _

/-- What the hardware's step leaves in the table for it. -/
theorem beforeFdt_stAbility :
    (beforeFdt U w).stAbility.stBoot.FromMmc ∧
      ((beforeFdt U w).stAbility.stBoot.iPartType = obcSlotA ∨
        (beforeFdt U w).stAbility.stBoot.iPartType = obcSlotB) ∧
      (beforeFdt U w).stAbility.stBlk.Sound := by
  have henv : Aside (am62xBoardHwInit U (w.withAbility .zero)).2 (beforeFdt U w) :=
    am62xBoardEnvInit_aside
  have hzero : ∀ b : BoardAbilityBlk, (∀ t, b.partCount t = 0) → b.Sound := by
    intro b hb
    refine ⟨fun t => by rw [hb]; decide, fun t i _ hi => ?_⟩
    rw [hb] at hi
    omega
  rw [henv.stAbility]
  rcases am62xBoardHwInit_cases (U := U) (w := w.withAbility .zero) with
    ⟨d, hup⟩ | ⟨t, dev, n, hr, ⟨hmmc, hslot, hblk⟩, -⟩
  · rw [am62xBoardHwInit_up hup]
    refine ⟨upTable_fromMmc, ?_, hzero _ fun t => by cases t <;> rfl⟩
    exact bootSlot_le
  · rw [hr]
    rw [World.withAbility_stAbility, hblk]
    exact ⟨hmmc, Or.inl hslot, hzero _ fun t' => by cases t' <;> rfl⟩

/-- The table a boot goes on with: the kernel's, or after a failure the
device tree's. -/
theorem am62xBoardFdtInit_stAbility (h : w.stAbility.stBoot.FromMmc) :
    (am62xBoardFdtInit U w).2.stAbility = fdtTable U w.stAbility ∨
      ∃ m, (am62xBoardFdtInit U w).2.stAbility = kernelTable U m w.stAbility := by
  rw [am62xBoardFdtInit_eq h rfl]
  split
  · refine Or.inl ?_
    obtain ⟨l, cs, n, hadv, -⟩ := obcSlotWrite_minor (U := U)
      (w := (fdtRead U (w.withAbility (fdtTable U w.stAbility))).2.advance []
        [.stage .fdtLoad (fdtRead U (w.withAbility (fdtTable U w.stAbility))).1] 0)
      (nextSlot (fdtSlot U w.stAbility))
    obtain ⟨m, cs', n', hload, -⟩ := fdtRead_loaded (U := U)
      (w := w.withAbility (fdtTable U w.stAbility))
    rw [obcSlotSwitch, hadv, World.advance_stAbility, World.advance_stAbility, hload]
    rfl
  · exact Or.inr ⟨_, rfl⟩

/-- The slot it names. -/
theorem handedOver_iPartType :
    (handedOver U w).stBoot.iPartType = fdtSlot U (beforeFdt U w).stAbility := by
  rw [handedOver]
  rcases am62xBoardFdtInit_stAbility (U := U) (beforeFdt_stAbility (U := U) (w := w)).1 with
    h | ⟨m, h⟩
  · rw [h, fdtTable_stBoot]
  · rw [h, kernelTable_stBoot]

/-- The SPL's entries, where its magic is there. -/
theorem handedOver_of_shmem (hs : U.ShmemValid) :
    (handedOver U w).stBlk.Sound ↔ U.shmem.stBlk.Sound := by
  have hfdt : (fdtTable U (beforeFdt U w).stAbility).stBlk.Sound ↔ U.shmem.stBlk.Sound := by
    rw [fdtTable, if_pos hs, defaultFdt_sound]
    exact takeShmem_sound
  rw [handedOver]
  rcases am62xBoardFdtInit_stAbility (U := U) (beforeFdt_stAbility (U := U) (w := w)).1 with
    h | ⟨m, h⟩
  · rw [h, hfdt]
  · rw [h, kernelTable, if_pos hs, hfdt]

/-- The default entries or the device tree's, where it is not. -/
theorem handedOver_of_not_shmem (hs : ¬ U.ShmemValid) : (handedOver U w).stBlk.Sound := by
  obtain ⟨hmmc, -, hblk⟩ := beforeFdt_stAbility (U := U) (w := w)
  rw [handedOver]
  -- a read that fails leaves the default entries, one that does not the tables parsed
  rcases am62xBoardFdtInit_stAbility (U := U) hmmc with h | ⟨m, h⟩
  · rw [h, fdtTable, if_neg hs, defaultFdt_sound]
    exact hblk
  · rw [h, kernelTable, if_neg hs]
    exact parseTables_sound

/-- **The table is sound** exactly when the SPL's is, where its magic is
there. -/
theorem handedOver_sound_iff : (handedOver U w).Sound ↔ (U.ShmemValid → U.shmem.Sound) := by
  have hslot := (beforeFdt_stAbility (U := U) (w := w)).2.1
  have htype := handedOver_iPartType (U := U) (w := w)
  by_cases hs : U.ShmemValid
  · rw [fdtSlot, if_pos hs] at htype
    constructor
    · intro h _
      exact ⟨(handedOver_of_shmem hs).1 h.blk, htype ▸ h.slot⟩
    · intro h
      exact ⟨(handedOver_of_shmem hs).2 (h hs).blk, htype ▸ (h hs).slot⟩
  · rw [fdtSlot, if_neg hs] at htype
    exact ⟨fun _ h => absurd h hs, fun _ => ⟨handedOver_of_not_shmem hs, htype ▸ hslot⟩⟩

end Sound

/-! ## A table too long -/

section Overfull

open Bench

/-- U-Boot behind an SPL whose table counts 33 partitions. -/
def overfull : UBoot :=
  { uboot with shmem := { ability with stBlk := { ability.stBlk with iPartCountMmc := 33 } } }

/-- The count is taken over. -/
theorem not_sound_overfull : ¬ (handedOver overfull (world fun _ => 0)).Sound := by
  intro h
  have hs : overfull.ShmemValid := by decide
  have hcount := ((handedOver_of_shmem hs).1 h.blk).count .mmc
  exact absurd hcount.2 (by decide)

end Overfull

end Boot

end ObcSdk
