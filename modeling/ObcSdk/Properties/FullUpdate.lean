import ObcSdk.Properties.CrashSafety
/-!
# A full update cut short

`updatex up all` updates five components in turn. At any stop there is
one component it is at: those before it are new in both slots, those
after it old in both, and of the two copies of the one it is at one is
whole. So a slot of one release is there until the loader's first copy
is complete and from when the root file system's is, and not in between:
the command goes component by component and not slot by slot.
-/

namespace ObcSdk

namespace Boot

variable {U : UBoot} {w w₁ : World} {dev : ℕ} {c : UpdatexFileType} {slot : Char}
  {fileSize : Int32} {r : ℤ × World} {m : ℕ → Store UInt8} {mem : Store UInt8}
  {src : UpdatexType} {ts : List UpdatexFileType}

/-! ## One component -/

variable (c src) in
/-- A download writes no block. -/
theorem doUpdatexUpGetfile_logged : Logged w (doUpdatexUpGetfile U w c src).2 [] := by
  have self : Logged w w [] := ⟨rfl, (List.append_nil _).symm, rfl, rfl⟩
  simp only [doUpdatexUpGetfile]
  split
  · exact self
  split
  · split <;> exact logged_loaded
  · split <;> exact logged_loaded
  · exact self

variable (src) in
/-- What the command does for a component: nothing to the media, or the
update of a download. -/
theorem doUpdatexUp_cases (hU : U.WritesSparse) (hc : c ≠ .none) :
    (Logged w (doUpdatexUp U w c src).2 [] ∧ (doUpdatexUp U w c src).1 ≠ 0) ∨
    ∃ w₁ fileSize, doUpdatexUpGetfile U w c src = (some fileSize, w₁) ∧
      Updated U w₁ w₁.gIUpDevType c fileSize (doUpdatexUp U w c src) := by
  have hlog := doUpdatexUpGetfile_logged (U := U) (w := w) c src
  obtain ⟨g, hg⟩ : ∃ g, doUpdatexUpGetfile U w c src = g := ⟨_, rfl⟩
  obtain ⟨o, w₁⟩ := g
  rw [hg] at hlog
  simp only [doUpdatexUp, hg]
  cases o with
  | none => exact Or.inl ⟨hlog, by simp⟩
  | some fileSize =>
    simp only []
    split
    · rename_i hdev
      exact Or.inr ⟨w₁, fileSize, rfl, hdev ▸ doUpdatexEmmcWritefile_updated (fun _ => hU) hc⟩
    split
    · rename_i hdev
      exact Or.inr ⟨w₁, fileSize, rfl, hdev ▸ doUpdatexSdRawWritefile_updated (fun _ => hU) hc⟩
    · exact Or.inl ⟨hlog, by simp⟩

/-- A download of a component leaves `mem` in memory and `fileSize` as
its size. -/
def Downloaded (U : UBoot) (src : UpdatexType) (c : UpdatexFileType) (mem : Store UInt8)
    (fileSize : Int32) : Prop :=
  ∃ w w', doUpdatexUpGetfile U w c src = (some fileSize, w') ∧ w'.mem = mem

/-- Copies of a component hold a download of it. -/
def Renewed (U : UBoot) (w : World) (src : UpdatexType) (dev : ℕ) (c : UpdatexFileType)
    (slots : List Char) (m : ℕ → Store UInt8) : Prop :=
  ∃ mem fileSize, Downloaded U src c mem fileSize ∧
    ∀ slot ∈ slots, CopyNew U (w.loaded mem [] 0) dev c slot fileSize m

section Later

variable {slots : List Char}

theorem mmcParts_eq (ha : w₁.stAbility = w.stAbility) : w₁.mmcParts U = w.mmcParts U := by
  rw [World.mmcParts, ha]
  rfl

theorem findMmc_eq {pName : List Char} (ha : w₁.stAbility = w.stAbility) :
    w₁.findMmc U pName = w.findMmc U pName := by
  rw [World.findMmc, mmcParts_eq ha, ha]
  rfl

theorem LaidOut.later (ha : w₁.stAbility = w.stAbility) (h : LaidOut U w) : LaidOut U w₁ := by
  refine ⟨by rw [ha]; exact h.rdSize, ?_⟩
  rw [mmcParts_eq ha, ha]
  exact h.wellLaid

/-- What stayed up to a world and from it on stayed throughout. -/
theorem CopyOld.trans (ha : w₁.stAbility = w.stAbility) (h : CopyOld U w dev c slot w₁.disk)
    (h' : CopyOld U w₁ dev c slot m) : CopyOld U w dev c slot m := by
  intro i hi
  have hstay := h' i (by rw [findMmc_eq ha, hi])
  rw [mmcParts_eq ha] at hstay
  exact hstay.trans (h i hi)

/-- What is new is told from the tables, the memory and what the copy
held. -/
theorem CopyNew.of_agree (hm : w₁.mem = mem) (ha : w₁.stAbility = w.stAbility)
    (hold : CopyOld U w dev c slot w₁.disk) (h : CopyNew U w₁ dev c slot fileSize m) :
    CopyNew U (w.loaded mem [] 0) dev c slot fileSize m := by
  obtain ⟨i, d, p, hi, hd, hp, heq⟩ := h
  rw [findMmc_eq ha] at hi
  rw [mmcParts_eq ha] at heq
  refine ⟨i, d, p, hi, hd, ?_, ?_⟩
  · rw [← hp]
    exact mmcWritePlan_congr w₁ (w.loaded mem [] 0) hm.symm ha.symm
  · intro x hx
    rw [World.loaded_disk, heq hx]
    exact Journal.replay_congr (hold i hi hx)

/-- What was new in a world stays so while its copy does. -/
theorem CopyNew.stay (ha : w₁.stAbility = w.stAbility)
    (h : CopyNew U (w.loaded mem [] 0) dev c slot fileSize w₁.disk)
    (h' : CopyOld U w₁ dev c slot m) : CopyNew U (w.loaded mem [] 0) dev c slot fileSize m := by
  obtain ⟨i, d, p, hi, hd, hp, heq⟩ := h
  have hstay := h' i (by rw [findMmc_eq ha]; exact hi)
  rw [mmcParts_eq ha] at hstay
  exact ⟨i, d, p, hi, hd, hp, hstay.trans heq⟩

/-- A renewal seen from a later world is one seen from an earlier. -/
theorem Renewed.of_later (ha : w₁.stAbility = w.stAbility)
    (hold : ∀ slot, CopyOld U w dev c slot w₁.disk) (h : Renewed U w₁ src dev c slots m) :
    Renewed U w src dev c slots m := by
  obtain ⟨mem, fileSize, hdown, hnew⟩ := h
  refine ⟨mem, fileSize, hdown, fun slot hs => CopyNew.of_agree rfl ?_ ?_ (hnew slot hs)⟩
  · rw [World.loaded_stAbility, ha]
  · rw [World.loaded_disk]
    exact hold slot

end Later

variable (src) in
/-- **What the command does for one component.** -/
theorem doUpdatexUp_spec (hU : U.WritesSparse) (hc : c ≠ .none) (hlaid : LaidOut U w) :
    (∃ l, Logged w (doUpdatexUp U w c src).2 l) ∧
    (∀ m, Cut w (doUpdatexUp U w c src).2 m →
      (∀ c', c ≠ c' → ∀ slot, CopyOld U w w.gIUpDevType c' slot m) ∧
      (CopyOld U w w.gIUpDevType c '1' m ∨ Renewed U w src w.gIUpDevType c ['0'] m)) ∧
    ((doUpdatexUp U w c src).1 = 0 →
      Renewed U w src w.gIUpDevType c ['0', '1'] (doUpdatexUp U w c src).2.disk) := by
  obtain ⟨hlog, hne⟩ | ⟨w₁, fileSize, hget, hup⟩ := doUpdatexUp_cases (w := w) src hU hc
  · refine ⟨⟨_, hlog⟩, ?_, fun h0 => absurd h0 hne⟩
    intro m hcut
    obtain ⟨q, hq, rfl⟩ := hlog.cut_iff.1 hcut
    obtain rfl := List.prefix_nil.1 hq
    exact ⟨fun _ _ _ _ _ _ _ => rfl, Or.inl fun _ _ _ _ => rfl⟩
  have hlog := doUpdatexUpGetfile_logged (U := U) (w := w) c src
  rw [hget] at hlog
  have hdisk : w₁.disk = w.disk := by rw [hlog.disk]; rfl
  have hold : ∀ c' slot, CopyOld U w w.gIUpDevType c' slot w₁.disk := by
    intro c' slot _ _
    rw [hdisk]; exact fun _ _ => rfl
  have hlaid₁ : LaidOut U w₁ := hlaid.later hlog.stAbility
  have hdown : Downloaded U src c w₁.mem fileSize := ⟨w, w₁, hget, rfl⟩
  rw [hlog.gIUpDevType] at hup
  -- the blocks of the command are those of the update, the download having none
  obtain ⟨l, hw, -⟩ := id hup
  refine ⟨⟨_, hlog.trans hw.toLogged⟩, ?_, ?_⟩
  · intro m hcut
    have hcut₁ : Cut w₁ (doUpdatexUp U w c src).2 m := by
      obtain ⟨q, hq, rfl⟩ := (hlog.trans hw.toLogged).cut_iff.1 hcut
      exact hw.cut_iff.2 ⟨q, hq, by rw [hdisk]⟩
    constructor
    · intro c' hc' slot
      exact (hold c' slot).trans hlog.stAbility (hup.frame hlaid₁ hcut₁ hc')
    · refine (hup.crash_safe hlaid₁ hcut₁).imp ?_ ?_
      · exact (hold c '1').trans hlog.stAbility
      · intro h
        refine ⟨w₁.mem, fileSize, hdown, ?_⟩
        intro slot hs
        rw [List.mem_singleton.1 hs]
        exact h.of_agree rfl hlog.stAbility (hold c '0')
  · intro h0
    obtain ⟨h₀, h₁⟩ := hup.complete hlaid₁ h0
    refine ⟨w₁.mem, fileSize, hdown, ?_⟩
    intro slot hs
    rcases List.mem_pair.1 hs with rfl | rfl
    · exact h₀.of_agree rfl hlog.stAbility (hold c _)
    · exact h₁.of_agree rfl hlog.stAbility (hold c _)

/-! ## The whole run -/

/-- How far an update of the components `ts` has come: past a first one,
which is new in both slots, or at it with one of its copies whole and
every later component old. -/
inductive Progress (U : UBoot) (w : World) (src : UpdatexType) (dev : ℕ) (m : ℕ → Store UInt8) :
    List UpdatexFileType → Prop
  | done : Progress U w src dev m []
  | here {c : UpdatexFileType} {rest : List UpdatexFileType} :
      CopyOld U w dev c '1' m ∨ Renewed U w src dev c ['0'] m →
      (∀ c' ∈ rest, ∀ slot, CopyOld U w dev c' slot m) → Progress U w src dev m (c :: rest)
  | past {c : UpdatexFileType} {rest : List UpdatexFileType} :
      Renewed U w src dev c ['0', '1'] m → Progress U w src dev m rest →
      Progress U w src dev m (c :: rest)

theorem Progress.of_later (ha : w₁.stAbility = w.stAbility)
    (hold : ∀ c ∈ ts, ∀ slot, CopyOld U w dev c slot w₁.disk)
    (h : Progress U w₁ src dev m ts) : Progress U w src dev m ts := by
  induction h with
  | done => exact .done
  | here hc hrest =>
    have hcold := hold _ List.mem_cons_self
    refine .here (hc.imp ((hcold '1').trans ha) (Renewed.of_later ha hcold)) ?_
    intro c' hc' slot
    exact (hold c' (List.mem_cons_of_mem _ hc') slot).trans ha (hrest c' hc' slot)
  | past hc _ ih =>
    refine .past (Renewed.of_later ha (hold _ List.mem_cons_self) hc) (ih ?_)
    intro c' hc'
    exact hold c' (List.mem_cons_of_mem _ hc')

variable (src) in
/-- **A run goes through its components in order**, and touches no
other. -/
theorem doUpdatexUpAll_spec (hU : U.WritesSparse) (hts : ts.Nodup) (hne : .none ∉ ts)
    (hlaid : LaidOut U w) :
    (∃ l, Logged w (doUpdatexUpAll U src ts w).2 l) ∧
    ∀ m, Cut w (doUpdatexUpAll U src ts w).2 m →
      Progress U w src w.gIUpDevType m ts ∧
      ∀ c, c ∉ ts → ∀ slot, CopyOld U w w.gIUpDevType c slot m := by
  -- the run of the rest starts where its first component left the board
  induction ts generalizing w with
  | nil =>
    have hlog : Logged w w [] := ⟨rfl, (List.append_nil _).symm, rfl, rfl⟩
    refine ⟨⟨_, hlog⟩, fun m hcut => ⟨.done, ?_⟩⟩
    obtain ⟨q, hq, rfl⟩ := hlog.cut_iff.1 hcut
    obtain rfl := List.prefix_nil.1 hq
    exact fun _ _ _ _ _ _ _ => rfl
  | cons c rest ih =>
    obtain ⟨hcrest, hrest⟩ := List.nodup_cons.1 hts
    rw [List.mem_cons, not_or] at hne
    obtain ⟨⟨l, hlog⟩, hstep, hdone⟩ :=
      doUpdatexUp_spec src hU (Ne.symm hne.1) hlaid
    have hfirst : ∀ m, Cut w (doUpdatexUp U w c src).2 m →
        Progress U w src w.gIUpDevType m (c :: rest) ∧
          ∀ c', c' ∉ c :: rest → ∀ slot, CopyOld U w w.gIUpDevType c' slot m := by
      intro m hcut
      obtain ⟨hother, hself⟩ := hstep m hcut
      refine ⟨.here hself fun c' hc' => hother c' ?_, fun c' hc' => hother c' ?_⟩
      · rintro rfl
        exact hcrest hc'
      · rintro rfl
        exact hc' List.mem_cons_self
    simp only [doUpdatexUpAll]
    split
    · exact ⟨⟨l, hlog⟩, hfirst⟩
    rename_i h0
    rw [not_not] at h0
    -- the component is done, and the rest runs from what it left
    obtain ⟨w₁, hw₁⟩ : ∃ w₁, (doUpdatexUp U w c src).2 = w₁ := ⟨_, rfl⟩
    have hnew := hdone h0
    rw [hw₁] at hlog hnew hfirst hstep ⊢
    have hlaid₁ : LaidOut U w₁ := hlaid.later hlog.stAbility
    obtain ⟨⟨l₁, hlog₁⟩, hcuts⟩ := ih hrest hne.2 hlaid₁
    rw [hlog.gIUpDevType] at hcuts
    refine ⟨⟨_, hlog.trans hlog₁⟩, ?_⟩
    intro m hcut
    obtain ⟨q, hq, rfl⟩ := (hlog.trans hlog₁).cut_iff.1 hcut
    -- the stop is in the component or behind it
    rcases Journal.prefix_append_cases hq with hq | ⟨q', rfl, hq'⟩
    · exact hfirst _ (hlog.cut_iff.2 ⟨q, hq, rfl⟩)
    rw [Journal.replay_append, ← hlog.disk]
    obtain ⟨hprog, hframe⟩ := hcuts _ (hlog₁.cut_iff.2 ⟨q', hq', rfl⟩)
    have hold : ∀ c', c ≠ c' → ∀ slot, CopyOld U w w.gIUpDevType c' slot w₁.disk :=
      (hstep _ (hlog.cut_iff.2 ⟨l, List.prefix_rfl, hlog.disk⟩)).1
    refine ⟨.past ?_ (hprog.of_later hlog.stAbility fun c' hc' => hold c' ?_), ?_⟩
    · obtain ⟨mem, fileSize, hdown, hcopies⟩ := hnew
      exact ⟨mem, fileSize, hdown, fun slot hs =>
        (hcopies slot hs).stay hlog.stAbility (hframe c hcrest slot)⟩
    · rintro rfl
      exact hcrest hc'
    · intro c' hc' slot
      rw [List.mem_cons, not_or] at hc'
      exact (hold c' (Ne.symm hc'.1) slot).trans hlog.stAbility (hframe c' hc'.2 slot)

/-- A slot is the old release. -/
def SlotOld (U : UBoot) (w : World) (dev : ℕ) (slot : Char) (m : ℕ → Store UInt8) : Prop :=
  ∀ c ∈ allTypes, CopyOld U w dev c slot m

/-- A slot is the new one. -/
def SlotNew (U : UBoot) (w : World) (src : UpdatexType) (dev : ℕ) (slot : Char)
    (m : ℕ → Store UInt8) : Prop :=
  ∀ c ∈ allTypes, Renewed U w src dev c [slot] m

theorem Renewed.single {slots : List Char} (h : Renewed U w src dev c slots m) (hs : slot ∈ slots) :
    Renewed U w src dev c [slot] m := by
  obtain ⟨mem, fileSize, hdown, hnew⟩ := h
  exact ⟨mem, fileSize, hdown, fun s hs' => List.mem_singleton.1 hs' ▸ hnew slot hs⟩

/-- Progress is through all components, or up to one. -/
theorem Progress.cases (h : Progress U w src dev m ts) :
    (∀ c ∈ ts, Renewed U w src dev c ['0', '1'] m) ∨
    ∃ pre c post, ts = pre ++ c :: post ∧ (∀ c' ∈ pre, Renewed U w src dev c' ['0', '1'] m) ∧
      (CopyOld U w dev c '1' m ∨ Renewed U w src dev c ['0'] m) ∧
      ∀ c' ∈ post, ∀ slot, CopyOld U w dev c' slot m := by
  induction h with
  | done => exact Or.inl fun _ h => nomatch h
  | here hc hrest => exact Or.inr ⟨[], _, _, rfl, by simp, hc, hrest⟩
  | past hc _ ih =>
    rcases ih with hall | ⟨pre, c', post, rfl, hpre, hat, hpost⟩
    · exact Or.inl fun c' hc' => (List.mem_cons.1 hc').elim (fun h => h ▸ hc) (hall c')
    · refine Or.inr ⟨_ :: pre, c', post, rfl, ?_, hat, hpost⟩
      intro c'' hc''
      exact (List.mem_cons.1 hc'').elim (fun h => h ▸ hc) (hpre c'')

/-- **A full update, stopped anywhere.** Slot 1 is the old release still,
or slot 0 the new one already, or the stop is at a component between
them: every component before it is new in both slots, every component
after it old in both, and one of its own copies is whole. -/
theorem full_update_progress (hU : U.WritesSparse) (hlaid : LaidOut U w)
    (hcut : Cut w (doUpdatexUpAll U src allTypes w).2 m) :
    SlotOld U w w.gIUpDevType '1' m ∨ SlotNew U w src w.gIUpDevType '0' m ∨
    ∃ pre c post, allTypes = pre ++ c :: post ∧
      (∀ c' ∈ pre, Renewed U w src w.gIUpDevType c' ['0', '1'] m) ∧
      (∀ c' ∈ post, ∀ slot, CopyOld U w w.gIUpDevType c' slot m) ∧
      (CopyOld U w w.gIUpDevType c '1' m ∨ Renewed U w src w.gIUpDevType c ['0'] m) ∧
      (pre = [] → Renewed U w src w.gIUpDevType c ['0'] m) ∧
      (post = [] → CopyOld U w w.gIUpDevType c '1' m) := by
  obtain ⟨hprog, -⟩ := (doUpdatexUpAll_spec src hU (by decide) (by decide) hlaid).2 m hcut
  rcases hprog.cases with hall | ⟨pre, c, post, hts, hpre, hat, hpost⟩
  · exact Or.inr (Or.inl fun c hc => (hall c hc).single (by simp))
  -- a stop at the first or the last component may leave a whole slot old or new
  by_cases hfirst : pre = [] ∧ CopyOld U w w.gIUpDevType c '1' m
  · obtain ⟨rfl, hold⟩ := hfirst
    refine Or.inl ?_
    intro c' hc'
    rw [hts, List.nil_append, List.mem_cons] at hc'
    exact hc'.elim (fun h => h ▸ hold) fun h => hpost c' h '1'
  by_cases hlast : post = [] ∧ Renewed U w src w.gIUpDevType c ['0'] m
  · obtain ⟨rfl, hnew⟩ := hlast
    refine Or.inr (Or.inl ?_)
    intro c' hc'
    rw [hts, List.mem_append, List.mem_singleton] at hc'
    exact hc'.elim (fun h => (hpre c' h).single (by simp)) fun h => h ▸ hnew
  refine Or.inr (Or.inr ⟨pre, c, post, hts, hpre, hpost, hat, ?_, ?_⟩)
  · intro h
    exact hat.resolve_left fun hold => hfirst ⟨h, hold⟩
  · intro h
    exact hat.resolve_right fun hnew => hlast ⟨h, hnew⟩

/-! ## A mixed board -/

/-- The bench board after the two copies of the loader, and no block
more, of a full update that goes through. -/
def Bench.afterLoader : ℕ → Store UInt8 :=
  let r := doUpdatexUpAll Bench.uboot .sd allTypes Bench.imageWorld
  Journal.replay r.2.media (r.2.log.take 6)

theorem Bench.cut_afterLoader :
    Cut Bench.imageWorld (doUpdatexUpAll Bench.uboot .sd allTypes Bench.imageWorld).2
      Bench.afterLoader :=
  ⟨_, List.nil_prefix, List.take_prefix _ _, rfl⟩

/-- Every download of the bench board is the image. -/
theorem Bench.eq_of_downloaded (h : Downloaded Bench.uboot .sd .fdt mem fileSize) :
    fileSize = 1536 ∧ mem updatexLoadeAddr = 1 := by
  obtain ⟨w, w', hget, rfl⟩ := h
  have hrun : doUpdatexUpGetfile Bench.uboot w .fdt .sd = (some 1536,
      w.loaded (Store.write w.mem updatexLoadeAddr Bench.image) [] 1) := by
    simp [doUpdatexUpGetfile, findFwFileByType, gstSdFwList, runLoad, Bench.uboot]
  obtain ⟨hsize, rfl⟩ := Prod.mk.inj (hrun.symm.trans hget)
  rw [World.loaded_mem]
  exact ⟨(Option.some.inj hsize).symm, Bench.write_image _ _⟩

/-- So a device tree new on it starts with the image's first byte. -/
theorem Bench.fdt_of_renewed {i : ℕ} (hrd : w.stAbility.stBlk.iRdSize = 512)
    (h : Renewed Bench.uboot w .sd 0 .fdt [slot] m)
    (hi : w.findMmc Bench.uboot (UpdatexFileType.fdt.label slot) = some i)
    (hbase : (w.mmcParts Bench.uboot i).base ∈ (w.mmcParts Bench.uboot i).region) :
    m 0 (w.mmcParts Bench.uboot i).base = 1 := by
  obtain ⟨mem, fileSize, hdown, hnew⟩ := h
  obtain ⟨rfl, hone⟩ := Bench.eq_of_downloaded hdown
  obtain ⟨j, d, p, hj, hd, hp, heq⟩ := hnew slot (List.mem_singleton_self _)
  obtain rfl : j = i := Option.some.inj (hj.symm.trans hi)
  obtain rfl : Bench.emmc = d := Option.some.inj hd
  rw [mmcWritePlan, if_neg (by simp [UpdatexFileType.label, UpdatexFileType.component])] at hp
  obtain ⟨k, image, hk, himage, -, rfl⟩ := writePartPlan_eq_some hp
  obtain rfl : k = j := Option.some.inj (hk.symm.trans hi)
  obtain ⟨-, ⟨-, rfl⟩ | ⟨head, hpk, -⟩⟩ := obcPrepareWriteImage_cases himage
  · have hblocks := replay_partBlocks_apply (d := Bench.emmc) (k := 0)
      (n := (1536 : Int32).toUInt32.toNat) (m := (w.loaded mem [] 0).disk)
      (w.mmcParts Bench.uboot k) (Store.tail mem updatexLoadeAddr) rfl (by decide)
    rw [Nat.add_zero, Store.tail_zero, hone] at hblocks
    rw [World.withDev_stAbility, World.loaded_stAbility, hrd] at heq
    exact (heq hbase).trans hblocks
  · -- a package would start with the magic
    have hmagic := hpk.magic
    rw [← hpk.head_eq] at hmagic
    have hfirst := hmagic.first
    rw [World.withDev_mem, World.loaded_mem, hone] at hfirst
    exact absurd hfirst (by decide)

/-- Where the command is, on that board. -/
theorem full_update_progress_afterLoader :
    SlotOld Bench.uboot Bench.imageWorld 0 '1' Bench.afterLoader ∨
    SlotNew Bench.uboot Bench.imageWorld .sd 0 '0' Bench.afterLoader ∨
    ∃ pre c post, allTypes = pre ++ c :: post ∧
      (∀ c' ∈ pre, Renewed Bench.uboot Bench.imageWorld .sd 0 c' ['0', '1'] Bench.afterLoader) ∧
      (∀ c' ∈ post, ∀ slot, CopyOld Bench.uboot Bench.imageWorld 0 c' slot Bench.afterLoader) ∧
      (CopyOld Bench.uboot Bench.imageWorld 0 c '1' Bench.afterLoader ∨
        Renewed Bench.uboot Bench.imageWorld .sd 0 c ['0'] Bench.afterLoader) ∧
      (pre = [] → Renewed Bench.uboot Bench.imageWorld .sd 0 c ['0'] Bench.afterLoader) ∧
      (post = [] → CopyOld Bench.uboot Bench.imageWorld 0 c '1' Bench.afterLoader) :=
  full_update_progress Bench.writesSparse ⟨rfl, Bench.wellLaid⟩ Bench.cut_afterLoader

/-- **No slot of one release.** A stop there leaves the loader new and
the device tree old in both slots. -/
theorem full_update_mixed :
    ¬ ∀ (U : UBoot) (w : World) (src : UpdatexType) (m : ℕ → Store UInt8), U.WritesSparse →
      LaidOut U w → Cut w (doUpdatexUpAll U src allTypes w).2 m → ∃ slot ∈ ['0', '1'],
        SlotOld U w w.gIUpDevType slot m ∨ SlotNew U w src w.gIUpDevType slot m := by
  intro h
  obtain ⟨slot, hslot, hold | hnew⟩ := h Bench.uboot Bench.imageWorld .sd Bench.afterLoader
    Bench.writesSparse ⟨rfl, Bench.wellLaid⟩ Bench.cut_afterLoader
  · have hloader := hold .loader (by decide)
    rcases List.mem_pair.1 hslot with rfl | rfl
    · have := hloader 0 (by decide +kernel) (x := 0x80000) ⟨by decide +kernel, by decide +kernel⟩
      exact absurd this (by decide +kernel)
    · have := hloader 1 (by decide +kernel) (x := 0x480000) ⟨by decide +kernel, by decide +kernel⟩
      exact absurd this (by decide +kernel)
  · have hfdt := hnew .fdt (by decide)
    rcases List.mem_pair.1 hslot with rfl | rfl
    · have := Bench.fdt_of_renewed (i := 3) rfl hfdt (by decide +kernel)
        ⟨by decide +kernel, by decide +kernel⟩
      exact absurd this (by decide +kernel)
    · have := Bench.fdt_of_renewed (i := 4) rfl hfdt (by decide +kernel)
        ⟨by decide +kernel, by decide +kernel⟩
      exact absurd this (by decide +kernel)

end Boot

end ObcSdk
