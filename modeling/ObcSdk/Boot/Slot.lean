import ObcSdk.Boot.World
/-!
# The slot flag

The first byte of the sysflag partition names the slot to boot from
(`obc_slot_read`, `obc_slot_write`, `obc_slot_switch`). It is read and
written with the whole block it is in, and any value but `1` stands for
slot A.
-/

namespace ObcSdk

namespace Boot

/-- `CONFIG_AM62X_SYSFLAG_DEVADDR`. -/
abbrev configAm62xSysflagDevaddr : ℕ := 0x00880000

/-- What a flag byte says. -/
def decodeSlot (b : UInt8) : UInt8 := if b = obcSlotB then obcSlotB else obcSlotA

/-- `obc_slot_read`, `none` for `-1`. The block goes to the stack. -/
def obcSlotRead (U : UBoot) (w : World) : Option UInt8 × World :=
  match w.gstBlkDev with
  | none => (none, w)
  | some d =>
    let r := dread U w (configAm62xSysflagDevaddr / d.blksz) 1
    let w' := w.advance [] [] 1
    if r.1 ≠ 1 then (none, w') else (some (decodeSlot (r.2.headD 0)), w')

/-- `obc_slot_write`. -/
def obcSlotWrite (U : UBoot) (w : World) (slot : UInt8) : ℤ × World :=
  match w.gstBlkDev with
  | none => (-1, w)
  | some d =>
    if obcSlotB < slot then (-1, w) else
    let sector := configAm62xSysflagDevaddr / d.blksz
    let r := dread U w sector 1
    let w' := w.advance [] [] 1
    if r.1 ≠ 1 then (-1, w') else
    let block := r.2.set 0 slot
    let q := blkDwrite U w' sector 1 fun i => block.getD i 0
    (if q.1 = 1 then 0 else -1, q.2)

/-- The slot `obc_slot_switch` turns to. -/
def nextSlot (slot : UInt8) : UInt8 := if slot = obcSlotA then obcSlotB else obcSlotA

/-- `obc_slot_switch`. -/
def obcSlotSwitch (U : UBoot) (w : World) (slot : UInt8) : ℤ × World :=
  obcSlotWrite U w (nextSlot slot)

/-! ## The flag on the medium -/

/-- The slot decoded from a medium. -/
def slotOn (m : Store UInt8) : UInt8 := decodeSlot (m configAm62xSysflagDevaddr)

/-- The boot medium is `d`, in blocks of 512 bytes, and the flag's block
is read and written without a fault. -/
structure FlagOk (U : UBoot) (w : World) (d : BlkDesc) : Prop where
  dev : w.gstBlkDev = some d
  blksz : d.blksz = 512
  sector : ∀ t, U.fault t (configAm62xSysflagDevaddr / 512) 1 = none

section Flag

variable {U : UBoot} {w : World} {d : BlkDesc} {slot : UInt8} {m m' : Store UInt8}

theorem decodeSlot_le (b : UInt8) : decodeSlot b = obcSlotA ∨ decodeSlot b = obcSlotB := by
  unfold decodeSlot
  split <;> simp

@[simp] theorem decodeSlot_nextSlot : decodeSlot (nextSlot slot) = nextSlot slot := by
  unfold nextSlot
  split <;> rfl

/-- Of two slots, each is the other's next. -/
theorem nextSlot_eq {g : UInt8} (hslot : slot = obcSlotA ∨ slot = obcSlotB)
    (hg : g = obcSlotA ∨ g = obcSlotB) (hne : slot ≠ g) : nextSlot slot = g := by
  rcases hslot with rfl | rfl
  · exact (hg.resolve_left fun h => hne h.symm).symm
  · exact (hg.resolve_right fun h => hne h.symm).symm

theorem nextSlot_eq_sub (hslot : slot = obcSlotA ∨ slot = obcSlotB) : nextSlot slot = 1 - slot := by
  rcases hslot with rfl | rfl <;> rfl

theorem sysflag_eq : configAm62xSysflagDevaddr / 512 * 512 = configAm62xSysflagDevaddr := by
  decide

/-- What is read of the flag is the medium's affair. -/
theorem obcSlotRead_fst {w' : World} (hdev : w'.gstBlkDev = w.gstBlkDev) (ht : w'.tick = w.tick)
    (hdisk : w'.disk = w.disk) : (obcSlotRead U w').1 = (obcSlotRead U w).1 := by
  have hread : ∀ start, dread U w' start 1 = dread U w start 1 := by
    intro start
    simp only [dread, hdev, ht, hdisk]
  unfold obcSlotRead
  rw [hdev]
  split
  · rfl
  · simp only [hread]
    split <;> rfl

/-- A read of the flag takes a tick and leaves the rest. -/
theorem obcSlotRead_snd :
    (obcSlotRead U w).2 = if w.gstBlkDev = none then w else w.advance [] [] 1 := by
  cases hd : w.gstBlkDev with
  | none => simp only [obcSlotRead, hd, if_true]
  | some d =>
    rw [if_neg (Option.some_ne_none d)]
    simp only [obcSlotRead, hd]
    split <;> rfl

/-- **Reading the flag.** -/
theorem obcSlotRead_eq (h : FlagOk U w d) :
    obcSlotRead U w = (some (slotOn (w.disk d.devnum)), w.advance [] [] 1) := by
  have hr := dread_of_ok h.dev (h.sector w.tick)
  simp only [obcSlotRead, h.dev, h.blksz, hr, sysflag_eq, Nat.one_mul]
  rw [if_neg (by simp), Store.headD_read (by decide), slotOn]

/-- The flag's block, with the flag changed, over a medium: the flag
changes and nothing else. -/
theorem write_flag_block :
    Store.write m configAm62xSysflagDevaddr
        ((Store.read m configAm62xSysflagDevaddr 512).set 0 slot) =
      Function.update m configAm62xSysflagDevaddr slot := by
  funext x
  rcases eq_or_ne x configAm62xSysflagDevaddr with rfl | hx
  · have hpos : 0 < ((Store.read m configAm62xSysflagDevaddr 512).set 0 slot).length := by simp
    have hfirst := Store.write_add (m := m) (a := configAm62xSysflagDevaddr) hpos
    rw [Nat.add_zero] at hfirst
    rw [hfirst, Function.update_self]
    simp
  · rw [Function.update_of_ne hx]
    by_cases hmem : x ∈ Set.Ico configAm62xSysflagDevaddr (configAm62xSysflagDevaddr + 512)
    · obtain ⟨i, rfl⟩ := Nat.exists_eq_add_of_le hmem.1
      have hi : i < 512 := Nat.lt_of_add_lt_add_left hmem.2
      have hne : (0 : ℕ) ≠ i := fun h0 => hx (by rw [← h0, Nat.add_zero])
      rw [Store.write_add (by simpa using hi), List.getElem_set_ne hne, Store.getElem_read]
    · exact Store.write_of_not_mem (by simpa using hmem)

/-- **Writing the flag** changes its byte and no other, on this medium
and every other. -/
theorem obcSlotWrite_eq (h : FlagOk U w d) (hslot : slot ≤ obcSlotB) :
    (obcSlotWrite U w slot).2.disk = Function.update w.disk d.devnum
        (Function.update (w.disk d.devnum) configAm62xSysflagDevaddr slot) := by
  have hr := dread_of_ok h.dev (h.sector w.tick)
  have hd' : (w.advance [] [] 1).gstBlkDev = some d := h.dev
  have hq : ∀ buf : Store UInt8, _ := fun buf => blkDwrite_of_ok buf hd' (h.sector _)
  rw [h.blksz] at hq hr
  simp only [obcSlotWrite, h.dev, h.blksz, hr, sysflag_eq, Nat.one_mul]
  rw [if_neg (UInt8.not_lt.2 hslot), if_neg (by simp), hq, if_pos rfl]
  rw [World.advance_advance, List.nil_append]
  have hread : ∀ bs : List UInt8, bs.length = 512 →
      Store.read (fun i => bs.getD i 0) 0 (1 * 512) = bs := fun bs hbs =>
    (Store.eq_read (by simpa using hbs) fun i hi => by simp [hi]).symm
  rw [World.disk_advance, Journal.replay_blocks_eq_update, sysflag_eq, hread _ (by simp),
    write_flag_block]

variable (slot) in
/-- However it goes, a write of the flag makes no call that matters to a
boot. -/
theorem obcSlotWrite_minor :
    ∃ l cs n, (obcSlotWrite U w slot).2 = w.advance l cs n ∧ ∀ c ∈ cs, c.Minor := by
  have still : ∃ l cs n, w = w.advance l cs n ∧ ∀ c ∈ cs, c.Minor :=
    ⟨[], [], 0, World.advance_zero.symm, fun _ h => nomatch h⟩
  unfold obcSlotWrite
  split
  · exact still
  rename_i d hd
  split
  · exact still
  simp only []
  split
  · exact ⟨[], [], 1, rfl, fun _ h => nomatch h⟩
  obtain ⟨l, -, hw, -⟩ := blkDwrite_spec (U := U) (w := w.advance [] [] 1)
    (configAm62xSysflagDevaddr / d.blksz) 1
    (fun i => (List.set (dread U w (configAm62xSysflagDevaddr / d.blksz) 1).2 0 slot).getD i 0) hd
  refine ⟨l, _, 2, by rw [hw, World.advance_advance]; rfl, ?_⟩
  intro c hc
  rw [List.mem_singleton.1 hc]
  trivial

theorem FlagOk.of_dev {w' : World} (h : FlagOk U w d) (hdev : w'.gstBlkDev = w.gstBlkDev) :
    FlagOk U w' d := ⟨hdev.trans h.dev, h.blksz, h.sector⟩

/-! ## Stages, and the switch behind one that failed -/

/-- `r` is what stages of the slot `s` come to, from `w` and with the
calls `evs`: one failed and the slot was switched, or none did. -/
def Staged (U : UBoot) (w : World) (s : UInt8) (evs : List Call) (r : ℤ × World) : Prop :=
  ∃ w₁, Calls w w₁ evs ∧
    ((∃ c ∈ evs, c.StageFailed) ∧ r = (-1, (obcSlotSwitch U w₁ s).2) ∨
      (∀ c ∈ evs, ¬ c.StageFailed) ∧ r = (0, w₁))

/-- The calls of stages, with the switch's. -/
theorem Staged.calls {evs : List Call} {r : ℤ × World} (h : Staged U w slot evs r) :
    r.2.gstBlkDev = w.gstBlkDev ∧
      ∃ cs, (∀ c ∈ cs, c.Minor) ∧ r.2.trace = w.trace ++ (evs ++ cs) := by
  obtain ⟨w₁, hcalls, ⟨-, rfl⟩ | ⟨-, rfl⟩⟩ := h
  · obtain ⟨l, cs, n, hadv, hminor⟩ := obcSlotWrite_minor (U := U) (w := w₁) (nextSlot slot)
    rw [obcSlotSwitch, hadv]
    refine ⟨hcalls.dev, cs, hminor, ?_⟩
    rw [World.advance_trace, hcalls.trace, List.append_assoc]
  · refine ⟨hcalls.dev, [], by simp, ?_⟩
    rw [hcalls.trace, List.append_nil]

end Flag

end Boot

end ObcSdk
