import ObcSdk.Lib.Journal
import ObcSdk.Boot.DeviceTree
/-!
# The board, and what U-Boot does for it

`World` is the state the boot code works on: the load memory, the media,
the block device in use, the ability table and the environment. `UBoot`
gathers what the code calls and this repository does not contain: every
outcome of a block transfer, of a console command or of bringing a
medium up is a field of it, indexed by a clock so that two calls need
not agree. What holds of every `UBoot` holds of every outcome.

The media are kept as what they held at the start and the journal of
the blocks that reached them since. A loss of power leaves a prefix of
that journal.
-/

namespace ObcSdk

namespace Boot

/-- `struct blk_desc`, as far as the code reads it. -/
structure BlkDesc where
  /-- Which medium. -/
  devnum : ℕ
  uclassId : ℕ
  blksz : ℕ
deriving DecidableEq

/-- A transfer of `count` blocks that went wrong: how many blocks moved
before it did, and the count the caller sees, which is not `count`. -/
structure Fault (count : ℕ) where
  moved : ℕ
  moved_le : moved ≤ count
  reported : ℕ
  reported_ne : reported ≠ count

/-- `struct sparse_storage`, without the callbacks. -/
structure SparseStorage where
  blksz : ℕ
  start : ℕ
  size : ℕ

/-- A run of a function that writes through a callback: it returns, or
it hands over blocks and goes on from the count it gets back. -/
inductive SparseProg where
  | ret (r : ℤ)
  | write (blk count : ℕ) (buf : Store UInt8) (next : ℕ → SparseProg)

/-- What `unzip` does: its status and the bytes it stored. -/
structure Unzipped where
  status : ℤ
  out : List UInt8

/-- What a download does: its status, the bytes it stored, and the
`filesize` it leaves in the environment, as `simple_strtoul` reads it. -/
structure Loaded where
  status : ℤ
  data : List UInt8
  filesize : Option ℕ

/-- The ROM's boot devices. -/
inductive RomBootdev where
  | mmc1
  | mmc2
  | mmc2_2
  | other (id : ℕ)
deriving DecidableEq

/-- `UPDATEX_TYPE_E`, where the firmware files come from. -/
inductive UpdatexType where
  | none
  | sd
  | tftp
deriving DecidableEq

/-- The block length of an MMC descriptor. -/
abbrev mmcBlksz : ℕ := 512

/-- The outside of the boot code: U-Boot, libfdt and the hardware under
them. The first argument of a call with an outcome is the clock. -/
structure UBoot where
  /-- The fault of a block transfer, if it has one. -/
  fault : ℕ → (start count : ℕ) → Option (Fault count)
  crc16 : UInt16 → List UInt8 → UInt16
  getBootDevice : RomBootdev
  /-- Whether `find_mmc_device` finds the device. -/
  findMmcDevice : ℕ → ℕ → Bool
  mmcInit : ℕ → ℕ → ℤ
  blkSelectHwpartDevnum : ℕ → ℕ → ℤ
  mmcGetBlkDesc : ℕ → Option BlkDesc
  /-- `IS_SD`. -/
  isSd : ℕ → Bool
  /-- The status of `mmc_set_part_conf` and `mmc->part_config` after it. -/
  mmcSetPartConf : ℕ → ℤ × ℕ
  unzip : ℕ → Store UInt8 → ℕ → Unzipped
  /-- The status of `cp.b`, and the bytes copied when it is not zero. -/
  cpB : ℕ → ℤ × ℕ
  booti : ℕ → ℤ
  /-- A `fatload` or `tftp` command. -/
  load : ℕ → (command : List Char) → Loaded
  writeSparseImage : SparseStorage → Store UInt8 → SparseProg
  /-- Whether `malloc` of the erase buffer succeeds. -/
  malloc : ℕ → Bool
  /-- The device tree libfdt reads at an address. -/
  fdt : Store UInt8 → ℕ → FdtNode
  /-- The table the SPL left in shared memory. -/
  shmem : BoardAbilityTable
  /-- The memory past the two partition tables, read as entries. -/
  beyond : ℕ → BoardAbilityBlkParts
  /-- An MMC descriptor is its device's, in blocks of 512 bytes, and of
  a class that is not flash. -/
  mmc_desc : ∀ {dev d}, mmcGetBlkDesc dev = some d →
    d.devnum = dev ∧ d.blksz = mmcBlksz ∧ d.uclassId ≠ boardAbilityDevFlash

/-- The stages of a boot that can fail. -/
inductive Stage where
  | fdtLoad
  | kernelLoad
  | transfer
  | booti
deriving DecidableEq

/-- A call whose outcome the results speak of. -/
inductive Call where
  /-- `blk_dwrite`, with the count it returned. -/
  | dwrite (start count ret : ℕ)
  /-- `obc_verify_pack_header` on the package read from a partition. -/
  | verify (part : BoardAbilityBlkParts) (payload : List UInt8) (ret : ℤ)
  /-- The return of a boot stage. -/
  | stage (s : Stage) (ret : ℤ)
  /-- `booti`, as issued: the kernel's address, the device tree's, and
  the memory they are in. -/
  | booti (image fdt : ℕ) (mem : Store UInt8)
  | envSave
  /-- A string that did not fit the buffer it was formatted into. -/
  | overrun

/-- A block write that fell short. -/
def Call.Failed : Call → Prop
  | .dwrite _ count ret => ret ≠ count
  | _ => False

/-- The state of a running U-Boot. -/
structure World where
  mem : Store UInt8
  /-- The media, as the journal found them. -/
  media : ℕ → Store UInt8
  /-- The blocks that reached the media since. -/
  log : List (Extent ℕ UInt8)
  trace : List Call
  /-- The clock. -/
  tick : ℕ
  gstBlkDev : Option BlkDesc
  stAbility : BoardAbilityTable
  env : String → Option String
  /-- `g_iUp_Dev_type`. -/
  gIUpDevType : ℕ
  /-- `g_iUp_Src_type`. -/
  gIUpSrcType : UpdatexType

namespace World

/-- What the media hold. -/
def disk (w : World) : ℕ → Store UInt8 := Journal.replay w.media w.log

/-- Which table the device in use has its partitions in. -/
def bootTable (w : World) : PartTable :=
  match w.gstBlkDev with
  | some d => if d.uclassId = boardAbilityDevFlash then .flash else .mmc
  | none => .mmc

/-- The world some blocks, calls and clock ticks later. -/
def advance (w : World) (l : List (Extent ℕ UInt8)) (cs : List Call) (n : ℕ) : World :=
  { w with log := w.log ++ l, trace := w.trace ++ cs, tick := w.tick + n }

variable {w : World} {l l' : List (Extent ℕ UInt8)} {cs cs' : List Call} {n n' : ℕ}

@[simp] theorem advance_mem : (w.advance l cs n).mem = w.mem := rfl
@[simp] theorem advance_media : (w.advance l cs n).media = w.media := rfl
@[simp] theorem advance_log : (w.advance l cs n).log = w.log ++ l := rfl
@[simp] theorem advance_trace : (w.advance l cs n).trace = w.trace ++ cs := rfl
@[simp] theorem advance_tick : (w.advance l cs n).tick = w.tick + n := rfl
@[simp] theorem advance_gstBlkDev : (w.advance l cs n).gstBlkDev = w.gstBlkDev := rfl
@[simp] theorem advance_stAbility : (w.advance l cs n).stAbility = w.stAbility := rfl
@[simp] theorem advance_bootTable : (w.advance l cs n).bootTable = w.bootTable := rfl

@[simp] theorem advance_zero : w.advance [] [] 0 = w := by simp [advance]

@[simp] theorem advance_advance :
    (w.advance l cs n).advance l' cs' n' = w.advance (l ++ l') (cs ++ cs') (n + n') := by
  simp [advance, Nat.add_assoc]

/-- The world after some bytes came into memory: a read leaves the
media as they are. -/
def loaded (w : World) (m : Store UInt8) (cs : List Call) (n : ℕ) : World :=
  { w.advance [] cs n with mem := m }

section Loaded

variable {m m' : Store UInt8}

@[simp] theorem loaded_mem : (w.loaded m cs n).mem = m := rfl
@[simp] theorem loaded_log : (w.loaded m cs n).log = w.log := List.append_nil _
@[simp] theorem loaded_trace : (w.loaded m cs n).trace = w.trace ++ cs := rfl
@[simp] theorem loaded_tick : (w.loaded m cs n).tick = w.tick + n := rfl
@[simp] theorem loaded_gstBlkDev : (w.loaded m cs n).gstBlkDev = w.gstBlkDev := rfl
@[simp] theorem loaded_stAbility : (w.loaded m cs n).stAbility = w.stAbility := rfl

@[simp] theorem loaded_disk : (w.loaded m cs n).disk = w.disk := by
  simp only [disk, loaded_log]; rfl

@[simp] theorem loaded_loaded :
    (w.loaded m cs n).loaded m' cs' n' = w.loaded m' (cs ++ cs') (n + n') := by
  simp [loaded, advance, Nat.add_assoc]

end Loaded

/-- The world with another ability table. -/
def withAbility (w : World) (t : BoardAbilityTable) : World := { w with stAbility := t }

/-- The world with another block device in use. -/
def withDev (w : World) (d : Option BlkDesc) : World := { w with gstBlkDev := d }

section With

variable {t : BoardAbilityTable} {o : Option BlkDesc}

@[simp] theorem withAbility_stAbility : (w.withAbility t).stAbility = t := rfl
@[simp] theorem withAbility_mem : (w.withAbility t).mem = w.mem := rfl
@[simp] theorem withAbility_disk : (w.withAbility t).disk = w.disk := rfl
@[simp] theorem withAbility_trace : (w.withAbility t).trace = w.trace := rfl
@[simp] theorem withAbility_tick : (w.withAbility t).tick = w.tick := rfl
@[simp] theorem withAbility_gstBlkDev : (w.withAbility t).gstBlkDev = w.gstBlkDev := rfl
@[simp] theorem withDev_gstBlkDev : (w.withDev o).gstBlkDev = o := rfl
@[simp] theorem withDev_stAbility : (w.withDev o).stAbility = w.stAbility := rfl
@[simp] theorem withDev_mem : (w.withDev o).mem = w.mem := rfl
@[simp] theorem withDev_disk : (w.withDev o).disk = w.disk := rfl
@[simp] theorem withDev_trace : (w.withDev o).trace = w.trace := rfl

end With

theorem disk_advance : (w.advance l cs n).disk = Journal.replay w.disk l :=
  Journal.replay_append

@[simp] theorem disk_advance_nil : (w.advance [] cs n).disk = w.disk := by simp [disk_advance]

end World

/-! ## Block transfers

A null descriptor stops the board; here the call reports nothing moved,
and the run goes on past the point where the board would not have. -/

/-- What `blk_dread` returns, and the bytes it moved. -/
def dread (U : UBoot) (w : World) (start count : ℕ) : ℕ × List UInt8 :=
  match w.gstBlkDev with
  | none => (0, [])
  | some d =>
    match U.fault w.tick start count with
    | none => (count, Store.read (w.disk d.devnum) (start * d.blksz) (count * d.blksz))
    | some f => (f.reported, Store.read (w.disk d.devnum) (start * d.blksz) (f.moved * d.blksz))

/-- `blk_dread` into the load memory. -/
def blkDread (U : UBoot) (w : World) (start count buffer : ℕ) : ℕ × World :=
  let r := dread U w start count
  (r.1, w.loaded (Store.write w.mem buffer r.2) [] 1)

/-- `blk_dwrite` of a buffer. -/
def blkDwrite (U : UBoot) (w : World) (start count : ℕ) (buffer : Store UInt8) : ℕ × World :=
  match w.gstBlkDev with
  | none => (0, w.advance [] [.dwrite start count 0] 1)
  | some d =>
    match U.fault w.tick start count with
    | none =>
      (count, w.advance (Journal.blocks d.devnum d.blksz start count buffer)
        [.dwrite start count count] 1)
    | some f =>
      (f.reported, w.advance (Journal.blocks d.devnum d.blksz start f.moved buffer)
        [.dwrite start count f.reported] 1)

section Transfer

variable {U : UBoot} {w : World} {d : BlkDesc} {start count : ℕ} {buffer : Store UInt8}

theorem dread_of_ok (hd : w.gstBlkDev = some d) (hf : U.fault w.tick start count = none) :
    dread U w start count =
      (count, Store.read (w.disk d.devnum) (start * d.blksz) (count * d.blksz)) := by
  simp [dread, hd, hf]

/-- **A read that reports its count moved its blocks.** -/
theorem dread_eq (hc : 0 < count) (h : (dread U w start count).1 = count) :
    ∃ d, w.gstBlkDev = some d ∧ U.fault w.tick start count = none ∧
      (dread U w start count).2 =
        Store.read (w.disk d.devnum) (start * d.blksz) (count * d.blksz) := by
  unfold dread at h ⊢
  split at h
  · simp only at h; omega
  · rename_i d hd
    split at h
    · rename_i hf
      exact ⟨d, hd, hf, rfl⟩
    · rename_i f _
      exact absurd h f.reported_ne

variable (buffer) in
/-- A write that has no fault puts all its blocks on the medium. -/
theorem blkDwrite_of_ok (hd : w.gstBlkDev = some d) (hf : U.fault w.tick start count = none) :
    blkDwrite U w start count buffer =
      (count, w.advance (Journal.blocks d.devnum d.blksz start count buffer)
        [.dwrite start count count] 1) := by
  simp [blkDwrite, hd, hf]

variable (start count buffer) in
/-- **What a write does**: a prefix of its blocks reaches the medium,
all of them when it reports its count. -/
theorem blkDwrite_spec (hd : w.gstBlkDev = some d) :
    ∃ l, l <+: Journal.blocks d.devnum d.blksz start count buffer ∧
      (blkDwrite U w start count buffer).2 =
        w.advance l [.dwrite start count (blkDwrite U w start count buffer).1] 1 ∧
      ((blkDwrite U w start count buffer).1 = count →
        l = Journal.blocks d.devnum d.blksz start count buffer) := by
  rcases hf : U.fault w.tick start count with _ | f
  · rw [blkDwrite_of_ok _ hd hf]
    exact ⟨_, List.prefix_rfl, rfl, fun _ => rfl⟩
  · refine ⟨_, Journal.blocks_prefix f.moved_le, ?_, ?_⟩
    · simp [blkDwrite, hd, hf]
    · intro h
      simp only [blkDwrite, hd, hf] at h
      exact absurd h f.reported_ne

end Transfer

/-! ## What was called -/

/-- A boot stage that failed. -/
def Call.StageFailed : Call → Prop
  | .stage _ ret => ret ≠ 0
  | _ => False

/-- A call that is no verification, no stage and no `booti`. -/
def Call.Minor : Call → Prop
  | .dwrite .. | .envSave | .overrun => True
  | _ => False

/-- The calls made from `w` to `w'`. -/
def World.since (w w' : World) : List Call := w'.trace.drop w.trace.length

/-- From `w` to `w'` the calls `evs` were made and nothing was written. -/
structure Calls (w w' : World) (evs : List Call) : Prop where
  disk : w'.disk = w.disk
  dev : w'.gstBlkDev = w.gstBlkDev
  trace : w'.trace = w.trace ++ evs

section Called

variable {w w' w'' : World} {evs evs' : List Call} {c : Call}

theorem Call.Minor.not_stageFailed (h : c.Minor) : ¬ c.StageFailed := by
  cases c <;> first | exact h.elim | exact id

theorem World.since_of_trace (h : w'.trace = w.trace ++ evs) : w.since w' = evs := by
  rw [since, h, List.drop_left]

@[simp] theorem World.since_advance {l : List (Extent ℕ UInt8)} {n : ℕ} :
    w.since (w.advance l evs n) = evs := since_of_trace rfl

theorem Calls.trans (h : Calls w w' evs) (h' : Calls w' w'' evs') : Calls w w'' (evs ++ evs') :=
  ⟨h'.disk.trans h.disk, h'.dev.trans h.dev, by rw [h'.trace, h.trace, List.append_assoc]⟩

theorem calls_loaded {m : Store UInt8} {n : ℕ} : Calls w (w.loaded m evs n) evs :=
  ⟨World.loaded_disk, rfl, rfl⟩

theorem calls_advance {n : ℕ} : Calls w (w.advance [] evs n) evs :=
  ⟨World.disk_advance_nil, rfl, rfl⟩

theorem calls_withAbility {t : BoardAbilityTable} : Calls w (w.withAbility t) [] :=
  ⟨rfl, rfl, (List.append_nil _).symm⟩

end Called

/-! ## Planned writes

What every writer of the boot code comes to: the journal it is to put
on the medium is fixed before the first block is written, or there is
none and nothing is written at all. -/

/-- `r` is what running the journal `plan` from `w` gives: a prefix of it
reached the media, and the call returned `0` with all of it or `-1`
after a block write that fell short. -/
def Runs (w : World) (plan : List (Extent ℕ UInt8)) (r : ℤ × World) : Prop :=
  ∃ l cs n, r.2 = w.advance l cs n ∧ l <+: plan ∧
    (r.1 = 0 ∧ l = plan ∨ r.1 = -1 ∧ ∃ c ∈ cs, c.Failed)

/-- `r` is a rejection that touched nothing, or the run of a plan. -/
def Planned (w : World) (plan : Option (List (Extent ℕ UInt8))) (r : ℤ × World) : Prop :=
  match plan with
  | none => r = (-1, w)
  | some p => Runs w p r

section Planned

variable {w w' w'' : World} {l l' p : List (Extent ℕ UInt8)} {m : ℕ → Store UInt8}
  {plan : Option (List (Extent ℕ UInt8))} {r : ℤ × World} {cs : List Call} {n : ℕ}
  {o : Option BlkDesc}

/-- From `w` to `w'` the blocks `l` reached the media; the tables and the
choice of the device to update stayed. -/
structure Logged (w w' : World) (l : List (Extent ℕ UInt8)) : Prop where
  media : w'.media = w.media
  log : w'.log = w.log ++ l
  stAbility : w'.stAbility = w.stAbility
  gIUpDevType : w'.gIUpDevType = w.gIUpDevType

/-- And the load memory stayed with them. -/
structure Wrote (w w' : World) (l : List (Extent ℕ UInt8)) : Prop extends Logged w w' l where
  mem : w'.mem = w.mem

theorem Logged.trans (h : Logged w w' l) (h' : Logged w' w'' l') : Logged w w'' (l ++ l') :=
  ⟨h'.media.trans h.media, by rw [h'.log, h.log, List.append_assoc],
    h'.stAbility.trans h.stAbility, h'.gIUpDevType.trans h.gIUpDevType⟩

theorem Wrote.trans (h : Wrote w w' l) (h' : Wrote w' w'' l') : Wrote w w'' (l ++ l') :=
  ⟨h.toLogged.trans h'.toLogged, h'.mem.trans h.mem⟩

theorem wrote_advance : Wrote w (w.advance l cs n) l := ⟨⟨rfl, rfl, rfl, rfl⟩, rfl⟩

theorem wrote_withDev : Wrote w (w.withDev o) [] :=
  ⟨⟨rfl, (List.append_nil _).symm, rfl, rfl⟩, rfl⟩

theorem logged_loaded {mem : Store UInt8} : Logged w (w.loaded mem cs n) [] :=
  ⟨rfl, rfl, rfl, rfl⟩

theorem Logged.disk (h : Logged w w' l) : w'.disk = Journal.replay w.disk l := by
  rw [World.disk, h.media, h.log, Journal.replay_append]
  rfl

/-- What the media may hold if the power goes between `w` and `w'`. -/
def Cut (w w' : World) (m : ℕ → Store UInt8) : Prop :=
  ∃ p, w.log <+: p ∧ p <+: w'.log ∧ m = Journal.replay w'.media p

/-- **A cut leaves a prefix** of the blocks written. -/
theorem Logged.cut_iff (h : Logged w w' l) :
    Cut w w' m ↔ ∃ p, p <+: l ∧ m = Journal.replay w.disk p := by
  have replay : ∀ p, Journal.replay w'.media (w.log ++ p) = Journal.replay w.disk p := by
    intro p
    rw [h.media, Journal.replay_append]
    rfl
  constructor
  · rintro ⟨p, ⟨q, rfl⟩, hp, rfl⟩
    rw [h.log] at hp
    exact ⟨q, (List.prefix_append_right_inj _).1 hp, replay q⟩
  · rintro ⟨p, hp, rfl⟩
    refine ⟨w.log ++ p, List.prefix_append _ _, ?_, (replay p).symm⟩
    rw [h.log]
    exact (List.prefix_append_right_inj _).2 hp

theorem Runs.planned (h : Runs w p r) : Planned w (some p) r := h

/-- A planned run is a rejection, or wrote a prefix of its plan. -/
theorem Planned.cases (h : Planned w plan r) :
    (plan = none ∧ r = (-1, w)) ∨ ∃ p l, plan = some p ∧ Wrote w r.2 l ∧ l <+: p ∧
      (r.1 = 0 ∧ l = p ∨ r.1 = -1) := by
  cases plan with
  | none => exact Or.inl ⟨rfl, h⟩
  | some p =>
    obtain ⟨l, cs, n, hr, hl, hret⟩ := h
    refine Or.inr ⟨p, l, rfl, by rw [hr]; exact wrote_advance, hl, ?_⟩
    exact hret.imp id And.left

/-- Either way the world only moved on. -/
theorem Planned.exists_advance (h : Planned w plan r) : ∃ l cs n, r.2 = w.advance l cs n := by
  cases plan with
  | none => exact ⟨[], [], 0, by rw [show r = (-1, w) from h, World.advance_zero]⟩
  | some p =>
    obtain ⟨l, cs, n, hr, -⟩ := h
    exact ⟨l, cs, n, hr⟩

end Planned

/-- One transfer, the return value told from its count. -/
theorem runs_of_blkDwrite {U : UBoot} {w : World} {d : BlkDesc} {start count : ℕ}
    {buffer : Store UInt8} (hd : w.gstBlkDev = some d) {r : ℤ × World}
    (hr : r = if (blkDwrite U w start count buffer).1 ≠ count then
        (-1, (blkDwrite U w start count buffer).2)
      else (0, (blkDwrite U w start count buffer).2)) :
    Runs w (Journal.blocks d.devnum d.blksz start count buffer) r := by
  obtain ⟨l, hl, hw, hfull⟩ := blkDwrite_spec (U := U) start count buffer hd
  subst hr
  by_cases hc : (blkDwrite U w start count buffer).1 = count
  · rw [if_neg (not_not.2 hc)]
    exact ⟨l, _, 1, hw, hl, Or.inl ⟨rfl, hfull hc⟩⟩
  · rw [if_pos hc]
    exact ⟨l, _, 1, hw, hl, Or.inr ⟨rfl, _, List.mem_singleton.2 rfl, hc⟩⟩

end Boot

end ObcSdk
