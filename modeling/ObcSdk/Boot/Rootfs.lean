import ObcSdk.Boot.Sparse
import ObcSdk.Boot.Write
/-!
# Writing a root file system

`obc_blk_write_rootfs_by_name`: a sparse image goes through U-Boot's
`write_sparse_image`, an ext image out in one transfer. As with the
plain writer every check comes first, so a run is a rejection that
touched nothing or the run of a plan, once `write_sparse_image` is what
it is relied on to be (`Emits`).
-/

namespace ObcSdk

namespace Boot

/-! ## Running a function that writes through a callback -/

namespace SparseProg

/-- A run with `obc_sparse_write` as the callback. -/
def run (U : UBoot) : SparseProg → World → ℤ × World
  | .ret r, w => (r, w)
  | .write blk count buf next, w =>
    let r := blkDwrite U w blk count buf
    (next r.1).run U r.2

/-- The program writes the journal `l`, in order and whole transfers at a
time, and returns `0` behind it; where a transfer falls short it gives
up. -/
def Emits (dev bsz : ℕ) : SparseProg → List (Extent ℕ UInt8) → Prop
  | .ret r, l => r = 0 ∧ l = []
  | .write blk count buf next, l =>
    (∃ rest, l = Journal.blocks dev bsz blk count buf ++ rest ∧ (next count).Emits dev bsz rest) ∧
      ∀ n, n < count → ∃ r, r ≠ 0 ∧ next n = .ret r

/-- The program asks for no block outside those from `a` to `b`. -/
def Inside (a b : ℕ) : SparseProg → Prop
  | .ret _ => True
  | .write blk count _ next => a ≤ blk ∧ blk + count ≤ b ∧ ∀ n, (next n).Inside a b

/-- The program returns `0` when every transfer is whole. -/
def Succeeds : SparseProg → Prop
  | .ret r => r = 0
  | .write _ count _ next => (next count).Succeeds

variable {U : UBoot} {prog : SparseProg} {w : World} {d : BlkDesc} {l : List (Extent ℕ UInt8)}

/-- **A run of an emitting program** leaves a prefix of its journal, all
of it when it returns `0`. -/
theorem Emits.run (hd : w.gstBlkDev = some d)
    (hshort : ∀ t s n f, U.fault t s n = some f → f.reported < n)
    (h : prog.Emits d.devnum d.blksz l) :
    ∃ l' cs n, (prog.run U w).2 = w.advance l' cs n ∧ l' <+: l ∧
      ((prog.run U w).1 = 0 ∧ l' = l ∨ (prog.run U w).1 ≠ 0 ∧ ∃ c ∈ cs, c.Failed) := by
  induction prog generalizing w l with
  | ret r =>
    obtain ⟨rfl, rfl⟩ := h
    exact ⟨[], [], 0, by simp [SparseProg.run], List.prefix_rfl, Or.inl ⟨rfl, rfl⟩⟩
  | write blk count buf next ih =>
    obtain ⟨⟨rest, rfl, hrest⟩, habort⟩ := h
    rcases hf : U.fault w.tick blk count with _ | f
    · -- the transfer is whole, and the rest runs behind it
      obtain ⟨l', cs, n, hrun, hl', hret⟩ := ih count
        (w := w.advance (Journal.blocks d.devnum d.blksz blk count buf)
          [.dwrite blk count count] 1) hd hrest
      simp only [SparseProg.run, blkDwrite_of_ok _ hd hf]
      refine ⟨Journal.blocks d.devnum d.blksz blk count buf ++ l', [.dwrite blk count count] ++ cs,
        1 + n, by rw [hrun, World.advance_advance], (List.prefix_append_right_inj _).2 hl', ?_⟩
      rcases hret with ⟨h0, rfl⟩ | ⟨hne, c, hc, hcf⟩
      · exact Or.inl ⟨h0, rfl⟩
      · exact Or.inr ⟨hne, c, List.mem_append_right _ hc, hcf⟩
    · -- the transfer falls short, and the program gives up
      obtain ⟨r, hr, hnext⟩ := habort f.reported (hshort _ _ _ _ hf)
      simp only [SparseProg.run, blkDwrite, hd, hf, hnext]
      exact ⟨_, _, 1, rfl, (Journal.blocks_prefix f.moved_le).trans (List.prefix_append _ _),
        Or.inr ⟨hr, _, List.mem_singleton.2 rfl, f.reported_ne⟩⟩

/-- A program inside a range of blocks changes nothing outside it,
whatever its transfers come to. -/
theorem Inside.run {a b : ℕ} (hd : w.gstBlkDev = some d) (h : prog.Inside a b) :
    ∃ l cs n, (prog.run U w).2 = w.advance l cs n ∧
      Journal.Within d.devnum (Set.Ico (a * d.blksz) (b * d.blksz)) l := by
  induction prog generalizing w with
  | ret r => exact ⟨[], [], 0, by simp [SparseProg.run], fun _ he => nomatch he⟩
  | write blk count buf next ih =>
    obtain ⟨ha, hb, hnext⟩ := h
    obtain ⟨l, hl, hw, -⟩ := blkDwrite_spec (U := U) blk count buf hd
    obtain ⟨l', cs, n, hrun, hl'⟩ := ih (blkDwrite U w blk count buf).1
      (w := (blkDwrite U w blk count buf).2) (by rw [hw]; exact hd) (hnext _)
    simp only [SparseProg.run]
    refine ⟨l ++ l', _, _, by rw [hrun, hw, World.advance_advance], ?_⟩
    refine Journal.Within.append ((Journal.within_blocks.mono ?_).initial hl) hl'
    intro x hx
    exact ⟨(Nat.mul_le_mul_right _ ha).trans hx.1, hx.2.trans_le (Nat.mul_le_mul_right _ hb)⟩

variable (prog) in
/-- A run only adds to the journal and the trace. -/
theorem run_eq_advance (hd : w.gstBlkDev = some d) :
    ∃ l cs n, (prog.run U w).2 = w.advance l cs n := by
  induction prog generalizing w with
  | ret r => exact ⟨[], [], 0, by simp [SparseProg.run]⟩
  | write blk count buf next ih =>
    obtain ⟨l, -, hw, -⟩ := blkDwrite_spec (U := U) blk count buf hd
    obtain ⟨l', cs, n, hrun⟩ := ih (blkDwrite U w blk count buf).1
      (w := (blkDwrite U w blk count buf).2) (by rw [hw]; exact hd)
    simp only [SparseProg.run]
    exact ⟨_, _, _, by rw [hrun, hw, World.advance_advance]⟩

/-- A program that succeeds on whole transfers fails only behind one
that was not. -/
theorem Succeeds.run (hd : w.gstBlkDev = some d) (h : prog.Succeeds) :
    ∃ l cs n, (prog.run U w).2 = w.advance l cs n ∧
      ((prog.run U w).1 ≠ 0 → ∃ c ∈ cs, c.Failed) := by
  induction prog generalizing w with
  | ret r => exact ⟨[], [], 0, by simp [SparseProg.run], fun hne => absurd h hne⟩
  | write blk count buf next ih =>
    obtain ⟨l, -, hw, -⟩ := blkDwrite_spec (U := U) blk count buf hd
    have hd' : (blkDwrite U w blk count buf).2.gstBlkDev = some d := by rw [hw]; exact hd
    simp only [SparseProg.run]
    by_cases hc : (blkDwrite U w blk count buf).1 = count
    · obtain ⟨l', cs, n, hrun, hret⟩ := ih count hd' h
      rw [hc] at hw ⊢
      refine ⟨_, _, _, by rw [hrun, hw, World.advance_advance], ?_⟩
      intro hne
      obtain ⟨c, hcs, hcf⟩ := hret hne
      exact ⟨c, List.mem_append_right _ hcs, hcf⟩
    · obtain ⟨l', cs, n, hrun⟩ :=
        run_eq_advance (U := U) (next (blkDwrite U w blk count buf).1) hd'
      exact ⟨_, _, _, by rw [hrun, hw, World.advance_advance], fun _ =>
        ⟨.dwrite blk count _, List.mem_append_left _ (List.mem_singleton.2 rfl), hc⟩⟩

end SparseProg

/-! ## The writer -/

/-- `obc_blk_write_rootfs_by_name`. -/
def obcBlkWriteRootfsByName (U : UBoot) (w : World) (pName : List Char) (fileaddr : ℕ)
    (fileSize : Int32) : ℤ × World :=
  match w.gstBlkDev with
  | none => (-1, w)
  | some dev =>
    if dev.blksz = 0 then (-1, w) else
    match obcBlkFindPartByName U w pName with
    | none => (-1, w)
    | some partIndex =>
      -- the MMC table, whichever the lookup was made in
      let part := w.stAbility.stBlk.part U.beyond .mmc partIndex
      let blockSize := UInt32.ofNat dev.blksz
      if part.addr % blockSize ≠ 0 ∨ part.size % blockSize ≠ 0 then (-1, w) else
      match obcPrepareWriteImage U w.mem fileaddr fileSize with
      | none => (-1, w)
      | some image =>
        if image.hasHeader = true ∧ image.headWriteFlag ≠ 0 then (-1, w) else
        let start := (part.addr / blockSize).toNat
        let count := (part.size / blockSize).toNat
        let payload := Store.tail w.mem image.payload
        if sparseHeaderSize ≤ image.payloadSize.toNat ∧
            (SparseHeader.ofStore payload).magic = sparseHeaderMagic then
          if obcValidateSparse payload image.payloadSize blockSize part.size.toUInt64 ≠ .ok 0 then
            (-1, w)
          else
            let r := (U.writeSparseImage ⟨blockSize.toNat, start, count⟩ payload).run U w
            if r.1 ≠ 0 then (-1, r.2) else (0, r.2)
        else if image.payloadSize < 1082 then (-1, w)
        -- the magic of an ext superblock
        else if (payload 1080).toUInt16 ||| (payload 1081).toUInt16 <<< 8 ≠ 0xef53 then (-1, w)
        else if part.size < image.payloadSize ∨ image.payloadSize % blockSize ≠ 0 then (-1, w)
        else
          let blocks := (image.payloadSize / blockSize).toNat
          let r := blkDwrite U w start blocks payload
          if r.1 ≠ blocks then (-1, r.2) else (0, r.2)

/-- The journal `obc_blk_write_rootfs_by_name` is to put on `dev`; `none`
where it rejects the download. -/
def rootfsPlan (U : UBoot) (w : World) (dev : BlkDesc) (pName : List Char) (fileaddr : ℕ)
    (fileSize : Int32) : Option (List (Extent ℕ UInt8)) :=
  if dev.blksz = 0 then none else
  match obcBlkFindPartByName U w pName with
  | none => none
  | some partIndex =>
    let part := w.stAbility.stBlk.part U.beyond .mmc partIndex
    let blockSize := UInt32.ofNat dev.blksz
    if part.addr % blockSize ≠ 0 ∨ part.size % blockSize ≠ 0 then none else
    match obcPrepareWriteImage U w.mem fileaddr fileSize with
    | none => none
    | some image =>
      if image.hasHeader = true ∧ image.headWriteFlag ≠ 0 then none else
      let start := (part.addr / blockSize).toNat
      let payload := Store.tail w.mem image.payload
      if sparseHeaderSize ≤ image.payloadSize.toNat ∧
          (SparseHeader.ofStore payload).magic = sparseHeaderMagic then
        if obcValidateSparse payload image.payloadSize blockSize part.size.toUInt64 ≠ .ok 0 then
          none
        else some (sparseJournal payload dev.devnum dev.blksz start)
      else if image.payloadSize < 1082 then none
      else if (payload 1080).toUInt16 ||| (payload 1081).toUInt16 <<< 8 ≠ 0xef53 then none
      else if part.size < image.payloadSize ∨ image.payloadSize % blockSize ≠ 0 then none
      else some (Journal.blocks dev.devnum dev.blksz start (image.payloadSize / blockSize).toNat
        payload)

/-- What `write_sparse_image` is relied on for: handed an image that was
accepted, it writes the blocks the image describes, and gives up at the
first transfer that falls short, which reports fewer blocks than it was
asked for. -/
structure UBoot.WritesSparse (U : UBoot) : Prop where
  short : ∀ t start count f, U.fault t start count = some f → f.reported < count
  emits : ∀ (info : SparseStorage) (data : Store UInt8) (size dev : ℕ) (cs : List SparseChunk),
    SparseImage data size info.blksz (info.size * info.blksz) cs →
      (U.writeSparseImage info data).Emits dev info.blksz
        (sparseJournal data dev info.blksz info.start)

section Rootfs

variable {U : UBoot} {w : World} {d : BlkDesc} {pName : List Char} {fileaddr : ℕ}
  {fileSize : Int32} {p : List (Extent ℕ UInt8)}

variable (pName fileaddr fileSize) in
/-- **What a run of the writer comes to.** A rejection, on which nothing
was planned or done; a sparse image that was validated; or an ext image
that fits. -/
theorem obcBlkWriteRootfsByName_cases {plan : Option (List (Extent ℕ UInt8))} {r : ℤ × World}
    (hd : w.gstBlkDev = some d) (hbs : d.blksz < 2 ^ 32)
    (hplan : rootfsPlan U w d pName fileaddr fileSize = plan)
    (hr : obcBlkWriteRootfsByName U w pName fileaddr fileSize = r) :
    (plan = none ∧ r = (-1, w)) ∨
    ∃ i image payload start, obcBlkFindPartByName U w pName = some i ∧
      BlockAligned d.blksz (w.mmcParts U i) ∧
      obcPrepareWriteImage U w.mem fileaddr fileSize = some image ∧
      payload = Store.tail w.mem image.payload ∧
      start = (w.mmcParts U i).addr.toNat / d.blksz ∧
      ((∃ cs prog, SparseImage payload image.payloadSize.toNat d.blksz
          (w.mmcParts U i).size.toNat cs ∧
        prog = U.writeSparseImage ⟨d.blksz, start, (w.mmcParts U i).size.toNat / d.blksz⟩ payload ∧
        plan = some (sparseJournal payload d.devnum d.blksz start) ∧
        r = if (prog.run U w).1 ≠ 0 then (-1, (prog.run U w).2) else (0, (prog.run U w).2)) ∨
      ∃ count, count * d.blksz = image.payloadSize.toNat ∧
        image.payloadSize.toNat ≤ (w.mmcParts U i).size.toNat ∧
        plan = some (Journal.blocks d.devnum d.blksz start count payload) ∧
        r = if (blkDwrite U w start count payload).1 ≠ count then
            (-1, (blkDwrite U w start count payload).2)
          else (0, (blkDwrite U w start count payload).2)) := by
  have hb : (UInt32.ofNat d.blksz).toNat = d.blksz := UInt32.toNat_ofNat_of_lt' hbs
  have h : (plan, r) = (rootfsPlan U w d pName fileaddr fileSize,
      obcBlkWriteRootfsByName U w pName fileaddr fileSize) := by rw [hplan, hr]
  have reject : ((plan, r) = ((none : Option (List (Extent ℕ UInt8))), ((-1 : ℤ), w))) →
      plan = none ∧ r = (-1, w) := fun h => Prod.mk.inj h
  clear hplan hr
  -- the plan takes the writer's branches, so one split is one of both
  simp only [obcBlkWriteRootfsByName, hd, rootfsPlan] at h
  split at h
  · exact Or.inl (reject h)
  split at h
  · exact Or.inl (reject h)
  rename_i i hi
  split at h
  · exact Or.inl (reject h)
  rename_i halign
  split at h
  · exact Or.inl (reject h)
  rename_i image himage
  split at h
  · exact Or.inl (reject h)
  rw [not_or, not_not, not_not] at halign
  have haddr := div_mul_toNat halign.1
  have hsize := div_mul_toNat halign.2
  have hal : BlockAligned d.blksz (w.mmcParts U i) := by
    rw [hb] at haddr hsize
    exact ⟨⟨_, (haddr.symm.trans (Nat.mul_comm _ _))⟩, ⟨_, (hsize.symm.trans (Nat.mul_comm _ _))⟩⟩
  split at h
  · -- a sparse image
    split at h
    · exact Or.inl (reject h)
    rename_i hval
    rw [not_not] at hval
    obtain ⟨r, hr, -, hiff⟩ := obcValidateSparse_eq (Store.tail w.mem image.payload)
      image.payloadSize (UInt32.ofNat d.blksz) (w.mmcParts U i).size.toUInt64
    obtain ⟨cs, hcs⟩ := hiff.1 (Except.ok.inj (hr.symm.trans hval))
    rw [hb, UInt32.toNat_toUInt64] at hcs
    simp only [UInt32.toNat_div, hb] at h
    exact Or.inr ⟨i, image, _, _, hi, hal, himage, rfl, rfl,
      Or.inl ⟨cs, _, hcs, rfl, Prod.mk.inj h⟩⟩
  · -- an ext image
    split at h
    · exact Or.inl (reject h)
    split at h
    · exact Or.inl (reject h)
    split at h
    · exact Or.inl (reject h)
    rename_i hfit
    rw [not_or, not_not] at hfit
    have hcount := div_mul_toNat hfit.2
    simp only [UInt32.toNat_div, hb] at h hcount
    exact Or.inr ⟨i, image, _, _, hi, hal, himage, rfl, rfl, Or.inr ⟨_, hcount,
      UInt32.le_iff_toNat_le.1 (UInt32.not_lt.1 hfit.1), Prod.mk.inj h⟩⟩

/-- **Every check precedes the writes.** -/
theorem obcBlkWriteRootfsByName_planned (hU : U.WritesSparse) (hd : w.gstBlkDev = some d)
    (hbs : d.blksz < 2 ^ 32) :
    Planned w (rootfsPlan U w d pName fileaddr fileSize)
      (obcBlkWriteRootfsByName U w pName fileaddr fileSize) := by
  obtain ⟨hplan, hr⟩ | ⟨i, image, payload, start, -, hal, -, -, -,
    ⟨cs, prog, hcs, rfl, hplan, hr⟩ | ⟨count, -, -, hplan, hr⟩⟩ :=
    obcBlkWriteRootfsByName_cases (U := U) pName fileaddr fileSize hd hbs rfl rfl
  · rw [hplan, hr]
    rfl
  · rw [hplan, hr]
    have hemit := hU.emits ⟨d.blksz, start, (w.mmcParts U i).size.toNat / d.blksz⟩ payload _
      d.devnum cs (by rw [Nat.div_mul_cancel hal.2]; exact hcs)
    obtain ⟨l, cs', n, hrun, hl, hret⟩ := hemit.run (U := U) (w := w) hd hU.short
    split
    · rename_i hne
      exact ⟨l, cs', n, hrun, hl, Or.inr ⟨rfl, (hret.resolve_left fun h => hne h.1).2⟩⟩
    · rename_i h0
      exact ⟨l, cs', n, hrun, hl, Or.inl ⟨rfl, (hret.resolve_right fun h => h0 h.1).2⟩⟩
  · rw [hplan, hr]
    exact runs_of_blkDwrite hd rfl

variable (pName fileaddr fileSize) in
/-- However `write_sparse_image` goes about it, blocks, calls and clock
ticks are all a write adds. -/
theorem obcBlkWriteRootfsByName_advance (hd : w.gstBlkDev = some d) (hbs : d.blksz < 2 ^ 32) :
    ∃ l cs n, (obcBlkWriteRootfsByName U w pName fileaddr fileSize).2 = w.advance l cs n := by
  obtain ⟨-, hr⟩ | ⟨i, image, payload, start, -, -, -, -, -, ⟨cs, prog, -, -, -, hr⟩ |
    ⟨count, -, -, -, hr⟩⟩ := obcBlkWriteRootfsByName_cases (U := U) pName fileaddr fileSize hd hbs
      rfl rfl
  · exact ⟨[], [], 0, by rw [hr, World.advance_zero]⟩
  · obtain ⟨l, cs', n, hrun⟩ := SparseProg.run_eq_advance (U := U) prog hd
    refine ⟨l, cs', n, ?_⟩
    rw [hr]
    split <;> exact hrun
  · rw [hr]
    exact (runs_of_blkDwrite hd rfl).planned.exists_advance

/-- **A plan made** stays in a partition found. -/
theorem rootfsPlan_within (hd : w.gstBlkDev = some d) (hbs : d.blksz < 2 ^ 32)
    (h : rootfsPlan U w d pName fileaddr fileSize = some p) :
    ∃ i, obcBlkFindPartByName U w pName = some i ∧
      Journal.Within d.devnum (w.mmcParts U i).region p := by
  obtain ⟨hplan, -⟩ | ⟨i, image, payload, start, hi, hal, -, -, rfl,
    ⟨cs, prog, hcs, -, hplan, -⟩ | ⟨count, hcount, hle, hplan, -⟩⟩ :=
    obcBlkWriteRootfsByName_cases _ _ _ hd hbs h rfl
  · cases hplan
  · obtain rfl := Option.some.inj hplan
    have := hcs.within_journal d.devnum ((w.mmcParts U i).addr.toNat / d.blksz)
    rw [Nat.div_mul_cancel hal.1] at this
    exact ⟨i, hi, this⟩
  · obtain rfl := Option.some.inj hplan
    refine ⟨i, hi, Journal.within_blocks.mono ?_⟩
    intro x hx
    rw [Nat.add_mul, Nat.div_mul_cancel hal.1, hcount] at hx
    exact ⟨hx.1, hx.2.trans_le (Nat.add_le_add_left hle _)⟩

end Rootfs

end Boot

end ObcSdk
