import ObcSdk.Boot.Bench
/-!
# What a rejection leaves behind

The two writers turn a request down for some fifteen reasons, and every
one of them is found before the first block is written: a run that
returns `-1` though no block write failed has written none.
-/

namespace ObcSdk

namespace Boot

variable {U : UBoot} {w : World} {d : BlkDesc} {pName : List Char} {fileaddr : ℕ}
  {fileSize : Int32} {r : ℤ × World} {plan : Option (List (Extent ℕ UInt8))}

/-- `write_sparse_image` fails on an accepted image only when a write
does. -/
def UBoot.SparseSucceeds (U : UBoot) : Prop :=
  ∀ info data size cs, SparseImage data size info.blksz (info.size * info.blksz) cs →
    (U.writeSparseImage info data).Succeeds

/-- A planned run that fails with no write failing is a rejection. -/
theorem Planned.rejected (h : Planned w plan r) (hneg : r.1 = -1)
    (hok : ∀ c ∈ w.since r.2, ¬ c.Failed) : r.2 = w := by
  cases plan with
  | none => rw [show r = (-1, w) from h]
  | some p =>
    obtain ⟨l, cs, n, hr, -, ⟨h0, -⟩ | ⟨-, c, hc, hcf⟩⟩ := h
    · rw [hneg] at h0
      exact absurd h0 (by decide)
    · rw [hr, World.since_advance] at hok
      exact absurd hcf (hok c hc)

/-- **A rejection leaves the device untouched.** Where a writer returns
`-1` and no block write failed, nothing was written and the state is the
one before the call. -/
theorem rejection_leaves_device (hsparse : U.SparseSucceeds) (hd : w.gstBlkDev = some d)
    (hbs : d.blksz < 2 ^ 32)
    (hr : r = obcBlkWritePartByName U w pName fileaddr fileSize ∨
      r = obcBlkWriteRootfsByName U w pName fileaddr fileSize)
    (hneg : r.1 = -1) (hok : ∀ c ∈ w.since r.2, ¬ c.Failed) :
    r.2.log = w.log ∧ r.2.disk = w.disk := by
  suffices hsame : r.2 = w by rw [hsame]; exact ⟨rfl, rfl⟩
  rcases hr with hr | hr
  · subst hr
    exact (obcBlkWritePartByName_planned _ _ _ hd).rejected hneg hok
  obtain ⟨-, hr'⟩ | ⟨i, image, payload, start, -, hal, -, -, -, ⟨cs, prog, hcs, rfl, -, hr'⟩ |
    ⟨count, -, -, -, hr'⟩⟩ := obcBlkWriteRootfsByName_cases _ _ _ hd hbs rfl hr.symm
  · rw [hr']
  · -- the image was accepted, so a failure is a write's
    obtain ⟨l, cs', n, hrun, hfail⟩ := SparseProg.Succeeds.run (U := U) hd
      (hsparse ⟨d.blksz, start, (w.mmcParts U i).size.toNat / d.blksz⟩ payload _ cs
        (by rw [Nat.div_mul_cancel hal.2]; exact hcs))
    split at hr'
    · rename_i hne
      obtain ⟨c, hc, hcf⟩ := hfail hne
      rw [hr', hrun, World.since_advance] at hok
      exact absurd hcf (hok c hc)
    · rw [hr'] at hneg
      exact absurd hneg (by simp)
  · exact (runs_of_blkDwrite hd hr').planned.rejected hneg hok

theorem Bench.sparseSucceeds : Bench.uboot.SparseSucceeds := fun _ _ _ _ _ => chunksProg_succeeds

/-- A package cut short after a hundred bytes. -/
theorem truncated_package_leaves_device :
    (obcBlkWriteRootfsByName Bench.uboot Bench.signedWorld (UpdatexFileType.rootfs.label '0')
        updatexLoadeAddr 100).2.log = Bench.signedWorld.log ∧
      (obcBlkWriteRootfsByName Bench.uboot Bench.signedWorld (UpdatexFileType.rootfs.label '0')
        updatexLoadeAddr 100).2.disk = Bench.signedWorld.disk := by
  have hcalls : (Bench.signedWorld.since (obcBlkWriteRootfsByName Bench.uboot Bench.signedWorld
      (UpdatexFileType.rootfs.label '0') updatexLoadeAddr 100).2).length = 0 := by decide +kernel
  refine rejection_leaves_device Bench.sparseSucceeds Bench.signedWorld_on.dev (by decide)
    (Or.inr rfl) (by decide +kernel) ?_
  intro c hc
  rw [List.length_eq_zero_iff.1 hcalls] at hc
  exact absurd hc (List.not_mem_nil)

end Boot

end ObcSdk
