import Mathlib.Data.List.Forall2
import Mathlib.Tactic.Ring
import ObcSdk.Kernel.SharedMemory
/-!
# What a process can map

Only the reserved memory of the device tree: a range of pages is mapped
exactly if one region has all of it, and each region can be mapped in
whole as the driver tells it. That needs the kernel's own check that the
end of a mapping does not wrap.
-/

namespace ObcSdk

namespace Kernel

/-- A range of memory lies in the reserved memory of an entry. -/
def MemoryRegion.Holds (ref : MemoryRegion) (lo hi : ℕ) : Prop :=
  ∃ base size, ref.rmem = some (base, size) ∧ base.toNat ≤ lo ∧ hi ≤ base.toNat + size.toNat

/-- Reserved memory ends below the end of the address space. -/
def MemoryRegion.Placed (ref : MemoryRegion) : Prop :=
  ∀ base size, ref.rmem = some (base, size) → base.toNat + size.toNat < 2 ^ 64

section Mapping

variable {refs : List MemoryRegion} {ref : MemoryRegion} {regions : List ShmemRegion}
  {region : ShmemRegion} {pgoff len base size : UInt64} {np alloc : Bool}

theorem parseRegion_ok (h : parseRegion ref = .ok region) :
    ∃ base size, ref.rmem = some (base, size) ∧ region.resStart = base ∧
      region.resourceSize = size := by
  rw [parseRegion] at h
  split at h
  · cases h
  cases hrmem : ref.rmem with
  | none =>
    rw [hrmem] at h
    cases h
  | some bs =>
    obtain ⟨base, size⟩ := bs
    rw [hrmem] at h
    obtain rfl := Except.ok.inj h
    refine ⟨base, size, rfl, rfl, ?_⟩
    rw [ShmemRegion.resourceSize]
    grind

/-- The table has an entry for each reference, in their order. -/
theorem forall₂_of_mapM (h : refs.mapM parseRegion = .ok regions) :
    List.Forall₂ (fun ref region => parseRegion ref = .ok region) refs regions := by
  induction refs generalizing regions with
  | nil =>
    obtain rfl := Except.ok.inj h
    exact .nil
  | cons ref refs ih =>
    rw [List.mapM_cons] at h
    cases hhead : parseRegion ref with
    | error e =>
      rw [hhead] at h
      cases h
    | ok region =>
      cases htail : refs.mapM parseRegion with
      | error e =>
        rw [hhead, htail] at h
        cases h
      | ok rest =>
        rw [hhead, htail] at h
        obtain rfl := Except.ok.inj h
        exact .cons hhead (ih htail)

theorem forall₂_of_parseDt (h : shmemParseDt np refs alloc = .ok regions) :
    List.Forall₂ (fun ref region => parseRegion ref = .ok region) refs regions := by
  rw [shmemParseDt] at h
  split at h
  · cases h
  split at h
  · cases h
  split at h
  · cases h
  · exact forall₂_of_mapM h

theorem toNat_shiftLeft_pageShift (h : pgoff.toNat * 4096 < 2 ^ 64) :
    (pgoff <<< pageShift).toNat = pgoff.toNat * 4096 := by
  have hshift : pageShift.toNat % 64 = 12 := rfl
  rw [UInt64.toNat_shiftLeft, hshift, Nat.shiftLeft_eq, Nat.mod_eq_of_lt h]

theorem shiftLeft_shiftRight_pageShift (h : pgoff.toNat * 4096 < 2 ^ 64) :
    pgoff <<< pageShift >>> pageShift = pgoff := by
  have hshift : pageShift.toNat % 64 = 12 := rfl
  have hdiv : pgoff.toNat * 4096 / 2 ^ 12 = pgoff.toNat :=
    Nat.mul_div_cancel _ (by decide)
  refine UInt64.toNat_inj.1 ?_
  rw [UInt64.toNat_shiftRight, toNat_shiftLeft_pageShift h, hshift, Nat.shiftRight_eq_div_pow,
    hdiv]

/-- The test of a region, in numbers. -/
theorem fits_iff (hwrap : pgoff.toNat * 4096 + len.toNat < 2 ^ 64)
    (hplaced : base.toNat + size.toNat < 2 ^ 64) :
    (base ≤ pgoff <<< pageShift ∧ pgoff <<< pageShift + len ≤ base + size) ↔
      base.toNat ≤ pgoff.toNat * 4096 ∧
        pgoff.toNat * 4096 + len.toNat ≤ base.toNat + size.toNat := by
  have hoffset : (pgoff <<< pageShift).toNat = pgoff.toNat * 4096 :=
    toNat_shiftLeft_pageShift (Nat.lt_of_le_of_lt (Nat.le_add_right _ _) hwrap)
  rw [UInt64.le_iff_toNat_le, UInt64.le_iff_toNat_le, UInt64.toNat_add, UInt64.toNat_add, hoffset,
    Nat.mod_eq_of_lt hwrap, Nat.mod_eq_of_lt hplaced]

/-- The test of a region asks whether its reserved memory has the range. -/
theorem fits_iff_holds (hok : parseRegion ref = .ok region) (hplaced : ref.Placed)
    (hwrap : pgoff.toNat * 4096 + len.toNat < 2 ^ 64) :
    (region.resStart ≤ pgoff <<< pageShift ∧
        pgoff <<< pageShift + len ≤ region.resStart + region.resourceSize) ↔
      ref.Holds (pgoff.toNat * 4096) (pgoff.toNat * 4096 + len.toNat) := by
  obtain ⟨base, size, hrmem, hstart, hsize⟩ := parseRegion_ok hok
  rw [hstart, hsize, fits_iff hwrap (hplaced base size hrmem)]
  constructor
  · intro h
    exact ⟨base, size, hrmem, h.1, h.2⟩
  · rintro ⟨base', size', hrmem', h⟩
    rw [hrmem] at hrmem'
    cases hrmem'
    exact h

/-- A region that is found for a range is one of the table that has it. -/
theorem find_isSome_iff
    (hall : List.Forall₂ (fun ref region => parseRegion ref = .ok region) refs regions)
    (hplaced : ∀ ref ∈ refs, ref.Placed) (hwrap : pgoff.toNat * 4096 + len.toNat < 2 ^ 64) :
    (shmemRegionFind regions pgoff len).isSome = true ↔
      ∃ ref ∈ refs, ref.Holds (pgoff.toNat * 4096) (pgoff.toNat * 4096 + len.toNat) := by
  rw [shmemRegionFind, List.find?_isSome]
  induction hall with
  | nil => simp
  | cons hok _ ih =>
    have hhead := fits_iff_holds hok (hplaced _ List.mem_cons_self) hwrap
    have htail := ih fun ref href => hplaced ref (List.mem_cons_of_mem _ href)
    simp only [List.exists_mem_cons_iff, decide_eq_true_eq, hhead, ← htail]

theorem mmap_eq_ok_iff (hwrap : pgoff.toNat * 4096 + len.toNat < 2 ^ 64) {remap : Bool}
    {pfn : UInt64} :
    shmemMmap regions pgoff len remap = .ok pfn ↔
      (shmemRegionFind regions pgoff len).isSome = true ∧ remap = true ∧ pfn = pgoff := by
  have hpage : pgoff <<< pageShift >>> pageShift = pgoff :=
    shiftLeft_shiftRight_pageShift (Nat.lt_of_le_of_lt (Nat.le_add_right _ _) hwrap)
  rw [shmemMmap]
  cases shmemRegionFind regions pgoff len with
  | none => simp
  | some region =>
    have hoffset : region.resStart + (pgoff <<< pageShift - region.resStart) =
        pgoff <<< pageShift := by
      grind
    simp only [hoffset, hpage]
    cases remap with
    | false => simp
    | true => simp [eq_comm]

/-! ## What is told -/

/-- The alignment of an entry: a page where its node has none, or 0. -/
def MemoryRegion.align (ref : MemoryRegion) : UInt32 :=
  if ref.alignment.getD 0 = 0 then pageSize else ref.alignment.getD 0

theorem parseRegion_align (h : parseRegion ref = .ok region) : region.align = ref.align := by
  rw [parseRegion] at h
  split at h
  · cases h
  cases hrmem : ref.rmem with
  | none =>
    rw [hrmem] at h
    cases h
  | some bs =>
    rw [hrmem] at h
    obtain rfl := Except.ok.inj h
    rw [MemoryRegion.align]
    cases ref.alignment with
    | none => rfl
    | some a => rfl

/-- The regions of the table are those of the entries, one by one. -/
theorem getElem?_eq_some_iff
    (hall : List.Forall₂ (fun ref region => parseRegion ref = .ok region) refs regions) {i : ℕ} :
    regions[i]? = some region ↔ ∃ ref, refs[i]? = some ref ∧ parseRegion ref = .ok region := by
  induction hall generalizing i with
  | nil => simp
  | @cons ref r refs regions hok _ ih =>
    cases i with
    | zero =>
      simp only [List.getElem?_cons_zero, Option.some_inj, exists_eq_left', hok]
      exact Except.ok.injEq _ _ ▸ Iff.rfl
    | succ i => exact ih

/-- **The driver tells the `i`-th entry** of the one that asks for index
`i`: its base, its size and its alignment. -/
theorem ioctl_info_eq_ok_iff
    (hall : List.Forall₂ (fun ref region => parseRegion ref = .ok region) refs regions)
    {argp : ShmemRegionInfo} {copyFromUser copyToUser : Bool} {reply : ShmemReply} :
    shmemIoctl regions shmemIocGetRegionInfo argp copyFromUser copyToUser = .ok reply ↔
      copyFromUser = true ∧ copyToUser = true ∧ ∃ ref base size,
        refs[argp.index.toNat]? = some ref ∧ ref.rmem = some (base, size) ∧
        reply = .info { argp with physAddr := base, size := size, align := ref.align } := by
  have hcmd : shmemIocGetRegionInfo ≠ shmemIocGetRegionCount := by decide
  rw [shmemIoctl, if_neg hcmd, if_pos rfl]
  cases copyFromUser with
  | false => simp
  | true =>
    rw [if_neg (by simp)]
    cases hregion : regions[argp.index.toNat]? with
    | none =>
      have hlen : refs.length ≤ argp.index.toNat :=
        hall.length_eq ▸ List.getElem?_eq_none_iff.1 hregion
      simp [List.getElem?_eq_none hlen]
    | some region =>
      obtain ⟨ref, href, hok⟩ := (getElem?_eq_some_iff hall).1 hregion
      obtain ⟨base, size, hrmem, hstart, hsize⟩ := parseRegion_ok hok
      cases copyToUser with
      | false => simp
      | true =>
        simp only [if_true, Except.ok.injEq, true_and, hstart, hsize, parseRegion_align hok, href,
          Option.some_inj]
        constructor
        · rintro rfl
          exact ⟨ref, base, size, rfl, hrmem, rfl⟩
        · rintro ⟨ref', base', size', rfl, hrmem', rfl⟩
          rw [hrmem] at hrmem'
          cases hrmem'
          rfl

/-- Another index is refused. -/
theorem ioctl_info_eq_inval
    (hall : List.Forall₂ (fun ref region => parseRegion ref = .ok region) refs regions)
    {argp : ShmemRegionInfo} {copyToUser : Bool} (hindex : refs.length ≤ argp.index.toNat) :
    shmemIoctl regions shmemIocGetRegionInfo argp true copyToUser = .error eInval := by
  have hcmd : shmemIocGetRegionInfo ≠ shmemIocGetRegionCount := by decide
  rw [hall.length_eq] at hindex
  rw [shmemIoctl, if_neg hcmd, if_pos rfl, if_neg (by simp), List.getElem?_eq_none hindex]

/-- **What a process can do with the table** made of the references. -/
structure Confined (refs : List MemoryRegion) (regions : List ShmemRegion) : Prop where
  /-- A mapping is granted exactly if one reserved memory has all of it. -/
  granted_iff : ∀ pgoff len : UInt64, pgoff.toNat * 4096 + len.toNat < 2 ^ 64 →
    ((∃ pfn, shmemMmap regions pgoff len true = .ok pfn) ↔
      ∃ ref ∈ refs, ref.Holds (pgoff.toNat * 4096) (pgoff.toNat * 4096 + len.toNat))
  /-- What is mapped is what was asked for. -/
  page : ∀ (pgoff len : UInt64) remap pfn, pgoff.toNat * 4096 + len.toNat < 2 ^ 64 →
    shmemMmap regions pgoff len remap = .ok pfn → pfn = pgoff
  /-- A process is told how many regions there are, -/
  count : ∀ argp copyFromUser, shmemIoctl regions shmemIocGetRegionCount argp copyFromUser true =
    .ok (.count refs.length)
  /-- and of each of them, by its index, the base, the size and the alignment,
  and of nothing else; -/
  told_iff : ∀ argp copyFromUser copyToUser reply,
    shmemIoctl regions shmemIocGetRegionInfo argp copyFromUser copyToUser = .ok reply ↔
      copyFromUser = true ∧ copyToUser = true ∧ ∃ ref base size,
        refs[argp.index.toNat]? = some ref ∧ ref.rmem = some (base, size) ∧
        reply = .info { argp with physAddr := base, size := size, align := ref.align }
  /-- each index below the count has a region, and another is refused; -/
  index : ∀ argp, (argp.index.toNat < refs.length → ∃ reply,
      shmemIoctl regions shmemIocGetRegionInfo argp true true = .ok reply) ∧
    (refs.length ≤ argp.index.toNat → ∀ copyToUser,
      shmemIoctl regions shmemIocGetRegionInfo argp true copyToUser = .error eInval)
  /-- another command is refused. -/
  other : ∀ cmd argp copyFromUser copyToUser, cmd ≠ shmemIocGetRegionCount →
    cmd ≠ shmemIocGetRegionInfo →
      shmemIoctl regions cmd argp copyFromUser copyToUser = .error eNotty
  /-- A region told of that begins with a page can be mapped in whole. -/
  mappable : ∀ argp info, shmemIoctl regions shmemIocGetRegionInfo argp true true =
      .ok (.info info) → info.physAddr.toNat % 4096 = 0 →
    ∃ pfn, shmemMmap regions (info.physAddr >>> pageShift) info.size true = .ok pfn ∧
      pfn.toNat * 4096 = info.physAddr.toNat

/-- A region that begins with a page can be mapped in whole. -/
theorem mmap_whole
    (hall : List.Forall₂ (fun ref region => parseRegion ref = .ok region) refs regions)
    (hplaced : ∀ ref ∈ refs, ref.Placed) (href : ref ∈ refs) (hrmem : ref.rmem = some (base, size))
    (hpage : base.toNat % 4096 = 0) :
    ∃ pfn, shmemMmap regions (base >>> pageShift) size true = .ok pfn ∧
      pfn.toNat * 4096 = base.toNat := by
  have hplace := hplaced ref href _ _ hrmem
  have hshift : (base >>> pageShift).toNat * 4096 = base.toNat := by
    have hbits : pageShift.toNat % 64 = 12 := rfl
    rw [UInt64.toNat_shiftRight, hbits, Nat.shiftRight_eq_div_pow]
    exact Nat.div_mul_cancel (Nat.dvd_of_mod_eq_zero hpage)
  have hwrap : (base >>> pageShift).toNat * 4096 + size.toNat < 2 ^ 64 := hshift ▸ hplace
  refine ⟨_, (mmap_eq_ok_iff hwrap).2 ⟨?_, rfl, rfl⟩, hshift⟩
  refine (find_isSome_iff hall hplaced hwrap).2 ⟨ref, href, _, _, hrmem, ?_, ?_⟩
  · exact hshift.ge
  · exact (congrArg (· + size.toNat) hshift).le

/-- Two regions of a board, of which the second has no alignment of its
own. -/
def sampleRefs : List MemoryRegion :=
  [⟨true, some 65536, some (0x7800000, 0x200000)⟩, ⟨true, none, some (0x7a00000, 0x100000)⟩]

-- Without the kernel's check, a mapping that wraps is granted a page that
-- no region has.
example :
    shmemMmap [⟨65536, 0x1000, 0x1fffff, 0x1000, 0x1ff000⟩] 0xfffffffffffff 0x2000 true =
      .ok 0xfffffffffffff := by
  decide

end Mapping

end Kernel

end ObcSdk
