import ObcSdk.Boot.Bench
/-!
# What a boot read asks of the device

The transfers `obc_blk_read_part_by_name` requests, from the table, the
header and the outcome of the first transfer. They are in the
partition's bytes when it starts on a block, holds one, and the rounded
up payload fits behind the header. A partition smaller than the header
makes the limit wrap around, and then the header alone decides.
-/

namespace ObcSdk

namespace Boot

/-- A transfer requested: its first block, their number, and where in
memory they go. -/
structure BlkRequest where
  start : ℕ
  count : ℕ
  buffer : ℕ
deriving DecidableEq

namespace ObcPackHead

/-- The header passes the checks made before the payload is read. -/
def Accepted (h : ObcPackHead) (size : UInt32) : Prop :=
  h.HasMagic ∧ h.fileSize ≠ 0 ∧ ¬ size - 512 < h.fileSize

instance (h : ObcPackHead) (size : UInt32) : Decidable (h.Accepted size) :=
  inferInstanceAs (Decidable (_ ∧ _ ∧ _))

end ObcPackHead

/-- Memory with the block the header is in. -/
def headerMem (U : UBoot) (w : World) (i addr : ℕ) : Store UInt8 :=
  Store.write w.mem addr
    (dread U w ((w.parts U i).addr.toNat / w.stAbility.stBlk.iRdSize) 1).2

/-- The header there. -/
def headerRead (U : UBoot) (w : World) (i addr : ℕ) : ObcPackHead :=
  ObcPackHead.ofStore (headerMem U w i addr) addr

/-- The first transfer was whole, and the header passes. -/
def HeaderAccepted (U : UBoot) (w : World) (i addr : ℕ) : Prop :=
  (dread U w ((w.parts U i).addr.toNat / w.stAbility.stBlk.iRdSize) 1).1 = 1 ∧
    (headerRead U w i addr).Accepted (w.parts U i).size

instance (U : UBoot) (w : World) (i addr : ℕ) : Decidable (HeaderAccepted U w i addr) :=
  inferInstanceAs (Decidable (_ ∧ _))

/-- The payload's transfer, as requested. -/
def payloadRequest (U : UBoot) (w : World) (i addr : ℕ) : BlkRequest where
  start := (w.parts U i).addr.toNat / w.stAbility.stBlk.iRdSize + 1
  count := blockCount (headerRead U w i addr).fileSize.toNat w.stAbility.stBlk.iRdSize
  buffer := addr + obcHeaderSize

/-- What the payload's transfer moves. -/
def payloadRead (U : UBoot) (w : World) (i addr : ℕ) : List UInt8 :=
  (dread U (w.loaded (headerMem U w i addr) [] 1) (payloadRequest U w i addr).start
    (payloadRequest U w i addr).count).2

/-- It moved all its blocks. -/
def PayloadWhole (U : UBoot) (w : World) (i addr : ℕ) : Prop :=
  (dread U (w.loaded (headerMem U w i addr) [] 1) (payloadRequest U w i addr).start
    (payloadRequest U w i addr).count).1 = (payloadRequest U w i addr).count

/-- Memory behind it. -/
def payloadMem (U : UBoot) (w : World) (i addr : ℕ) : Store UInt8 :=
  Store.write (headerMem U w i addr) (addr + obcHeaderSize) (payloadRead U w i addr)

/-- What is verified. -/
def verified (U : UBoot) (w : World) (i addr : ℕ) : List UInt8 :=
  Store.read (payloadMem U w i addr) (addr + obcHeaderSize)
    (ObcPackHead.ofStore (payloadMem U w i addr) addr).fileSize.toNat

/-- The transfers `obc_blk_read_part_by_name` requests: the header's
block, and the payload's behind it when the header passes. -/
def readRequests (U : UBoot) (w : World) (partname : List Char) (addr : ℕ) : List BlkRequest :=
  match obcBlkFindPartByName U w partname with
  | none => []
  | some i =>
    ⟨(w.parts U i).addr.toNat / w.stAbility.stBlk.iRdSize, 1, addr⟩ ::
      if HeaderAccepted U w i addr then [payloadRequest U w i addr] else []

/-- The read keeps to a partition and to the memory it is meant for: it
makes the transfers requested, each in one tick of the clock, their blocks
are the partition's, memory changes within its size from the load address
on, and the CRC is taken over bytes of a transfer requested. -/
structure ReadsWithin (U : UBoot) (w : World) (d : BlkDesc) (partname : List Char) (addr : ℕ)
    (p : BoardAbilityBlkParts) : Prop where
  transfers : (obcBlkReadPartByName U w partname addr).2.tick =
    w.tick + (readRequests U w partname addr).length
  blocks : ∀ r ∈ readRequests U w partname addr,
    ∀ x, r.start * d.blksz ≤ x → x < (r.start + r.count) * d.blksz → x ∈ p.region
  memory : ∀ x, x ∉ Set.Ico addr (addr + p.size.toNat) →
    (obcBlkReadPartByName U w partname addr).2.mem x = w.mem x
  crc : ∀ part payload ret,
    Call.verify part payload ret ∈ w.since (obcBlkReadPartByName U w partname addr).2 →
      ∃ r ∈ readRequests U w partname addr,
        payload <+: Store.read (w.disk d.devnum) (r.start * d.blksz) (r.count * d.blksz)

section Requests

variable {U : UBoot} {w : World} {d : BlkDesc} {partname : List Char} {addr i x : ℕ}

/-- The reader's returns, in the source's order. -/
theorem obcBlkReadPartByName_eq (hfind : obcBlkFindPartByName U w partname = some i) :
    obcBlkReadPartByName U w partname addr =
      let w₁ := w.loaded (headerMem U w i addr) [] 1
      let w₂ := w₁.loaded (payloadMem U w i addr) [] 1
      let ret := obcVerifyPackHeader U (payloadMem U w i addr) addr (addr + obcHeaderSize)
      let calls := [Call.verify (w.parts U i) (verified U w i addr) ret]
      if (dread U w ((w.parts U i).addr.toNat / w.stAbility.stBlk.iRdSize) 1).1 ≠ 1 then (-1, w₁)
      else if ¬ (headerRead U w i addr).HasMagic then (-1, w₁)
      else if (headerRead U w i addr).fileSize = 0 ∨
        (w.parts U i).size - 512 < (headerRead U w i addr).fileSize then (-1, w₁)
      else if (dread U w₁ (payloadRequest U w i addr).start
        (payloadRequest U w i addr).count).1 ≠ (payloadRequest U w i addr).count then (-1, w₂)
      else if ret ≠ 0 then (-1, w₂.loaded (payloadMem U w i addr) calls 0)
      else (0, w₂.loaded (Store.write (payloadMem U w i addr) addr (verified U w i addr))
        calls 0) := by
  unfold obcBlkReadPartByName
  rw [hfind]
  rfl

variable (addr) in
/-- **What a run of the reader did**, by its requests: with the first
alone it moved the header's block, with both the payload's blocks too,
and what it verified, if it came to that, is what these left. -/
theorem obcBlkReadPartByName_inv (hfind : obcBlkFindPartByName U w partname = some i) :
    (¬ HeaderAccepted U w i addr ∧
      (obcBlkReadPartByName U w partname addr).2 = w.loaded (headerMem U w i addr) [] 1) ∨
    (HeaderAccepted U w i addr ∧ ∃ m cs,
      (obcBlkReadPartByName U w partname addr).2 = w.loaded m cs 2 ∧
      (m = payloadMem U w i addr ∨
        m = Store.write (payloadMem U w i addr) addr (verified U w i addr)) ∧
      (cs = [] ∨ PayloadWhole U w i addr ∧
        ∃ ret, cs = [.verify (w.parts U i) (verified U w i addr) ret])) := by
  rw [obcBlkReadPartByName_eq hfind]
  simp only [World.loaded_loaded, List.append_nil, List.nil_append, Nat.add_zero, Nat.reduceAdd]
  split
  · rename_i h1
    exact Or.inl ⟨fun h => h1 h.1, rfl⟩
  rename_i h1
  split
  · rename_i h2
    exact Or.inl ⟨fun h => h2 h.2.1, rfl⟩
  rename_i h2
  split
  · rename_i h3
    exact Or.inl ⟨fun h => h3.elim h.2.2.1 h.2.2.2, rfl⟩
  rename_i h3
  rw [not_not] at h1 h2
  rw [not_or] at h3
  refine Or.inr ⟨⟨h1, h2, h3⟩, ?_⟩
  split
  · exact ⟨_, _, rfl, Or.inl rfl, Or.inl rfl⟩
  rename_i h4
  rw [not_not] at h4
  split
  · exact ⟨_, _, rfl, Or.inl rfl, Or.inr ⟨h4, _, rfl⟩⟩
  · exact ⟨_, _, rfl, Or.inr rfl, Or.inr ⟨h4, _, rfl⟩⟩

/-- The requests are the calls of `blk_dread` the reader makes: each is
one tick of the clock. -/
theorem obcBlkReadPartByName_tick :
    (obcBlkReadPartByName U w partname addr).2.tick =
      w.tick + (readRequests U w partname addr).length := by
  cases hfind : obcBlkFindPartByName U w partname with
  | none => simp only [obcBlkReadPartByName, readRequests, hfind]; rfl
  | some i =>
    simp only [readRequests, hfind]
    rcases obcBlkReadPartByName_inv addr hfind with ⟨hno, h⟩ | ⟨hyes, m, cs, h, -, -⟩
    · rw [h, if_neg hno]
      rfl
    · rw [h, if_pos hyes]
      rfl

/-! ## On blocks of 512 bytes -/

theorem length_dread_le {start : ℕ} (count : ℕ) (hw : w.On d) :
    (dread U w start count).2.length ≤ count * 512 := by
  simp only [dread, hw.dev, hw.blksz]
  split
  · rw [Store.length_read]
  · rename_i f _
    rw [Store.length_read]
    exact Nat.mul_le_mul_right _ f.moved_le

theorem headerMem_of_lt (hx : x < addr) : headerMem U w i addr x = w.mem x :=
  Store.write_of_lt hx

theorem headerMem_of_ge (hw : w.On d) (hx : addr + 512 ≤ x) :
    headerMem U w i addr x = w.mem x := by
  unfold headerMem
  have hlen : (dread U w ((w.parts U i).addr.toNat / w.stAbility.stBlk.iRdSize) 1).2.length ≤
      1 * 512 := length_dread_le 1 hw
  rw [Store.write_of_ge (by omega)]

theorem payloadMem_of_lt (hx : x < addr) : payloadMem U w i addr x = w.mem x := by
  rw [payloadMem, Store.write_of_lt (by omega), headerMem_of_lt hx]

theorem payloadMem_of_ge (hw : w.On d)
    (hx : addr + 512 + (payloadRequest U w i addr).count * 512 ≤ x) :
    payloadMem U w i addr x = w.mem x := by
  have hlen : (payloadRead U w i addr).length ≤ (payloadRequest U w i addr).count * 512 :=
    length_dread_le (d := d) _ ⟨hw.dev, hw.blksz, hw.rdSize⟩
  have hend : addr + obcHeaderSize + (payloadRead U w i addr).length ≤ x := by
    rw [obcHeaderSize]
    omega
  rw [payloadMem, Store.write_of_ge hend, headerMem_of_ge hw (by omega)]

/-- The header as read first is still there when the package is
verified. -/
theorem ofStore_payloadMem :
    ObcPackHead.ofStore (payloadMem U w i addr) addr = headerRead U w i addr :=
  ObcPackHead.ofStore_congr fun j hj =>
    Store.write_of_lt (Nat.add_lt_add_left (hj.trans (by decide)) addr)

variable (addr i) in
/-- The verified bytes are as many as the header claims, which the
transfer's blocks hold. -/
theorem length_verified_le (hw : w.On d) :
    (verified U w i addr).length ≤ (payloadRequest U w i addr).count * 512 := by
  rw [verified, Store.length_read, ofStore_payloadMem, payloadRequest, hw.rdSize]
  exact le_blockCount_mul (by decide)

/-- The header read is the medium's. -/
theorem headerRead_eq (hw : w.On d)
    (hf : U.fault w.tick ((w.parts U i).addr.toNat / 512) 1 = none) :
    headerRead U w i addr = ObcPackHead.ofStore (w.disk d.devnum) (w.parts U i).base := by
  unfold headerRead headerMem
  rw [hw.rdSize, dread_of_ok hw.dev hf, hw.blksz, Nat.one_mul, BoardAbilityBlkParts.mul_eq_base]
  simp only [ofStore_header]

/-- Whether it passes, told from the medium. -/
theorem headerAccepted_iff (hw : w.On d) : HeaderAccepted U w i addr ↔
    U.fault w.tick ((w.parts U i).addr.toNat / 512) 1 = none ∧
      (ObcPackHead.ofStore (w.disk d.devnum) (w.parts U i).base).Accepted (w.parts U i).size := by
  unfold HeaderAccepted
  rw [hw.rdSize]
  constructor
  · rintro ⟨hone, hacc⟩
    obtain ⟨-, -, hf, -⟩ := dread_eq Nat.one_pos hone
    rw [headerRead_eq hw hf] at hacc
    exact ⟨hf, hacc⟩
  · rintro ⟨hf, hacc⟩
    rw [headerRead_eq hw hf, dread_of_ok hw.dev hf]
    exact ⟨rfl, hacc⟩

/-- A header that passes claims a byte at least. -/
theorem payloadRequest_count_pos (hw : w.On d) (hacc : HeaderAccepted U w i addr) :
    0 < (payloadRequest U w i addr).count := by
  rw [payloadRequest, hw.rdSize]
  refine blockCount_pos (by decide) (Nat.pos_of_ne_zero ?_)
  intro h0
  exact hacc.2.2.1 (UInt32.toNat_inj.1 h0)

/-- **The CRC is over bytes just read**: those of the payload's
transfer. -/
theorem verified_prefix (hw : w.On d) (hacc : HeaderAccepted U w i addr)
    (hwhole : PayloadWhole U w i addr) :
    verified U w i addr <+: Store.read (w.disk d.devnum) ((payloadRequest U w i addr).start * 512)
      ((payloadRequest U w i addr).count * 512) := by
  have hle := length_verified_le (U := U) addr i hw
  obtain ⟨d', hd', -, hbytes⟩ := dread_eq (payloadRequest_count_pos hw hacc) hwhole
  obtain rfl : d' = d := Option.some.inj (hd'.symm.trans hw.dev)
  rw [hw.blksz, World.loaded_disk] at hbytes
  have hread : payloadRead U w i addr = Store.read (w.disk d'.devnum)
    ((payloadRequest U w i addr).start * 512) ((payloadRequest U w i addr).count * 512) := hbytes
  rw [verified, Store.length_read] at hle
  have htake : verified U w i addr = (payloadRead U w i addr).take
      (ObcPackHead.ofStore (payloadMem U w i addr) addr).fileSize.toNat :=
    Store.read_write (by rw [hread, Store.length_read]; exact hle)
  rw [htake, hread]
  exact List.take_prefix _ _

theorem payloadRequest_start (hw : w.On d) :
    (payloadRequest U w i addr).start = (w.parts U i).addr.toNat / 512 + 1 := by
  rw [payloadRequest, hw.rdSize]

variable (addr) in
theorem payloadRequest_count (hw : w.On d)
    (hf : U.fault w.tick ((w.parts U i).addr.toNat / 512) 1 = none) :
    (payloadRequest U w i addr).count =
      blockCount (ObcPackHead.ofStore (w.disk d.devnum) (w.parts U i).base).fileSize.toNat 512 := by
  rw [payloadRequest, headerRead_eq hw hf, hw.rdSize]

theorem readRequests_eq (hw : w.On d) (hfind : obcBlkFindPartByName U w partname = some i) :
    readRequests U w partname addr = ⟨(w.parts U i).addr.toNat / 512, 1, addr⟩ ::
      if HeaderAccepted U w i addr then [payloadRequest U w i addr] else [] := by
  simp only [readRequests, hfind, hw.rdSize]

variable (addr) in
/-- The blocks requested, against the partition's bytes. -/
theorem blocks_within_iff (hw : w.On d) (hfind : obcBlkFindPartByName U w partname = some i) :
    (∀ r ∈ readRequests U w partname addr, ∀ x, r.start * d.blksz ≤ x →
        x < (r.start + r.count) * d.blksz → x ∈ (w.parts U i).region) ↔
      512 ∣ (w.parts U i).addr.toNat ∧ 512 ≤ (w.parts U i).size.toNat ∧
      (HeaderAccepted U w i addr →
        ((payloadRequest U w i addr).count + 1) * 512 ≤ (w.parts U i).size.toNat) := by
  have hbase := Nat.div_mul_le_self (w.parts U i).addr.toNat 512
  rw [readRequests_eq hw hfind, hw.blksz]
  constructor
  · intro h
    have hfirst := h _ List.mem_cons_self
    simp only at hfirst
    -- the header's first and last bytes, and the payload's last, are enough
    have hlow := (hfirst _ le_rfl (by omega)).1
    have hhigh := (hfirst ((w.parts U i).addr.toNat + 511) (by omega) (by omega)).2
    refine ⟨⟨(w.parts U i).addr.toNat / 512, by omega⟩, by omega, ?_⟩
    intro hyes
    rw [if_pos hyes] at h
    have hlast := h _ (List.mem_cons_of_mem _ List.mem_cons_self)
    have hpos := payloadRequest_count_pos hw hyes
    rw [payloadRequest_start hw] at hlast
    simp only [Nat.mul_comm _ 512] at hbase hlow hlast ⊢
    have hend := (hlast ((w.parts U i).addr.toNat +
      512 * ((payloadRequest U w i addr).count + 1) - 1) (by omega) (by omega)).2
    omega
  · rintro ⟨⟨k, hk⟩, hsize, hfits⟩ r hr x hx hx'
    rcases List.mem_cons.1 hr with rfl | hr
    · simp only at hx hx'
      exact ⟨by omega, by omega⟩
    · split at hr
      · rename_i hyes
        have h := hfits hyes
        obtain rfl := List.mem_singleton.1 hr
        rw [payloadRequest_start hw] at hx hx'
        exact ⟨by omega, by omega⟩
      · cases hr

/-- Memory the requests do not cover stays: the payload moved down over
the header ends before the run it came from. -/
theorem memory_within (hw : w.On d) (hfind : obcBlkFindPartByName U w partname = some i)
    {size : ℕ} (hsize : 512 ≤ size) (hfits : HeaderAccepted U w i addr →
      ((payloadRequest U w i addr).count + 1) * 512 ≤ size)
    (hx : x ∉ Set.Ico addr (addr + size)) :
    (obcBlkReadPartByName U w partname addr).2.mem x = w.mem x := by
  have hx : x < addr ∨ addr + size ≤ x := by
    by_contra hcon
    exact hx ⟨by omega, by omega⟩
  rcases obcBlkReadPartByName_inv addr hfind with ⟨-, h⟩ | ⟨hyes, m, cs, h, hm, -⟩
  · rw [h, World.loaded_mem]
    rcases hx with hx | hx
    · exact headerMem_of_lt hx
    · exact headerMem_of_ge hw (by omega)
  · have hc := hfits hyes
    have hlen := length_verified_le (U := U) addr i hw
    have hpay : payloadMem U w i addr x = w.mem x := by
      rcases hx with hx | hx
      · exact payloadMem_of_lt hx
      · exact payloadMem_of_ge hw (by omega)
    rw [h, World.loaded_mem]
    rcases hm with rfl | rfl
    · exact hpay
    · rw [Store.write_of_not_mem, hpay]
      rintro ⟨h1, h2⟩
      omega

/-- What is verified is bytes of a transfer requested. -/
theorem crc_within (hw : w.On d) (hfind : obcBlkFindPartByName U w partname = some i)
    {part : BoardAbilityBlkParts} {payload : List UInt8} {ret : ℤ}
    (hmem : Call.verify part payload ret ∈
      w.since (obcBlkReadPartByName U w partname addr).2) :
    ∃ r ∈ readRequests U w partname addr,
      payload <+: Store.read (w.disk d.devnum) (r.start * d.blksz) (r.count * d.blksz) := by
  rw [readRequests_eq hw hfind, hw.blksz]
  rcases obcBlkReadPartByName_inv addr hfind with ⟨-, h⟩ | ⟨hyes, m, cs, h, -, hcs⟩
  · rw [h, World.since_of_trace World.loaded_trace] at hmem
    cases hmem
  · rw [h, World.since_of_trace World.loaded_trace] at hmem
    rcases hcs with rfl | ⟨hwhole, ret', rfl⟩
    · cases hmem
    · obtain ⟨-, rfl, -⟩ := Call.verify.inj (List.mem_singleton.1 hmem)
      refine ⟨payloadRequest U w i addr, ?_, verified_prefix hw hyes hwhole⟩
      rw [if_pos hyes]
      exact List.mem_cons_of_mem _ List.mem_cons_self

/-- **A boot read stays within its partition** exactly when the partition
starts on a block and holds one, and a header that passes on it claims
no more than its whole blocks. -/
theorem readsWithin_iff (hw : w.On d) (hfind : obcBlkFindPartByName U w partname = some i) :
    ReadsWithin U w d partname addr (w.parts U i) ↔
      512 ∣ (w.parts U i).addr.toNat ∧ 512 ≤ (w.parts U i).size.toNat ∧
      (U.fault w.tick ((w.parts U i).addr.toNat / 512) 1 = none →
        (ObcPackHead.ofStore (w.disk d.devnum) (w.parts U i).base).Accepted (w.parts U i).size →
        (blockCount (ObcPackHead.ofStore (w.disk d.devnum) (w.parts U i).base).fileSize.toNat 512 +
          1) * 512 ≤ (w.parts U i).size.toNat) := by
  have hblocks := blocks_within_iff addr hw hfind
  constructor
  · intro h
    obtain ⟨haddr, hsize, hfits⟩ := hblocks.1 h.blocks
    refine ⟨haddr, hsize, ?_⟩
    intro hf hacc
    rw [← payloadRequest_count addr hw hf]
    exact hfits ((headerAccepted_iff hw).2 ⟨hf, hacc⟩)
  · rintro ⟨haddr, hsize, hfits⟩
    have hfits' : HeaderAccepted U w i addr →
        ((payloadRequest U w i addr).count + 1) * 512 ≤ (w.parts U i).size.toNat := by
      intro hyes
      obtain ⟨hf, hacc⟩ := (headerAccepted_iff hw).1 hyes
      rw [payloadRequest_count addr hw hf]
      exact hfits hf hacc
    refine ⟨obcBlkReadPartByName_tick, hblocks.2 ⟨haddr, hsize, hfits'⟩, ?_, ?_⟩
    · intro x hx
      exact memory_within hw hfind hsize hfits' hx
    · intro part payload ret hmem
      exact crc_within hw hfind hmem

end Requests

/-- The eMMC with a signed kernel in its partition. -/
def signedKernelWorld : World :=
  { Bench.world fun _ => 0 with media := fun _ => Store.write (fun _ => 0) 0x1000000 Bench.signed }

/-- Header and payload of it are read. -/
theorem readsWithin_kernel0 :
    readRequests Bench.uboot signedKernelWorld "kernel0".toList 0x82000000 =
      [⟨0x8000, 1, 0x82000000⟩, ⟨0x8001, 1, 0x82000200⟩] ∧
    ReadsWithin Bench.uboot signedKernelWorld Bench.emmc "kernel0".toList 0x82000000
      (signedKernelWorld.parts Bench.uboot 7) := by
  refine ⟨by decide +kernel, ?_⟩
  rw [readsWithin_iff ⟨rfl, rfl, rfl⟩ (by decide +kernel)]
  refine ⟨by decide +kernel, by decide +kernel, ?_⟩
  rintro - -
  decide +kernel

/-! ## A partition smaller than a block -/

/-- The eMMC with one partition of 256 bytes, whose header claims a
mebibyte. -/
def smallWorld : World :=
  let w := Bench.world fun _ => 0
  let header : ObcPackHead := ⟨Vector.ofFn fun i => obcMagic.getD i 0, 0x100000, 0, 0,
    Vector.replicate _ 0, Vector.replicate _ 0⟩
  { w with
    media := fun _ => Store.write (fun _ => 0) 512 header.bytes
    stAbility :=
      { w.stAbility with
        stBlk :=
          { w.stAbility.stBlk with
            stPartsMmc := Vector.replicate _ (Bench.part "kernel0" 512 256)
            iPartCountMmc := 1 } } }

theorem smallWorld_on : smallWorld.On Bench.emmc := ⟨rfl, rfl, rfl⟩

/-- What the reader asks for there. -/
theorem readRequests_smallWorld :
    readRequests Bench.uboot smallWorld "kernel0".toList 0x82000000 =
      [⟨1, 1, 0x82000000⟩, ⟨2, 2048, 0x82000200⟩] := by
  decide +kernel

/-- **The size check wraps around**: a mebibyte is read out of a partition
of 256 bytes. -/
theorem not_readsWithin_smallWorld :
    ¬ ∀ (U : UBoot) (w : World) (d : BlkDesc) (partname : List Char) (addr i : ℕ), w.On d →
      obcBlkFindPartByName U w partname = some i →
      ReadsWithin U w d partname addr (w.parts U i) := by
  intro h
  have hwithin := h Bench.uboot smallWorld Bench.emmc "kernel0".toList 0x82000000 0
    smallWorld_on (by decide +kernel)
  have hblocks := hwithin.blocks
  rw [readRequests_smallWorld] at hblocks
  have hlast := hblocks _ (List.mem_cons_of_mem _ List.mem_cons_self) 1024 (by decide) (by decide)
  have hsize : 1024 < 512 + 256 := hlast.2
  omega

end Boot

end ObcSdk
