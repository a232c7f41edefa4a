import ObcSdk.Boot.Pack
/-!
# Reading a package from a partition

`obc_blk_read_part_by_name`: the header's block is read to the load
address, the payload's blocks behind it, the package is verified there
and the payload moved down over the header. `HoldsPackage` is what the
medium must hold for that to succeed, and the reader succeeds exactly
when it does and neither read faults.
-/

namespace ObcSdk

namespace Boot

/-- The entries of the table in use. -/
def World.parts (U : UBoot) (w : World) : ℕ → BoardAbilityBlkParts :=
  w.stAbility.stBlk.part U.beyond w.bootTable

/-- Their count. -/
def World.partCount (w : World) : ℤ := w.stAbility.stBlk.partCount w.bootTable

/-- The entries of the MMC table. -/
def World.mmcParts (U : UBoot) (w : World) : ℕ → BoardAbilityBlkParts :=
  w.stAbility.stBlk.part U.beyond .mmc

theorem World.parts_eq {U : UBoot} {w : World} (h : w.bootTable = .mmc) :
    w.parts U = w.mmcParts U := by
  rw [World.parts, h]
  rfl

/-- `obc_blk_find_part_by_name`, `none` for `-1`. -/
def obcBlkFindPartByName (U : UBoot) (w : World) (pName : List Char) : Option ℕ :=
  obcBlkFindPartByNameEx (w.parts U) w.partCount pName

/-- The blocks of `rd` bytes that `n` bytes take: a last one is added
for what does not fill it. -/
def blockCount (n rd : ℕ) : ℕ := n / rd + if n % rd ≠ 0 then 1 else 0

/-- `obc_blk_read_part_by_name`. -/
def obcBlkReadPartByName (U : UBoot) (w : World) (partname : List Char) (addr : ℕ) : ℤ × World :=
  match obcBlkFindPartByName U w partname with
  | none => (-1, w)
  | some i =>
    let part := w.parts U i
    let rd := w.stAbility.stBlk.iRdSize
    let start := part.addr.toNat / rd
    let r₁ := blkDread U w start 1 addr
    if r₁.1 ≠ 1 then (-1, r₁.2) else
    let header := ObcPackHead.ofStore r₁.2.mem addr
    if ¬ header.HasMagic then (-1, r₁.2) else
    -- `size - OBC_HEADER_SIZE` is a 32-bit subtraction
    if header.fileSize = 0 ∨ part.size - 512 < header.fileSize then (-1, r₁.2) else
    let count := blockCount header.fileSize.toNat rd
    let data := addr + obcHeaderSize
    let r₂ := blkDread U r₁.2 (start + 1) count data
    if r₂.1 ≠ count then (-1, r₂.2) else
    let m := r₂.2.mem
    let payload := Store.read m data (ObcPackHead.ofStore m addr).fileSize.toNat
    let ret := obcVerifyPackHeader U m addr data
    if ret ≠ 0 then (-1, r₂.2.loaded m [.verify part payload ret] 0) else
    (0, r₂.2.loaded (Store.write m addr payload) [.verify part payload ret] 0)

/-! ## Block counts -/

section BlockCount

variable {n rd k : ℕ}

theorem le_blockCount_mul (hrd : 0 < rd) : n ≤ blockCount n rd * rd := by
  have h := Nat.div_add_mod n rd
  have hlt := Nat.mod_lt n hrd
  rw [blockCount, Nat.add_mul, Nat.mul_comm]
  split <;> omega

/-- As few blocks as any that hold the bytes. -/
theorem blockCount_le (h : n ≤ k * rd) : blockCount n rd ≤ k := by
  unfold blockCount
  split
  · have : n / rd < k := by
      refine Nat.lt_of_le_of_ne (Nat.div_le_of_le_mul (by rwa [Nat.mul_comm])) ?_
      intro he
      have h1 := Nat.div_add_mod n rd
      rw [he, Nat.mul_comm] at h1
      omega
    omega
  · exact Nat.div_le_of_le_mul (by rwa [Nat.mul_comm])

theorem blockCount_pos (hrd : 0 < rd) (hn : 0 < n) : 0 < blockCount n rd := by
  have := le_blockCount_mul (n := n) hrd
  rcases Nat.eq_zero_or_pos (blockCount n rd) with h | h
  · rw [h] at this; omega
  · exact h

end BlockCount

/-! ## What the reader accepts -/

/-- From byte `base` on, a medium holds a package of payload `payload`
that the reader accepts in a partition of size `size`. -/
structure HoldsPackage (U : UBoot) (m : Store UInt8) (base : ℕ) (size : UInt32)
    (payload : List UInt8) : Prop where
  magic : (ObcPackHead.ofStore m base).HasMagic
  length : payload.length = (ObcPackHead.ofStore m base).fileSize.toNat
  nonempty : payload ≠ []
  fits : ¬ size - 512 < (ObcPackHead.ofStore m base).fileSize
  crc : obcCalculateCrc16 U payload = (ObcPackHead.ofStore m base).crc16
  stored : Store.read m (base + obcHeaderSize) payload.length = payload

section Reader

variable {U : UBoot} {w : World} {d : BlkDesc} {partname : List Char} {addr i : ℕ}

/-- **What a run of the reader comes to.** It fails before the package
is verified, it fails at the verification, or it goes through; each time
it has moved bytes to the load address and above, and left the rest. -/
theorem obcBlkReadPartByName_cases {r : ℤ × World}
    (h : obcBlkReadPartByName U w partname addr = r) :
    (∃ m n, r = (-1, w.loaded m [] n) ∧ ∀ x, x < addr → m x = w.mem x) ∨
    (∃ m part payload ret, ret ≠ 0 ∧ r = (-1, w.loaded m [.verify part payload ret] 2) ∧
      ∀ x, x < addr → m x = w.mem x) ∨
    ∃ i m₁ m₂ count, obcBlkFindPartByName U w partname = some i ∧
      (dread U w ((w.parts U i).addr.toNat / w.stAbility.stBlk.iRdSize) 1).1 = 1 ∧
      m₁ = Store.write w.mem addr
        (dread U w ((w.parts U i).addr.toNat / w.stAbility.stBlk.iRdSize) 1).2 ∧
      (ObcPackHead.ofStore m₁ addr).HasMagic ∧
      (ObcPackHead.ofStore m₁ addr).fileSize ≠ 0 ∧
      ¬ (w.parts U i).size - 512 < (ObcPackHead.ofStore m₁ addr).fileSize ∧
      count = blockCount (ObcPackHead.ofStore m₁ addr).fileSize.toNat
        w.stAbility.stBlk.iRdSize ∧
      (dread U (w.loaded m₁ [] 1)
        ((w.parts U i).addr.toNat / w.stAbility.stBlk.iRdSize + 1) count).1 = count ∧
      m₂ = Store.write m₁ (addr + obcHeaderSize) (dread U (w.loaded m₁ [] 1)
        ((w.parts U i).addr.toNat / w.stAbility.stBlk.iRdSize + 1) count).2 ∧
      obcVerifyPackHeader U m₂ addr (addr + obcHeaderSize) = 0 ∧
      r = (0, w.loaded (Store.write m₂ addr (Store.read m₂ (addr + obcHeaderSize)
            (ObcPackHead.ofStore m₂ addr).fileSize.toNat))
          [.verify (w.parts U i) (Store.read m₂ (addr + obcHeaderSize)
            (ObcPackHead.ofStore m₂ addr).fileSize.toNat) 0] 2) := by
  have below : ∀ (m : Store UInt8) (a : ℕ) (bs : List UInt8), addr ≤ a →
      (∀ x, x < addr → m x = w.mem x) → ∀ x, x < addr → Store.write m a bs x = w.mem x :=
    fun m a bs ha hm x hx => by rw [Store.write_of_lt (by omega), hm x hx]
  have self : ∀ x, x < addr → w.mem x = w.mem x := fun _ _ => rfl
  -- the returns of the source, from the first on
  unfold obcBlkReadPartByName at h
  split at h
  · exact Or.inl ⟨w.mem, 0, by rw [← h]; simp [World.loaded], self⟩
  rename_i i hi
  simp only [blkDread, World.loaded_mem, World.loaded_loaded, List.append_nil, List.nil_append,
    Nat.reduceAdd, Nat.add_zero] at h
  split at h
  · exact Or.inl ⟨_, 1, h.symm, below _ _ _ le_rfl self⟩
  rename_i h1
  split at h
  · exact Or.inl ⟨_, 1, h.symm, below _ _ _ le_rfl self⟩
  rename_i hmagic
  split at h
  · exact Or.inl ⟨_, 1, h.symm, below _ _ _ le_rfl self⟩
  rename_i hsize
  split at h
  · exact Or.inl ⟨_, 2, h.symm, below _ _ _ (by omega) (below _ _ _ le_rfl self)⟩
  rename_i h2
  split at h
  · rename_i hret
    exact Or.inr <| Or.inl ⟨_, _, _, _, hret, h.symm,
      below _ _ _ (by omega) (below _ _ _ le_rfl self)⟩
  rename_i hret
  rw [not_not] at h1 hmagic h2 hret
  rw [not_or] at hsize
  rw [hret] at h
  exact Or.inr <| Or.inr ⟨i, _, _, _, hi, h1, rfl, hmagic, hsize.1, hsize.2, rfl, h2, rfl, hret,
    h.symm⟩

variable (partname addr) in
/-- The calls a read makes: none, or the verification of the package of
the partition found, which its result tells. -/
theorem obcBlkReadPartByName_loaded :
    ∃ m cs n, (obcBlkReadPartByName U w partname addr).2 = w.loaded m cs n ∧
      (∀ x, x < addr → m x = w.mem x) ∧
      ((obcBlkReadPartByName U w partname addr).1 = -1 ∧
          (cs = [] ∨ ∃ part payload ret, ret ≠ 0 ∧ cs = [.verify part payload ret]) ∨
        (obcBlkReadPartByName U w partname addr).1 = 0 ∧
          ∃ i payload, obcBlkFindPartByName U w partname = some i ∧
            cs = [.verify (w.parts U i) payload 0]) := by
  generalize hr : obcBlkReadPartByName U w partname addr = r
  rcases obcBlkReadPartByName_cases hr with
    ⟨m, n, rfl, hm⟩ | ⟨m, part, payload, ret, hret, rfl, hm⟩ |
    ⟨i, m₁, m₂, count, hfind, -, hm₁, -, -, -, -, -, hm₂, -, rfl⟩
  · exact ⟨m, [], n, rfl, hm, Or.inl ⟨rfl, Or.inl rfl⟩⟩
  · exact ⟨m, _, 2, rfl, hm, Or.inl ⟨rfl, Or.inr ⟨part, payload, ret, hret, rfl⟩⟩⟩
  · refine ⟨_, _, 2, rfl, ?_, Or.inr ⟨rfl, i, _, hfind, rfl⟩⟩
    intro x hx
    rw [Store.write_of_lt hx, hm₂, Store.write_of_lt (by omega), hm₁, Store.write_of_lt hx]

/-! ## The reader on 512-byte blocks -/

/-- The device in use is `d`, and it and the table count in blocks of
512 bytes. -/
structure World.On (w : World) (d : BlkDesc) : Prop where
  dev : w.gstBlkDev = some d
  blksz : d.blksz = 512
  rdSize : w.stAbility.stBlk.iRdSize = 512

/-- Where a partition's package starts on the medium: at the block its
address falls in. -/
def BoardAbilityBlkParts.base (p : BoardAbilityBlkParts) : ℕ := p.addr.toNat / 512 * 512

theorem BoardAbilityBlkParts.mul_eq_base {p : BoardAbilityBlkParts} :
    p.addr.toNat / 512 * 512 = p.base := rfl

theorem BoardAbilityBlkParts.base_eq {p : BoardAbilityBlkParts} (h : 512 ∣ p.addr.toNat) :
    p.base = p.addr.toNat := Nat.div_mul_cancel h

theorem BoardAbilityBlkParts.base_add_mem_region {p : BoardAbilityBlkParts} {k : ℕ}
    (h : 512 ∣ p.addr.toNat) (hk : k < p.size.toNat) : p.base + k ∈ p.region := by
  rw [p.base_eq h]
  exact ⟨Nat.le_add_right _ _, Nat.add_lt_add_left hk _⟩

variable {disk m : Store UInt8} {base n c : ℕ} {part : BoardAbilityBlkParts}
  {payload : List UInt8}

/-- The header's block, at the load address, is the medium's. -/
theorem ofStore_header :
    ObcPackHead.ofStore (Store.write m addr (Store.read disk base 512)) addr =
      ObcPackHead.ofStore disk base :=
  ObcPackHead.ofStore_congr fun i hi => by
    rw [Store.write_add (by simp; omega), Store.getElem_read]

/-- The payload's blocks leave the header's alone. -/
theorem ofStore_payload :
    ObcPackHead.ofStore (Store.write (Store.write m addr (Store.read disk base 512))
      (addr + obcHeaderSize) (Store.read disk (base + 512) c)) addr =
      ObcPackHead.ofStore disk base := by
  have hstays : ∀ i < 142, Store.write (Store.write m addr (Store.read disk base 512))
      (addr + obcHeaderSize) (Store.read disk (base + 512) c) (addr + i) =
      Store.write m addr (Store.read disk base 512) (addr + i) := fun i hi =>
    Store.write_of_lt (Nat.add_lt_add_left (hi.trans (by decide)) addr)
  rw [ObcPackHead.ofStore_congr hstays, ofStore_header]

theorem read_payload (h : n ≤ c) :
    Store.read (Store.write (Store.write m addr (Store.read disk base 512))
      (addr + obcHeaderSize) (Store.read disk (base + 512) c)) (addr + obcHeaderSize) n =
      Store.read disk (base + obcHeaderSize) n := by
  rw [Store.read_write (by simpa using h), Store.take_read h]

/-- The memory behind a read: the header's block and the payload's at
the load address, and the payload moved down over the header. -/
def staged (m disk : Store UInt8) (addr base : ℕ) (payload : List UInt8) : Store UInt8 :=
  Store.write (Store.write (Store.write m addr (Store.read disk base 512)) (addr + obcHeaderSize)
    (Store.read disk (base + 512) (blockCount payload.length 512 * 512))) addr payload

theorem read_staged : Store.read (staged m disk addr base payload) addr payload.length = payload :=
  Store.read_write_self

theorem staged_of_lt {x : ℕ} (h : x < addr) : staged m disk addr base payload x = m x := by
  rw [staged, Store.write_of_lt h, Store.write_of_lt (h.trans_le (Nat.le_add_right _ _)),
    Store.write_of_lt h]

/-- **A run that succeeds read a package**: one the medium holds in the
partition found, through two reads that had no fault; and the payload is
at the load address. -/
theorem obcBlkReadPartByName_success (hw : w.On d)
    (h : (obcBlkReadPartByName U w partname addr).1 = 0) :
    ∃ i payload, obcBlkFindPartByName U w partname = some i ∧
      HoldsPackage U (w.disk d.devnum) (w.parts U i).base (w.parts U i).size payload ∧
      U.fault w.tick ((w.parts U i).addr.toNat / 512) 1 = none ∧
      U.fault (w.tick + 1) ((w.parts U i).addr.toNat / 512 + 1)
        (blockCount payload.length 512) = none ∧
      obcBlkReadPartByName U w partname addr =
        (0, w.loaded (staged w.mem (w.disk d.devnum) addr (w.parts U i).base payload)
          [.verify (w.parts U i) payload 0] 2) := by
  generalize hr : obcBlkReadPartByName U w partname addr = r at h ⊢
  rcases obcBlkReadPartByName_cases hr with ⟨m, n, rfl, -⟩ | ⟨m, part, payload, ret, -, rfl, -⟩ |
    ⟨i, m₁, m₂, count, hfind, h₁, hm₁, hmagic, hne, hfits, hcount, h₂, hm₂, hver, rfl⟩
  · exact absurd h (by simp)
  · exact absurd h (by simp)
  rw [hw.rdSize] at h₁ hm₁ hcount h₂ hm₂
  set part := w.parts U i with hpart
  -- the header's block, as the medium holds it
  obtain ⟨d', hd', hf₁, hb₁⟩ := dread_eq Nat.one_pos h₁
  obtain rfl : d' = d := by rw [hw.dev] at hd'; exact (Option.some.inj hd').symm
  rw [hb₁, hw.blksz, Nat.one_mul, BoardAbilityBlkParts.mul_eq_base] at hm₁
  have hhead : ObcPackHead.ofStore m₁ addr = ObcPackHead.ofStore (w.disk d'.devnum) part.base := by
    rw [hm₁]; exact ofStore_header
  rw [hhead] at hmagic hne hfits hcount
  set head := ObcPackHead.ofStore (w.disk d'.devnum) part.base with hhd
  have hpos : 0 < head.fileSize.toNat := by
    rcases Nat.eq_zero_or_pos head.fileSize.toNat with h0 | h0
    · exact absurd (UInt32.toNat_inj.1 (by simpa using h0)) hne
    · exact h0
  have hle : head.fileSize.toNat ≤ count * 512 := by
    rw [hcount]; exact le_blockCount_mul (by decide)
  -- and the payload's
  obtain ⟨d'', hd'', hf₂, hb₂⟩ :=
    dread_eq (by rw [hcount]; exact blockCount_pos (by decide) hpos) h₂
  obtain rfl : d'' = d' := by
    rw [World.loaded_gstBlkDev, hw.dev] at hd''; exact (Option.some.inj hd'').symm
  rw [hb₂, hw.blksz, World.loaded_disk, Nat.add_mul, Nat.one_mul,
    BoardAbilityBlkParts.mul_eq_base, hm₁] at hm₂
  have hhead₂ : ObcPackHead.ofStore m₂ addr = head := by rw [hm₂]; exact ofStore_payload
  have hpay : Store.read m₂ (addr + obcHeaderSize) head.fileSize.toNat =
      Store.read (w.disk d''.devnum) (part.base + obcHeaderSize) head.fileSize.toNat := by
    rw [hm₂]; exact read_payload hle
  rw [obcVerifyPackHeader_eq_zero, hhead₂, hpay] at hver
  rw [hhead₂, hpay]
  obtain ⟨payload, hpl⟩ : ∃ p, p = Store.read (w.disk d''.devnum) (part.base + obcHeaderSize)
      head.fileSize.toNat := ⟨_, rfl⟩
  have hlen : payload.length = head.fileSize.toNat := by rw [hpl, Store.length_read]
  rw [← hpl] at hver ⊢
  refine ⟨i, payload, hfind, ⟨hmagic, hlen, ?_, hfits, hver.2, by rw [hlen, ← hpl]⟩, hf₁, ?_, ?_⟩
  · rintro rfl
    rw [List.length_nil] at hlen
    omega
  · rw [hlen, ← hcount]
    exact hf₂
  · rw [staged, hlen, ← hcount, ← hm₂]

/-- **And a package is read**, where neither read faults. -/
theorem obcBlkReadPartByName_of_holds (hw : w.On d)
    (hfind : obcBlkFindPartByName U w partname = some i)
    (hp : HoldsPackage U (w.disk d.devnum) (w.parts U i).base (w.parts U i).size payload)
    (hf₁ : U.fault w.tick ((w.parts U i).addr.toNat / 512) 1 = none)
    (hf₂ : U.fault (w.tick + 1) ((w.parts U i).addr.toNat / 512 + 1)
      (blockCount payload.length 512) = none) :
    (obcBlkReadPartByName U w partname addr).1 = 0 := by
  have hlen := hp.length
  obtain ⟨hmagic, -, hnonempty, hfits, hcrc, hstored⟩ := hp
  obtain ⟨head, hhd⟩ : ∃ h, ObcPackHead.ofStore (w.disk d.devnum) (w.parts U i).base = h :=
    ⟨_, rfl⟩
  rw [hhd] at hlen hmagic hfits hcrc
  have hne : head.fileSize ≠ 0 := by
    intro h0
    rw [h0] at hlen
    exact hnonempty (List.length_eq_zero_iff.1 hlen)
  have hle : head.fileSize.toNat ≤ blockCount head.fileSize.toNat 512 * 512 :=
    le_blockCount_mul (by decide)
  have hd₁ := dread_of_ok hw.dev hf₁
  rw [hlen] at hf₂ hstored
  have hd₂ : ∀ m, dread U (w.loaded m [] 1) ((w.parts U i).addr.toNat / 512 + 1)
      (blockCount head.fileSize.toNat 512) = _ :=
    fun m => dread_of_ok (w := w.loaded m [] 1) hw.dev hf₂
  -- the CRC is over what the second read put behind the header
  have hver : obcVerifyPackHeader U (Store.write (Store.write w.mem addr
      (Store.read (w.disk d.devnum) (w.parts U i).base 512)) (addr + obcHeaderSize)
      (Store.read (w.disk d.devnum) ((w.parts U i).base + 512)
        (blockCount head.fileSize.toNat 512 * 512))) addr (addr + obcHeaderSize) = 0 := by
    rw [obcVerifyPackHeader_eq_zero, ofStore_payload, hhd, read_payload hle, hstored]
    exact ⟨hmagic, hcrc⟩
  simp only [obcBlkReadPartByName, hfind, blkDread, hw.rdSize, hd₁, hw.blksz, World.loaded_mem,
    Nat.one_mul, BoardAbilityBlkParts.mul_eq_base, ofStore_header, hhd, hd₂, World.loaded_disk,
    Nat.add_mul]
  rw [if_neg (by simp), if_neg (not_not.2 hmagic), if_neg (not_or.2 ⟨hne, hfits⟩),
    if_neg (by simp), if_neg (not_not.2 hver)]

/-- A medium holds one package at a place. -/
theorem HoldsPackage.eq {size size' : UInt32} {payload' : List UInt8}
    (h : HoldsPackage U disk base size payload) (h' : HoldsPackage U disk base size' payload') :
    payload = payload' := by
  rw [← h.stored, ← h'.stored, h.length, h'.length]

variable (addr) in
/-- And what is read is the package's payload. -/
theorem obcBlkReadPartByName_content (hw : w.On d)
    (hfind : obcBlkFindPartByName U w partname = some i)
    (hp : HoldsPackage U (w.disk d.devnum) (w.parts U i).base (w.parts U i).size payload)
    (hf₁ : U.fault w.tick ((w.parts U i).addr.toNat / 512) 1 = none)
    (hf₂ : U.fault (w.tick + 1) ((w.parts U i).addr.toNat / 512 + 1)
      (blockCount payload.length 512) = none) :
    (obcBlkReadPartByName U w partname addr).1 = 0 ∧
      Store.read (obcBlkReadPartByName U w partname addr).2.mem addr payload.length = payload := by
  have h : (obcBlkReadPartByName U w partname addr).1 = 0 :=
    obcBlkReadPartByName_of_holds hw hfind hp hf₁ hf₂
  obtain ⟨i', payload', hfind', hp', -, -, hr⟩ := obcBlkReadPartByName_success hw h
  obtain rfl : i = i' := Option.some.inj (hfind.symm.trans hfind')
  obtain rfl := hp.eq hp'
  exact ⟨h, by rw [hr]; exact read_staged⟩

end Reader

end Boot

end ObcSdk
