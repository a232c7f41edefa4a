import ObcSdk.Lib.Checked
import ObcSdk.Lib.Journal
/-!
# Sparse images

The sparse format a root file system may come in, and the validator that
stands before its writer (`obc_validate_sparse`). `SparseImage` says what
a well-formed image is: a header, and chunks that tile what follows it.
The validator accepts these and no others, reads nothing outside the
download, and none of its words wraps. `sparseJournal` is what such an
image is to do to a medium.
-/

namespace ObcSdk

namespace Boot

/-! ## The format -/

/-- `SPARSE_HEADER_MAGIC`. -/
abbrev sparseHeaderMagic : ℕ := 0xed26ff3a
/-- `sizeof (sparse_header_t)`. -/
abbrev sparseHeaderSize : ℕ := 28
/-- `sizeof (chunk_header_t)`. -/
abbrev chunkHeaderSize : ℕ := 12
/-- `CHUNK_TYPE_RAW`. -/
abbrev chunkTypeRaw : ℕ := 0xcac1
/-- `CHUNK_TYPE_FILL`. -/
abbrev chunkTypeFill : ℕ := 0xcac2
/-- `CHUNK_TYPE_DONT_CARE`. -/
abbrev chunkTypeDontCare : ℕ := 0xcac3
/-- `CHUNK_TYPE_CRC32`. -/
abbrev chunkTypeCrc32 : ℕ := 0xcac4

/-- A chunk and the blocks it stands for. -/
inductive SparseChunk where
  | raw (n : ℕ)
  | fill (n : ℕ)
  | dontCare (n : ℕ)
  | crc32
deriving DecidableEq

namespace SparseChunk

/-- `chunk_type`. -/
def type : SparseChunk → ℕ
  | raw _ => chunkTypeRaw
  | fill _ => chunkTypeFill
  | dontCare _ => chunkTypeDontCare
  | crc32 => chunkTypeCrc32

/-- `chunk_sz`. -/
def blocks : SparseChunk → ℕ
  | raw n | fill n | dontCare n => n
  | crc32 => 0

/-- `total_sz`: the header, and what of the chunk's data the image
carries. -/
def size (blkSz : ℕ) : SparseChunk → ℕ
  | raw n => 12 + n * blkSz
  | fill _ => 16
  | dontCare _ => 12
  | crc32 => 16

/-- The chunk's header is at `off`. -/
structure At (data : Store UInt8) (blkSz off : ℕ) (c : SparseChunk) : Prop where
  type : leNat (Store.read data off 2) = c.type
  blocks : leNat (Store.read data (off + 4) 4) = c.blocks
  size : leNat (Store.read data (off + 8) 4) = c.size blkSz

end SparseChunk

/-- The chunks follow one another from `off` to `stop`, with no gap. -/
inductive Tiles (data : Store UInt8) (blkSz : ℕ) : ℕ → ℕ → List SparseChunk → Prop
  | nil (off : ℕ) : Tiles data blkSz off off []
  | cons {off stop : ℕ} {c : SparseChunk} {cs : List SparseChunk} :
      c.At data blkSz off → Tiles data blkSz (off + c.size blkSz) stop cs →
      Tiles data blkSz off stop (c :: cs)

/-- `sparse_header_t`, as far as the code reads it, at the start of a
buffer. -/
structure SparseHeader where
  magic : ℕ
  majorVersion : ℕ
  fileHdrSz : ℕ
  chunkHdrSz : ℕ
  blkSz : ℕ
  totalBlks : ℕ
  totalChunks : ℕ

/-- The header a buffer starts with. -/
def SparseHeader.ofStore (data : Store UInt8) : SparseHeader where
  magic := leNat (Store.read data 0 4)
  majorVersion := leNat (Store.read data 4 2)
  fileHdrSz := leNat (Store.read data 8 2)
  chunkHdrSz := leNat (Store.read data 10 2)
  blkSz := leNat (Store.read data 12 4)
  totalBlks := leNat (Store.read data 16 4)
  totalChunks := leNat (Store.read data 20 4)

/-- **The grammar.** The first `dataSize` bytes of `data` are a sparse
image with chunks `cs`, for a medium of blocks of `storageBlksz` bytes,
that expands to at most `partitionSize` bytes. -/
structure SparseImage (data : Store UInt8) (dataSize storageBlksz partitionSize : ℕ)
    (cs : List SparseChunk) : Prop where
  long : sparseHeaderSize ≤ dataSize
  magic : (SparseHeader.ofStore data).magic = sparseHeaderMagic
  majorVersion : (SparseHeader.ofStore data).majorVersion = 1
  fileHdrSz : (SparseHeader.ofStore data).fileHdrSz = sparseHeaderSize
  chunkHdrSz : (SparseHeader.ofStore data).chunkHdrSz = chunkHeaderSize
  blkSz : (SparseHeader.ofStore data).blkSz ≠ 0
  four : 4 ∣ (SparseHeader.ofStore data).blkSz
  storage : storageBlksz ∣ (SparseHeader.ofStore data).blkSz
  totalBlks : (SparseHeader.ofStore data).totalBlks ≠ 0
  expanded : (SparseHeader.ofStore data).totalBlks * (SparseHeader.ofStore data).blkSz ≤
    partitionSize
  count : cs.length = (SparseHeader.ofStore data).totalChunks
  tiles : Tiles data (SparseHeader.ofStore data).blkSz sparseHeaderSize dataSize cs
  sum : (cs.map SparseChunk.blocks).sum = (SparseHeader.ofStore data).totalBlks

/-! ## The validator -/

/-- The size a chunk of a type has to have, `none` for a type or a count
that is rejected. -/
def sparseExpectedSize (type chunkBlocks blockSize hdr : ℕ) : Checked (Option ℕ) :=
  if type = chunkTypeRaw then do
    let body ← Checked.fits 64 (chunkBlocks * blockSize)
    some <$> Checked.fits 64 (hdr + body)
  else if type = chunkTypeFill then .ok (some (hdr + 4))
  else if type = chunkTypeDontCare then .ok (some hdr)
  else if type = chunkTypeCrc32 then .ok (if chunkBlocks ≠ 0 then none else some (hdr + 4))
  else .ok none

/-- One turn of the loop of `obc_validate_sparse`: the offset and the
block total after a chunk, `none` where it returns `-1`. -/
def obcValidateChunk (data : Store UInt8) (dataSize blockSize expectedBlocks hdr : ℕ)
    (offset totalBlocks : ℕ) : Checked (Option (ℕ × ℕ)) :=
  if dataSize < offset then .ok none else do
  let left ← Checked.sub dataSize offset
  if left < hdr then .ok none else do
  let chunkBlocks ← Checked.field data dataSize (offset + 4) 4
  let chunkSize ← Checked.field data dataSize (offset + 8) 4
  if chunkSize < hdr ∨ left < chunkSize then .ok none else do
  let type ← Checked.field data dataSize offset 2
  match ← sparseExpectedSize type chunkBlocks blockSize hdr with
  | none => .ok none
  | some expectedSize => do
    let total ← Checked.fits 64 (totalBlocks + chunkBlocks)
    if expectedSize ≠ chunkSize ∨ total < totalBlocks ∨ expectedBlocks < total then .ok none
    else do
      let offset ← Checked.fits 32 (offset + chunkSize)
      .ok (some (offset, total))

/-- The loop, with the turns left to take. -/
def obcValidateChunks (data : Store UInt8) (dataSize blockSize expectedBlocks hdr : ℕ) :
    ℕ → ℕ → ℕ → Checked (Option (ℕ × ℕ))
  | 0, offset, totalBlocks => .ok (some (offset, totalBlocks))
  | n + 1, offset, totalBlocks => do
    match ← obcValidateChunk data dataSize blockSize expectedBlocks hdr offset totalBlocks with
    | none => .ok none
    | some (offset, totalBlocks) =>
      obcValidateChunks data dataSize blockSize expectedBlocks hdr n offset totalBlocks

/-- `obc_validate_sparse`. -/
def obcValidateSparse (data : Store UInt8) (dataSize storageBlksz : UInt32)
    (partitionSize : UInt64) : Checked ℤ :=
  let size := dataSize.toNat
  if size < sparseHeaderSize then .ok (-1) else do
  let fileHeaderSize ← Checked.field data size 8 2
  let hdr ← Checked.field data size 10 2
  let blockSize ← Checked.field data size 12 4
  let expectedBlocks ← Checked.field data size 16 4
  let totalChunks ← Checked.field data size 20 4
  let magic ← Checked.field data size 0 4
  let major ← Checked.field data size 4 2
  if magic ≠ sparseHeaderMagic ∨ major ≠ 1 ∨ fileHeaderSize ≠ sparseHeaderSize ∨
      size < fileHeaderSize ∨ hdr ≠ chunkHeaderSize ∨ blockSize = 0 ∨ blockSize % 4 ≠ 0 ∨
      blockSize % storageBlksz.toNat ≠ 0 ∨ expectedBlocks = 0 then .ok (-1)
  else do
  let expandedSize ← Checked.fits 64 (blockSize * expectedBlocks)
  if expandedSize / blockSize ≠ expectedBlocks ∨ partitionSize.toNat < expandedSize then .ok (-1)
  else do
  match ← obcValidateChunks data size blockSize expectedBlocks hdr totalChunks fileHeaderSize 0 with
  | none => .ok (-1)
  | some (offset, totalBlocks) =>
    .ok (if totalBlocks ≠ expectedBlocks ∨ offset ≠ size then -1 else 0)

/-! ## One chunk -/

section Chunk

variable {data : Store UInt8} {type chunkBlocks blockSize dataSize expectedBlocks : ℕ}
  {offset totalBlocks n off stop : ℕ} {c c' : SparseChunk} {cs : List SparseChunk}

theorem leNat_read_lt {k : ℕ} : leNat (Store.read data off k) < 256 ^ k := by
  simpa using leNat_lt (Store.read data off k)

/-- A header names one chunk. -/
theorem SparseChunk.eq_of_type_blocks (ht : c.type = c'.type) (hb : c.blocks = c'.blocks) :
    c = c' := by
  cases c <;> cases c' <;> simp_all [SparseChunk.type, SparseChunk.blocks]

variable (type) in
/-- **The size expected** is that of the chunk with the header's type and
count, where there is one. -/
theorem sparseExpectedSize_spec (hcb : chunkBlocks < 2 ^ 32) (hbs : blockSize < 2 ^ 32) :
    ∃ e, sparseExpectedSize type chunkBlocks blockSize chunkHeaderSize = .ok e ∧
      ∀ sz, e = some sz ↔
        ∃ c : SparseChunk, c.type = type ∧ c.blocks = chunkBlocks ∧ c.size blockSize = sz := by
  -- a product of two words and a header fit in 64 bits
  have hmul : chunkBlocks * blockSize ≤ (2 ^ 32 - 1) * (2 ^ 32 - 1) :=
    Nat.mul_le_mul (by omega) (by omega)
  have unique : ∀ (c : SparseChunk) (sz : ℕ), c.type = type → c.blocks = chunkBlocks →
      (some (c.size blockSize) = some sz ↔ ∃ c : SparseChunk, c.type = type ∧
        c.blocks = chunkBlocks ∧ c.size blockSize = sz) := by
    intro c sz ht hb
    constructor
    · intro h
      exact ⟨c, ht, hb, Option.some.inj h⟩
    · rintro ⟨c', ht', hb', rfl⟩
      rw [SparseChunk.eq_of_type_blocks (ht.trans ht'.symm) (hb.trans hb'.symm)]
  unfold sparseExpectedSize
  by_cases hraw : type = chunkTypeRaw
  · rw [if_pos hraw, Checked.fits_of_lt (by omega), Checked.ok_bind,
      Checked.fits_of_lt (by simp only [chunkHeaderSize]; omega)]
    exact ⟨_, rfl, fun sz => unique (.raw chunkBlocks) sz hraw.symm rfl⟩
  rw [if_neg hraw]
  by_cases hfill : type = chunkTypeFill
  · rw [if_pos hfill]
    exact ⟨_, rfl, fun sz => unique (.fill chunkBlocks) sz hfill.symm rfl⟩
  rw [if_neg hfill]
  by_cases hdont : type = chunkTypeDontCare
  · rw [if_pos hdont]
    exact ⟨_, rfl, fun sz => unique (.dontCare chunkBlocks) sz hdont.symm rfl⟩
  rw [if_neg hdont]
  by_cases hcrc : type = chunkTypeCrc32
  · rw [if_pos hcrc]
    refine ⟨_, rfl, ?_⟩
    intro sz
    -- a checksum stands for no block
    by_cases hz : chunkBlocks = 0
    · rw [if_neg (not_not.2 hz)]
      exact unique .crc32 sz hcrc.symm hz.symm
    · rw [if_pos hz]
      refine ⟨fun h => absurd h (by simp), ?_⟩
      rintro ⟨c, ht, hb, -⟩
      cases c <;> simp_all [SparseChunk.type, SparseChunk.blocks]
  · rw [if_neg hcrc]
    refine ⟨_, rfl, fun sz => ⟨fun h => absurd h (by simp), ?_⟩⟩
    rintro ⟨c, rfl, -, -⟩
    cases c <;> simp_all [SparseChunk.type]

variable (blockSize) in
theorem SparseChunk.le_size (c : SparseChunk) : 12 ≤ c.size blockSize := by
  cases c <;> simp [SparseChunk.size]

variable (data) in
/-- **A turn of the loop** goes through exactly where a chunk starts that
fits what is left of the download and of the blocks promised; it never
stops. -/
theorem obcValidateChunk_spec (hds : dataSize < 2 ^ 32) (hbs : blockSize < 2 ^ 32)
    (heb : expectedBlocks < 2 ^ 32) (htb : totalBlocks ≤ expectedBlocks)
    (hoff : offset ≤ dataSize) :
    ∃ r, obcValidateChunk data dataSize blockSize expectedBlocks chunkHeaderSize offset
        totalBlocks = .ok r ∧
      ∀ o t, r = some (o, t) ↔ ∃ c : SparseChunk, c.At data blockSize offset ∧
        o = offset + c.size blockSize ∧ t = totalBlocks + c.blocks ∧
        o ≤ dataSize ∧ t ≤ expectedBlocks := by
  have hcb : leNat (Store.read data (offset + 4) 4) < 2 ^ 32 := leNat_read_lt
  have reject : ∀ o t, (∀ c : SparseChunk, c.At data blockSize offset →
        o = offset + c.size blockSize → t = totalBlocks + c.blocks → o ≤ dataSize →
        t ≤ expectedBlocks → False) →
      ((none : Option (ℕ × ℕ)) = some (o, t) ↔ ∃ c : SparseChunk, c.At data blockSize offset ∧
        o = offset + c.size blockSize ∧ t = totalBlocks + c.blocks ∧
        o ≤ dataSize ∧ t ≤ expectedBlocks) := by
    intro o t h
    refine ⟨fun hn => absurd hn (by simp), ?_⟩
    rintro ⟨c, h1, h2, h3, h4, h5⟩
    exact (h c h1 h2 h3 h4 h5).elim
  unfold obcValidateChunk
  rw [if_neg (Nat.not_lt.2 hoff), Checked.sub_of_le hoff, Checked.ok_bind]
  -- less is left than a chunk's header
  by_cases hleft : dataSize - offset < chunkHeaderSize
  · rw [if_pos hleft]
    refine ⟨_, rfl, fun o t => reject o t ?_⟩
    intro c _ ho _ hle _
    have := c.le_size blockSize
    simp only [chunkHeaderSize] at hleft
    omega
  simp only [chunkHeaderSize] at hleft
  rw [if_neg hleft, Checked.field_of_le (by omega), Checked.ok_bind,
    Checked.field_of_le (by omega), Checked.ok_bind]
  by_cases hsize : leNat (Store.read data (offset + 8) 4) < chunkHeaderSize ∨
      dataSize - offset < leNat (Store.read data (offset + 8) 4)
  · rw [if_pos hsize]
    refine ⟨_, rfl, fun o t => reject o t ?_⟩
    intro c hc ho _ hle _
    have := c.le_size blockSize
    rw [hc.size] at hsize
    simp only [chunkHeaderSize] at hsize
    omega
  rw [if_neg hsize, Checked.field_of_le (by omega), Checked.ok_bind]
  rw [not_or, Nat.not_lt, Nat.not_lt] at hsize
  obtain ⟨e, he, hspec⟩ :=
    sparseExpectedSize_spec (leNat (Store.read data offset 2)) hcb hbs
  rw [he, Checked.ok_bind]
  cases e with
  | none =>
    refine ⟨_, rfl, fun o t => reject o t ?_⟩
    intro c hc _ _ _ _
    exact absurd ((hspec _).2 ⟨c, hc.type.symm, hc.blocks.symm, rfl⟩) (by simp)
  | some sz =>
    obtain ⟨c, hct, hcbl, hcs⟩ := (hspec sz).1 rfl
    have only : ∀ c' : SparseChunk, c'.At data blockSize offset → c' = c := fun c' hc' =>
      SparseChunk.eq_of_type_blocks (hc'.type.symm.trans hct.symm) (hc'.blocks.symm.trans hcbl.symm)
    simp only []
    rw [Checked.fits_of_lt (by omega), Checked.ok_bind]
    -- the sum of the blocks is checked for wrapping too, which it cannot
    by_cases hbad : sz ≠ leNat (Store.read data (offset + 8) 4) ∨
        totalBlocks + leNat (Store.read data (offset + 4) 4) < totalBlocks ∨
        expectedBlocks < totalBlocks + leNat (Store.read data (offset + 4) 4)
    · rw [if_pos hbad]
      refine ⟨_, rfl, fun o t => reject o t ?_⟩
      intro c' hc' ho ht hle hte
      obtain rfl := only c' hc'
      rw [hc'.size, hc'.blocks] at hbad
      omega
    rw [if_neg hbad, Checked.fits_of_lt (by omega), Checked.ok_bind]
    rw [not_or, not_or, not_not] at hbad
    have hAt : c.At data blockSize offset := ⟨hct.symm, hcbl.symm, by rw [hcs]; exact hbad.1.symm⟩
    refine ⟨_, rfl, ?_⟩
    intro o t
    rw [Option.some.injEq, Prod.mk.injEq]
    constructor
    · rintro ⟨rfl, rfl⟩
      exact ⟨c, hAt, by rw [hcs, hbad.1], by rw [hcbl], by omega, by omega⟩
    · rintro ⟨c', hc', rfl, rfl, -, -⟩
      rw [only c' hc', hcs, hcbl, hbad.1]
      exact ⟨rfl, rfl⟩

/-! ## The loop -/

/-- Chunks that tile a stretch start with one, and the rest tile what it
leaves. -/
theorem Tiles.uncons (h : Tiles data blockSize off stop (c :: cs)) :
    c.At data blockSize off ∧ Tiles data blockSize (off + c.size blockSize) stop cs := by
  cases h with
  | cons hc hrest => exact ⟨hc, hrest⟩

/-- Chunks take up what lies between their ends. -/
theorem Tiles.eq_add (h : Tiles data blockSize off stop cs) :
    stop = off + (cs.map (SparseChunk.size blockSize)).sum := by
  induction h with
  | nil off => simp
  | cons _ _ ih => rw [ih]; simp [Nat.add_assoc]

variable (data n) in
/-- **The loop** goes through exactly where that many chunks tile a
stretch of the download, and ends at the stretch's end with the blocks
they stand for added. -/
theorem obcValidateChunks_spec (hds : dataSize < 2 ^ 32) (hbs : blockSize < 2 ^ 32)
    (heb : expectedBlocks < 2 ^ 32) (htb : totalBlocks ≤ expectedBlocks)
    (hoff : offset ≤ dataSize) :
    ∃ r, obcValidateChunks data dataSize blockSize expectedBlocks chunkHeaderSize n offset
        totalBlocks = .ok r ∧
      ∀ o t, r = some (o, t) ↔ ∃ cs : List SparseChunk, cs.length = n ∧
        Tiles data blockSize offset o cs ∧ t = totalBlocks + (cs.map SparseChunk.blocks).sum ∧
        o ≤ dataSize ∧ t ≤ expectedBlocks := by
  induction n generalizing offset totalBlocks with
  | zero =>
    refine ⟨_, rfl, ?_⟩
    intro o t
    rw [Option.some.injEq, Prod.mk.injEq]
    constructor
    · rintro ⟨rfl, rfl⟩
      exact ⟨[], rfl, .nil _, by simp, hoff, htb⟩
    · rintro ⟨cs, hlen, htiles, rfl, -, -⟩
      obtain rfl := List.length_eq_zero_iff.1 hlen
      cases htiles
      exact ⟨rfl, by simp⟩
  | succ n ih =>
    obtain ⟨r, hr, hspec⟩ := obcValidateChunk_spec data hds hbs heb htb hoff
    rw [obcValidateChunks, hr, Checked.ok_bind]
    rcases r with _ | ⟨o₁, t₁⟩
    · -- no turn, so no chunk to start the stretch with
      refine ⟨_, rfl, fun o t => ⟨fun h => absurd h (by simp), ?_⟩⟩
      rintro ⟨_ | ⟨c, cs⟩, hlen, htiles, rfl, ho, ht⟩
      · cases hlen
      obtain ⟨hc, htiles⟩ := htiles.uncons
      have := htiles.eq_add
      rw [List.map_cons, List.sum_cons] at ht
      exact absurd ((hspec _ _).2 ⟨c, hc, rfl, rfl, by omega, by omega⟩) (by simp)
    · obtain ⟨c, hc, rfl, rfl, ho₁, ht₁⟩ := (hspec _ _).1 rfl
      obtain ⟨r', hr', hspec'⟩ := ih ht₁ ho₁
      refine ⟨r', hr', ?_⟩
      intro o t
      rw [hspec']
      constructor
      · rintro ⟨cs, hlen, htiles, rfl, ho, ht⟩
        exact ⟨c :: cs, by simp [hlen], .cons hc htiles, by simp [Nat.add_assoc], ho, ht⟩
      · -- the header at `offset` fixes the first chunk
        rintro ⟨_ | ⟨c', cs⟩, hlen, htiles, rfl, ho, ht⟩
        · cases hlen
        obtain ⟨hc', htiles⟩ := htiles.uncons
        obtain rfl := SparseChunk.eq_of_type_blocks (hc'.type.symm.trans hc.type)
          (hc'.blocks.symm.trans hc.blocks)
        exact ⟨cs, by simpa using hlen, htiles, by simp [Nat.add_assoc], ho, ht⟩

end Chunk

/-! ## The whole image -/

section Image

variable {data : Store UInt8} {dataSize storageBlksz : UInt32} {partitionSize : UInt64}

variable (data dataSize storageBlksz partitionSize) in
/-- **The validator decides the grammar**: it always returns, `0` on a
sparse image and `-1` on anything else. -/
theorem obcValidateSparse_eq :
    ∃ r, obcValidateSparse data dataSize storageBlksz partitionSize = .ok r ∧ (r = 0 ∨ r = -1) ∧
      (r = 0 ↔
        ∃ cs, SparseImage data dataSize.toNat storageBlksz.toNat partitionSize.toNat cs) := by
  have reject : ∀ {P : Prop}, ¬ P → ∃ r, (Except.ok (-1) : Checked ℤ) = .ok r ∧
      (r = 0 ∨ r = -1) ∧ (r = 0 ↔ P) := fun hP =>
    ⟨-1, rfl, Or.inr rfl, by simpa using hP⟩
  unfold obcValidateSparse
  by_cases hlong : dataSize.toNat < sparseHeaderSize
  · simp only [if_pos hlong]
    exact reject fun ⟨cs, h⟩ => absurd h.long (Nat.not_le.2 hlong)
  have hlong' : 28 ≤ dataSize.toNat := Nat.not_lt.1 hlong
  simp only [if_neg hlong]
  rw [Checked.field_of_le (by omega), Checked.ok_bind, Checked.field_of_le (by omega),
    Checked.ok_bind, Checked.field_of_le (by omega), Checked.ok_bind,
    Checked.field_of_le (by omega), Checked.ok_bind, Checked.field_of_le (by omega),
    Checked.ok_bind, Checked.field_of_le (by omega), Checked.ok_bind,
    Checked.field_of_le (by omega), Checked.ok_bind]
  have hbs : leNat (Store.read data 12 4) < 2 ^ 32 := leNat_read_lt
  have heb : leNat (Store.read data 16 4) < 2 ^ 32 := leNat_read_lt
  split
  · rename_i hhead
    refine reject ?_
    rintro ⟨cs, h⟩
    rcases hhead with hb | hb | hb | hb | hb | hb | hb | hb | hb
    · exact hb h.magic
    · exact hb h.majorVersion
    · exact hb h.fileHdrSz
    · exact absurd (hb.trans_eq h.fileHdrSz) hlong
    · exact hb h.chunkHdrSz
    · exact h.blkSz hb
    · exact hb (Nat.mod_eq_zero_of_dvd h.four)
    · exact hb (Nat.mod_eq_zero_of_dvd h.storage)
    · exact h.totalBlks hb
  rename_i hhead
  simp only [not_or, not_not] at hhead
  obtain ⟨hmagic, hmajor, hfile, -, hchunk, hblk, hfour, hstorage, htotal⟩ := hhead
  -- two words of 32 bits multiply into one of 64
  have hmul : leNat (Store.read data 12 4) * leNat (Store.read data 16 4) ≤
      (2 ^ 32 - 1) * (2 ^ 32 - 1) := Nat.mul_le_mul (by omega) (by omega)
  rw [Checked.fits_of_lt (by omega), Checked.ok_bind,
    Nat.mul_div_cancel_left _ (Nat.pos_of_ne_zero hblk)]
  split
  · rename_i hexp
    refine reject ?_
    rintro ⟨cs, h⟩
    rcases hexp with hb | hb
    · exact hb rfl
    · rw [Nat.mul_comm] at hb
      exact absurd h.expanded (Nat.not_le.2 hb)
  rename_i hexp
  rw [not_or, Nat.not_lt, Nat.mul_comm] at hexp
  obtain ⟨r, hr, hspec⟩ := obcValidateChunks_spec data (leNat (Store.read data 20 4))
    dataSize.toNat_lt hbs heb (Nat.zero_le _) hlong'
  rw [hchunk, hfile, hr, Checked.ok_bind]
  have build : ∀ cs, cs.length = (SparseHeader.ofStore data).totalChunks →
      Tiles data (SparseHeader.ofStore data).blkSz sparseHeaderSize dataSize.toNat cs →
      (cs.map SparseChunk.blocks).sum = (SparseHeader.ofStore data).totalBlks →
      SparseImage data dataSize.toNat storageBlksz.toNat partitionSize.toNat cs :=
    fun cs hlen htiles hsum => ⟨hlong', hmagic, hmajor, hfile, hchunk, hblk,
      Nat.dvd_of_mod_eq_zero hfour, Nat.dvd_of_mod_eq_zero hstorage, htotal, hexp.2, hlen, htiles,
      hsum⟩
  rcases r with _ | ⟨o, t⟩
  · refine reject ?_
    rintro ⟨cs, h⟩
    refine absurd ((hspec dataSize.toNat (SparseHeader.ofStore data).totalBlks).2
      ⟨cs, h.count, h.tiles, ?_, le_rfl, le_rfl⟩) (by simp)
    rw [h.sum, Nat.zero_add]
  · obtain ⟨cs, hlen, htiles, ht, ho, hte⟩ := (hspec o t).1 rfl
    simp only []
    split
    · rename_i hend
      refine reject ?_
      rintro ⟨cs', h⟩
      have := (hspec dataSize.toNat (SparseHeader.ofStore data).totalBlks).2
        ⟨cs', h.count, h.tiles, by rw [h.sum, Nat.zero_add], le_rfl, le_rfl⟩
      rw [Option.some.injEq, Prod.mk.injEq] at this
      exact hend.elim (fun hb => hb this.2) fun hb => hb this.1
    · rename_i hend
      rw [not_or, not_not, not_not] at hend
      obtain ⟨rfl, rfl⟩ := hend
      refine ⟨0, rfl, Or.inl rfl, fun _ => ⟨cs, build cs hlen htiles ?_⟩, fun _ => rfl⟩
      rw [Nat.zero_add] at ht
      exact ht.symm

/-! ## What the validator reads -/

section Reads

variable {data' : Store UInt8} {n blkSz off stop k : ℕ} {cs : List SparseChunk}

/-- A field inside the bytes two buffers share. -/
theorem read_eq_of_agree (hag : ∀ i, i < n → data' i = data i) (h : off + k ≤ n) :
    Store.read data' off k = Store.read data off k :=
  Store.read_congr fun i hi => hag _ (by omega)

theorem Tiles.congr (h : Tiles data blkSz off stop cs) (hag : ∀ i, i < stop → data' i = data i) :
    Tiles data' blkSz off stop cs := by
  induction h with
  | nil off => exact .nil off
  | @cons off stop c cs hc hrest ih =>
    have hend := hrest.eq_add
    have hsize := c.le_size blkSz
    refine .cons ⟨?_, ?_, ?_⟩ (ih hag)
    · rw [read_eq_of_agree hag (by omega)]
      exact hc.type
    · rw [read_eq_of_agree hag (by omega)]
      exact hc.blocks
    · rw [read_eq_of_agree hag (by omega)]
      exact hc.size

/-- The grammar is about the image's bytes. -/
theorem SparseImage.congr {dataSize storageBlksz partitionSize : ℕ}
    (h : SparseImage data dataSize storageBlksz partitionSize cs)
    (hag : ∀ i, i < dataSize → data' i = data i) :
    SparseImage data' dataSize storageBlksz partitionSize cs := by
  have hlong : 28 ≤ dataSize := h.long
  have hhead : SparseHeader.ofStore data' = SparseHeader.ofStore data := by
    simp only [SparseHeader.ofStore, SparseHeader.mk.injEq]
    refine ⟨?_, ?_, ?_, ?_, ?_, ?_, ?_⟩ <;> rw [read_eq_of_agree hag (by omega)]
  obtain ⟨_, hmagic, hmajor, hfile, hchunk, hblk, hfour, hstorage, htotal, hexp, hcount, htiles,
    hsum⟩ := h
  rw [← hhead] at hmagic hmajor hfile hchunk hblk hfour hstorage htotal hexp hcount htiles hsum
  exact ⟨hlong, hmagic, hmajor, hfile, hchunk, hblk, hfour, hstorage, htotal, hexp, hcount,
    htiles.congr hag, hsum⟩

end Reads

/-- **The validator and the grammar.** It returns `0` on the sparse images
and `-1` on everything else, without a read past the download or a word
that wraps, and what follows the download is nothing to it. -/
theorem obcValidateSparse_decides :
    ∃ r, obcValidateSparse data dataSize storageBlksz partitionSize = .ok r ∧ (r = 0 ∨ r = -1) ∧
      (r = 0 ↔ ∃ cs, SparseImage data dataSize.toNat storageBlksz.toNat partitionSize.toNat cs) ∧
      ∀ data' : Store UInt8, (∀ i, i < dataSize.toNat → data' i = data i) →
        obcValidateSparse data' dataSize storageBlksz partitionSize = .ok r := by
  obtain ⟨r, hr, hval, hiff⟩ := obcValidateSparse_eq data dataSize storageBlksz partitionSize
  refine ⟨r, hr, hval, hiff, ?_⟩
  intro data' hag
  obtain ⟨r', hr', hval', hiff'⟩ := obcValidateSparse_eq data' dataSize storageBlksz partitionSize
  have hzero : r' = 0 ↔ r = 0 := by
    rw [hiff', hiff]
    constructor
    · exact fun ⟨cs, h⟩ => ⟨cs, h.congr fun i hi => (hag i hi).symm⟩
    · exact fun ⟨cs, h⟩ => ⟨cs, h.congr hag⟩
  rw [hr']
  rcases hval with rfl | rfl
  · rw [hzero.2 rfl]
  · rcases hval' with rfl | rfl
    · exact absurd (hzero.1 rfl) (by decide)
    · rfl

end Image

/-! ## What an image describes -/

/-- The chunk a header at `off` names. -/
def chunkAt (data : Store UInt8) (off : ℕ) : SparseChunk :=
  let type := leNat (Store.read data off 2)
  let n := leNat (Store.read data (off + 4) 4)
  if type = chunkTypeRaw then .raw n
  else if type = chunkTypeFill then .fill n
  else if type = chunkTypeDontCare then .dontCare n
  else .crc32

/-- The `n` chunks from `off` on. -/
def chunksFrom (data : Store UInt8) (blkSz : ℕ) : ℕ → ℕ → List SparseChunk
  | 0, _ => []
  | n + 1, off => chunkAt data off :: chunksFrom data blkSz n (off + (chunkAt data off).size blkSz)

/-- The writes a chunk at `off` describes, on a medium `dev` with blocks
of `bsz` bytes, from block `blk` on. -/
def SparseChunk.journal (data : Store UInt8) (dev bsz blkSz off blk : ℕ) :
    SparseChunk → List (Extent ℕ UInt8)
  | raw n => Journal.blocks dev bsz blk (n * (blkSz / bsz)) (Store.tail data (off + 12))
  | fill n => Journal.blocks dev bsz blk (n * (blkSz / bsz)) fun i => data (off + 12 + i % 4)
  | dontCare _ | crc32 => []

/-- The writes of a run of chunks, each behind the blocks of the one
before. -/
def chunksJournal (data : Store UInt8) (dev bsz blkSz : ℕ) :
    ℕ → ℕ → List SparseChunk → List (Extent ℕ UInt8)
  | _, _, [] => []
  | off, blk, c :: cs => c.journal data dev bsz blkSz off blk ++
      chunksJournal data dev bsz blkSz (off + c.size blkSz) (blk + c.blocks * (blkSz / bsz)) cs

/-- The writes an image describes, from block `start` of a medium on. -/
def sparseJournal (data : Store UInt8) (dev bsz start : ℕ) : List (Extent ℕ UInt8) :=
  let h := SparseHeader.ofStore data
  chunksJournal data dev bsz h.blkSz sparseHeaderSize start
    (chunksFrom data h.blkSz h.totalChunks sparseHeaderSize)

section Describes

variable {data : Store UInt8} {dev bsz blkSz off stop blk n start : ℕ} {c : SparseChunk}
  {cs : List SparseChunk} {dataSize storageBlksz partitionSize : ℕ}

theorem SparseChunk.At.eq_chunkAt (h : c.At data blkSz off) : c = chunkAt data off := by
  have ht := h.type
  have hb := h.blocks
  unfold chunkAt
  cases c <;> simp_all [SparseChunk.type, SparseChunk.blocks]

/-- A tiling is the one its headers name. -/
theorem Tiles.eq_chunksFrom (h : Tiles data blkSz off stop cs) :
    cs = chunksFrom data blkSz cs.length off := by
  induction h with
  | nil off => rfl
  | cons hc _ ih =>
    rw [List.length_cons, chunksFrom, ← hc.eq_chunkAt, ← ih]

/-- A chunk's writes lie in its blocks. -/
theorem SparseChunk.within_journal :
    Journal.Within dev (Set.Ico (blk * bsz) ((blk + c.blocks * (blkSz / bsz)) * bsz))
      (c.journal data dev bsz blkSz off blk) := by
  cases c with
  | raw n => exact Journal.within_blocks
  | fill n => exact Journal.within_blocks
  | dontCare n => exact fun _ he => nomatch he
  | crc32 => exact fun _ he => nomatch he

theorem within_chunksJournal :
    Journal.Within dev
      (Set.Ico (blk * bsz) ((blk + (cs.map SparseChunk.blocks).sum * (blkSz / bsz)) * bsz))
      (chunksJournal data dev bsz blkSz off blk cs) := by
  induction cs generalizing off blk with
  | nil => exact fun _ he => nomatch he
  | cons c cs ih =>
    have hsum : blk + ((c :: cs).map SparseChunk.blocks).sum * (blkSz / bsz) =
        blk + c.blocks * (blkSz / bsz) + (cs.map SparseChunk.blocks).sum * (blkSz / bsz) := by
      rw [List.map_cons, List.sum_cons, Nat.add_mul, Nat.add_assoc]
    rw [hsum]
    refine (SparseChunk.within_journal.mono ?_).append (ih.mono ?_)
    · intro x hx
      refine ⟨hx.1, hx.2.trans_le (Nat.mul_le_mul_right _ (Nat.le_add_right ..))⟩
    · intro x hx
      exact ⟨(Nat.mul_le_mul_right _ (Nat.le_add_right ..)).trans hx.1, hx.2⟩

variable (dev start) in
/-- **An image stays in the partition it was validated for.** -/
theorem SparseImage.within_journal
    (h : SparseImage data dataSize bsz partitionSize cs) :
    Journal.Within dev (Set.Ico (start * bsz) (start * bsz + partitionSize))
      (sparseJournal data dev bsz start) := by
  have hcs := h.tiles.eq_chunksFrom
  rw [h.count] at hcs
  simp only [sparseJournal]
  rw [← hcs]
  refine within_chunksJournal.mono fun x hx => ⟨hx.1, hx.2.trans_le ?_⟩
  rw [h.sum, Nat.add_mul, Nat.mul_assoc, Nat.div_mul_cancel h.storage]
  exact Nat.add_le_add_left h.expanded _

end Describes

end Boot

end ObcSdk
