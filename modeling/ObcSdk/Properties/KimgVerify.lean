import ObcSdk.Properties.KimgHeader
/-!
# What a passed verification tells

`-v` checks sums: the CRC16 of the header's first fields, and the CRC32
of each entry in use. An entry's offset and size are looked at in finding
its bytes, and with them the end of the image is. What else the header
says of the layout is not looked at, nor what is behind the last file,
nor that there may be more files than entries.
-/

namespace ObcSdk

namespace Tools

/-- Where an entry points, as far as the image goes. -/
def MkkimgFileInfo.content (e : MkkimgFileInfo) (F : List UInt8) : List UInt8 :=
  (F.drop e.offset.toNat).take e.size.toNat

/-- A byte of the image is of an entry's file. -/
def MkkimgFileInfo.Covers (e : MkkimgFileInfo) (k : ℕ) : Prop :=
  e.offset.toNat ≤ k ∧ k < e.offset.toNat + e.size.toNat

instance (e : MkkimgFileInfo) (k : ℕ) : Decidable (e.Covers k) :=
  inferInstanceAs (Decidable (_ ∧ _))

/-- **An image is well formed**: it has as many entries as it counts, they
lie between its header and its end, apart from each other, with the
checksums they record, and the end is where it says. -/
structure WellFormed (F : List UInt8) (header : MkkimgHeader) : Prop where
  count : header.fileCount.toNat ≤ mkkimgMaxFiles
  inside : ∀ e ∈ header.listed,
    mkkimgHeaderSize ≤ e.offset.toNat ∧ e.offset.toNat + e.size.toNat ≤ header.totalSize.toNat
  holds : ∀ e ∈ header.listed, e.Holds F
  apart : ∀ (i j : ℕ) (e e' : MkkimgFileInfo), i < j → header.listed[i]? = some e →
    header.listed[j]? = some e' → ∀ k, ¬ (e.Covers k ∧ e'.Covers k)
  total : header.totalSize.toNat = F.length

/-- **What the verification checks**: the sum over the first fields, and
of every entry in use that its bytes are there and have the entry's
sum. -/
structure Checked (F : List UInt8) (header : MkkimgHeader) : Prop where
  crc16 : (crc16Ccitt header.checkedBytes).toUInt32 = header.packageCrc16
  inside : ∀ e ∈ header.listed, e.size ≠ 0 → e.offset.toNat + e.size.toNat ≤ F.length
  crc32 : ∀ e ∈ header.listed, Tools.crc32 (e.content F) = e.crc32

section Verified

variable {host : UmkkimgHost} {F outputDir : List UInt8} {header : MkkimgHeader} {disk : Disk}
  {e : MkkimgFileInfo} {n : ℕ}

/-- An entry without bytes is read anywhere, any other inside the image
only. -/
theorem readAt_entry : Segments.readAt F e.offset.toNat e.size.toNat =
    if e.size ≠ 0 → e.offset.toNat + e.size.toNat ≤ F.length then some (e.content F) else none := by
  have hzero : e.size = 0 ↔ e.size.toNat = 0 := by
    rw [← UInt32.toNat_inj]
    rfl
  rw [Segments.readAt, MkkimgFileInfo.content]
  refine if_congr ?_ rfl rfl
  rw [ne_eq, hzero, List.length_take, List.length_drop]
  omega

theorem holds_iff : e.Holds F ↔ (e.size ≠ 0 → e.offset.toNat + e.size.toNat ≤ F.length) ∧
    Tools.crc32 (e.content F) = e.crc32 := by
  rw [MkkimgFileInfo.Holds, readAt_entry]
  split
  · rename_i hinside
    rw [and_iff_right hinside]
    simp
  · rename_i hinside
    simp [hinside]

theorem checked_iff : Checked F header ↔
    (crc16Ccitt header.checkedBytes).toUInt32 = header.packageCrc16 ∧
      ∀ e ∈ header.listed, e.Holds F := by
  constructor
  · intro h
    exact ⟨h.crc16, fun e he => holds_iff.2 ⟨h.inside e he, h.crc32 e he⟩⟩
  · rintro ⟨hcrc, hholds⟩
    exact ⟨hcrc, fun e he => (holds_iff.1 (hholds e he)).1,
      fun e he => (holds_iff.1 (hholds e he)).2⟩

/-- The entries in use are as many as the header counts and has. -/
theorem length_listed : header.listed.length = min header.fileCount.toNat mkkimgMaxFiles := by
  rw [MkkimgHeader.listed, List.length_take, Vector.length_toList]

/-- A checked image is extracted, every entry in use to its path. -/
theorem Checked.extractFiles_eq (h : Checked F header) (hhost : host.Works) :
    extractFiles host F outputDir header disk = (true, disk.writeAll
      (header.listed.zipIdx.map fun e =>
        (outputPath outputDir (nameAt host.behind header e.2), e.1.content F))) := by
  have hfile : ∀ e ∈ header.listed.zipIdx, ∀ disk,
      extractFile host F outputDir header e.2 e.1 (true, disk) =
        (true, Function.update disk (outputPath outputDir (nameAt host.behind header e.2))
          (some (e.1.content F))) := by
    intro e he disk
    have hread : Segments.readAt F e.1.offset.toNat e.1.size.toNat = some (e.1.content F) := by
      rw [readAt_entry, if_pos (h.inside e.1 (List.fst_mem_of_mem_zipIdx he))]
    simp only [extractFile, hhost _, hread, Bool.false_eq_true, if_false]
  have hloop : ∀ (es : List (MkkimgFileInfo × ℕ)) (disk : Disk),
      (∀ e ∈ es, ∀ disk, extractFile host F outputDir header e.2 e.1 (true, disk) =
        (true, Function.update disk (outputPath outputDir (nameAt host.behind header e.2))
          (some (e.1.content F)))) →
      es.foldl (fun s e => extractFile host F outputDir header e.2 e.1 s) (true, disk) =
        (true, disk.writeAll (es.map fun e =>
          (outputPath outputDir (nameAt host.behind header e.2), e.1.content F))) := by
    intro es
    induction es with
    | nil => exact fun _ _ => rfl
    | cons e es ih =>
      intro disk hes
      rw [List.foldl_cons, hes e List.mem_cons_self,
        ih _ fun e he => hes e (List.mem_cons_of_mem _ he)]
      rfl
  rw [extractFiles, hhost, if_neg Bool.false_ne_true]
  exact hloop _ disk hfile

/-- **A passed verification** is that of the sums, and no more: it passes
exactly what is checked. What it passes is extracted, every entry in use,
and was not cut off inside one. -/
theorem verifyImage_passes :
    ((∃ host, verifyImage host F header = true) ↔ Checked F header) ∧
    (∀ host : UmkkimgHost, host.Works → (verifyImage host F header = true ↔ Checked F header)) ∧
    (Checked F header → header.listed.length = min header.fileCount.toNat mkkimgMaxFiles ∧
      ∀ host : UmkkimgHost, host.Works → ∀ outputDir disk,
        extractFiles host F outputDir header disk = (true, disk.writeAll
          (header.listed.zipIdx.map fun e =>
            (outputPath outputDir (nameAt host.behind header e.2), e.1.content F)))) ∧
    ∀ n, (∃ e ∈ header.listed, e.size ≠ 0 ∧ n < e.offset.toNat + e.size.toNat) →
      ∀ host, verifyImage host (F.take n) header = false := by
  have hworks : ∀ F (host : UmkkimgHost), host.Works →
      (verifyImage host F header = true ↔ Checked F header) := by
    intro F host hhost
    rw [verifyImage_iff hhost, checked_iff]
  have hany : ∀ F, (∃ host, verifyImage host F header = true) ↔ Checked F header := by
    intro F
    constructor
    · rintro ⟨host, hverify⟩
      exact checked_iff.2 (holds_of_verifyImage hverify)
    · intro h
      exact ⟨working, (hworks F working works_working).2 h⟩
  refine ⟨hany F, hworks F, ?_, ?_⟩
  · intro h
    exact ⟨length_listed, fun host hhost outputDir disk => h.extractFiles_eq hhost⟩
  · rintro n ⟨e, he, hsize, hcut⟩ host
    by_contra hverify
    have hchecked := (hany (F.take n)).1 ⟨host, Bool.eq_true_of_not_eq_false hverify⟩
    have hinside := hchecked.inside e he hsize
    rw [List.length_take] at hinside
    omega

end Verified

/-- A header that counts seven files. Its first two entries are both the
header's magic, the others are empty. -/
def sevenFiles : MkkimgHeader :=
  let magic : MkkimgFileInfo := { MkkimgFileInfo.zero with size := 4, crc32 := 0xBF755314 }
  let header : MkkimgHeader :=
    { magic := mkkimgMagic
      headerVersion := 0x00010000
      fileCount := 7
      totalSize := 0
      dataOffset := 512
      packageCrc16 := 0
      createTimestamp := 0
      reserved1 := 0
      files := #v[magic, magic, .zero, .zero, .zero, .zero] }
  { header with packageCrc16 := (crc16Ccitt header.checkedBytes).toUInt32 }

/-- Every sum of it is right, and the layout wrong in every way. -/
theorem not_wellFormed_sevenFiles :
    readHeader sevenFiles.bytes = some sevenFiles ∧ sevenFiles.magic = mkkimgMagic ∧
    verifyImage working sevenFiles.bytes sevenFiles = true ∧
    ¬ WellFormed sevenFiles.bytes sevenFiles ∧
    ¬ sevenFiles.fileCount.toNat ≤ mkkimgMaxFiles ∧
    (∃ e ∈ sevenFiles.listed, e.offset.toNat < mkkimgHeaderSize ∧
      sevenFiles.totalSize.toNat < e.offset.toNat + e.size.toNat) ∧
    (∃ e e', sevenFiles.listed[0]? = some e ∧ sevenFiles.listed[1]? = some e' ∧
      e.Covers 0 ∧ e'.Covers 0) ∧
    sevenFiles.totalSize.toNat ≠ sevenFiles.bytes.length := by
  have hread : readHeader sevenFiles.bytes = some sevenFiles := by
    rw [← List.append_nil sevenFiles.bytes, readHeader_bytes]
  refine ⟨hread, rfl, by decide +kernel, fun h => absurd h.count (by decide), by decide,
    by decide +kernel, ?_, by decide +kernel⟩
  exact ⟨_, _, rfl, rfl, by decide +kernel, by decide +kernel⟩

end Tools

end ObcSdk
