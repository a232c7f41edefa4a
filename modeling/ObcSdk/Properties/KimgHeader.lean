import ObcSdk.Properties.Checksums
import ObcSdk.Properties.KimgRoundTrip
/-!
# What the image's checksums cover

The header's `package_crc16` is the checksum of the twenty bytes before
it and of nothing else; each entry's `crc32` is that of the bytes the
entry points at. A header changed in one or two bytes is therefore
rejected where the change shows in one of these or in the magic. In the
timestamp, a file's name or its type it does not.
-/

namespace ObcSdk

namespace Tools

open Boot (crc16Poly Damaged)

/-! ## The change -/

/-- `F'` is `F` changed in one or two bytes, all of the header. -/
structure HeaderChanged (F F' : List UInt8) : Prop where
  length : F'.length = F.length
  changed : F' ≠ F
  few : ∃ i j, i < mkkimgHeaderSize ∧ j < mkkimgHeaderSize ∧
    ∀ k, k ≠ i → k ≠ j → F'[k]? = F[k]?

/-- The change leaves nothing in a CRC16 over the first 22 bytes: the
fields it covers and the two bytes that hold it. -/
def Cancels (F F' : List UInt8) : Prop :=
  Crc.feed crc16Poly 0#16
    (List.zipWith xor (Crc.bits (F.take 22)) (Crc.bits (F'.take 22))) = 0#16

/-- Two bytes changed that do: both behind the magic, and not side by
side. -/
def CancellingPair (F F' : List UInt8) : Prop :=
  ∃ i j, 4 ≤ i ∧ i + 2 ≤ j ∧ j < 22 ∧ F'[i]? ≠ F[i]? ∧ F'[j]? ≠ F[j]? ∧ Cancels F F'

/-- The entries an image has in use find their files, with the checksums
they record. -/
def EntriesHold (F : List UInt8) : Prop := ∀ e ∈ (MkkimgHeader.ofBytes F).listed, e.Holds F

section Header

variable {F F' l l' : List UInt8} {o n p : ℕ}

/-! ## Reading the header -/

theorem leBytes_uint32At (h : o + 4 ≤ l.length) :
    leBytes 4 (uint32At l o).toNat = (l.drop o).take 4 := by
  have hlen : ((l.drop o).take 4).length = 4 := by
    rw [List.length_take, List.length_drop]
    omega
  have hlt := leNat_lt ((l.drop o).take 4)
  rw [hlen] at hlt
  rw [uint32At, UInt32.toNat_ofNat_of_lt' hlt]
  conv_rhs => rw [← leBytes_leNat ((l.drop o).take 4), hlen]

/-- The checksum is over an image's first twenty bytes. -/
theorem checkedBytes_ofBytes (h : 20 ≤ l.length) :
    (MkkimgHeader.ofBytes l).checkedBytes = l.take 20 := by
  have htwenty : l.take 20 = l.take 4 ++ (l.drop 4).take 4 ++ (l.drop 8).take 4 ++
      (l.drop 12).take 4 ++ (l.drop 16).take 4 := by
    rw [← List.take_add, ← List.take_add, ← List.take_add, ← List.take_add]
  rw [MkkimgHeader.checkedBytes, MkkimgHeader.ofBytes]
  simp only [leBytes_uint32At (show 0 + 4 ≤ l.length by omega),
    leBytes_uint32At (show 4 + 4 ≤ l.length by omega),
    leBytes_uint32At (show 8 + 4 ≤ l.length by omega),
    leBytes_uint32At (show 12 + 4 ≤ l.length by omega),
    leBytes_uint32At (show 16 + 4 ≤ l.length by omega)]
  rw [htwenty, List.drop_zero]

/-- Two slices agree where their places do. -/
theorem slice_eq_iff : (l'.drop o).take n = (l.drop o).take n ↔
    ∀ k, o ≤ k → k < o + n → l'[k]? = l[k]? := by
  constructor
  · intro h k hok hkn
    have hget := congrArg (·[k - o]?) h
    simp only [List.getElem?_take, if_pos (show k - o < n by omega), List.getElem?_drop] at hget
    rwa [Nat.add_sub_cancel' hok] at hget
  · intro h
    apply List.ext_getElem?
    intro k
    rw [List.getElem?_take, List.getElem?_take]
    split
    · rw [List.getElem?_drop, List.getElem?_drop]
      exact h _ (by omega) (by omega)
    · rfl

/-- And so do the words read from them. -/
theorem uint32At_congr (h : ∀ k, o ≤ k → k < o + 4 → l'[k]? = l[k]?) :
    uint32At l' o = uint32At l o := by
  rw [uint32At, uint32At, slice_eq_iff.2 h]

theorem uint32At_drop : uint32At (l.drop p) o = uint32At l (p + o) := by
  rw [uint32At, List.drop_drop, uint32At]

theorem take_eq_iff : l'.take n = l.take n ↔ ∀ k < n, l'[k]? = l[k]? := by
  have h : (l'.drop 0).take n = (l.drop 0).take n ↔
      ∀ k, 0 ≤ k → k < 0 + n → l'[k]? = l[k]? := slice_eq_iff
  simpa using h

/-! ## The CRC16 -/

/-- **The checksum stored is the right one** where the two bytes above it
are clear and it clears the register it was read from. -/
theorem crc16_stored_iff (h : 24 ≤ l.length) :
    (crc16Ccitt (l.take 20)).toUInt32 = uint32At l 20 ↔ (l.drop 22).take 2 = [0, 0] ∧
      Crc.feed crc16Poly 0xFFFF#16 (Crc.bits (l.take 22)) = 0#16 := by
  have htwo : ∀ o, o + 2 ≤ l.length → ((l.drop o).take 2).length = 2 := by
    intro o ho
    rw [List.length_take, List.length_drop]
    omega
  have hlow := htwo 20 (by omega)
  have hhigh := htwo 22 (by omega)
  have htake : l.take 22 = l.take 20 ++ (l.drop 20).take 2 := by
    rw [← List.take_add]
  have hfour : (l.drop 20).take 4 = (l.drop 20).take 2 ++ (l.drop 22).take 2 := by
    have hdrop : l.drop 22 = (l.drop 20).drop 2 := by rw [List.drop_drop]
    rw [hdrop, ← List.take_add]
  -- the word is the checksum where its upper half is clear and its lower half is it
  have hclear : (l.drop 22).take 2 = [0, 0] ↔ leNat ((l.drop 22).take 2) = 0 := by
    constructor
    · intro h0
      rw [h0]
      rfl
    · intro h0
      rw [← leBytes_leNat ((l.drop 22).take 2), hhigh, h0]
      rfl
  have hbits : (Crc.bits ((l.drop 20).take 2)).length ≤ 16 := by rw [Crc.length_bits, hlow]
  have hfit := leNat_lt ((l.drop 20).take 4)
  have hlt := leNat_lt ((l.drop 20).take 2)
  rw [hfour, List.length_append, hlow, hhigh, leNat_append, hlow] at hfit
  rw [hlow] at hlt
  rw [← Boot.calculateCrc16_eq_feed, htake, Boot.calculateCrc16_append,
    Crc.feed_eq_zero_iff (by decide) hbits, Crc.word_bits, crc16Ccitt_eq, hclear, uint32At, hfour,
    leNat_append, hlow, ← UInt32.toNat_inj, UInt16.toNat_toUInt32,
    UInt32.toNat_ofNat_of_lt' hfit, ← BitVec.toNat_inj, UInt16.toNat_toBitVec,
    BitVec.toNat_ofNat]
  have hcrc := UInt16.toNat_lt (calculateCrc16 (l.take 20))
  omega

/-- What cancels leaves the CRC16 as it was. -/
theorem cancels_iff (hlen : F'.length = F.length) :
    Cancels F F' ↔ calculateCrc16 (F'.take 22) = calculateCrc16 (F.take 22) := by
  have hbits : (Crc.bits (F.take 22)).length = (Crc.bits (F'.take 22)).length := by
    rw [Crc.length_bits, Crc.length_bits, List.length_take, List.length_take, hlen]
  rw [Cancels, ← Crc.feed_eq_iff (c := 0xFFFF#16) hbits, ← Boot.calculateCrc16_eq_feed,
    ← Boot.calculateCrc16_eq_feed, UInt16.toBitVec_inj]
  exact eq_comm

/-- **The header's two checks** of a changed image, as the change tells:
its magic is as it was, the two bytes above the checksum are, and the
rest up to there cancels. -/
theorem header_checks_iff (hlen : F'.length = F.length) (hlong : 24 ≤ F.length)
    (hmagic : uint32At F 0 = mkkimgMagic)
    (hcrc : (crc16Ccitt (F.take 20)).toUInt32 = uint32At F 20) :
    uint32At F' 0 = mkkimgMagic ∧ (crc16Ccitt (F'.take 20)).toUInt32 = uint32At F' 20 ↔
      (∀ k < 4, F'[k]? = F[k]?) ∧ (∀ k, 22 ≤ k → k < 24 → F'[k]? = F[k]?) ∧ Cancels F F' := by
  have hmagic' : uint32At F' 0 = mkkimgMagic ↔ F'.take 4 = F.take 4 := by
    rw [← hmagic]
    constructor
    · intro h
      have hbytes := congrArg (fun x => leBytes 4 x.toNat) h
      simp only [leBytes_uint32At (show 0 + 4 ≤ F.length by omega),
        leBytes_uint32At (show 0 + 4 ≤ F'.length by omega), List.drop_zero] at hbytes
      exact hbytes
    · intro h
      rw [uint32At, uint32At, List.drop_zero, List.drop_zero, h]
  obtain ⟨hhigh, hclear⟩ := (crc16_stored_iff hlong).1 hcrc
  rw [hmagic', take_eq_iff, crc16_stored_iff (hlen ▸ hlong), ← hhigh, slice_eq_iff, ← hclear,
    ← Boot.calculateCrc16_eq_feed, ← Boot.calculateCrc16_eq_feed, UInt16.toBitVec_inj,
    cancels_iff hlen]

/-- **One byte changed, or two side by side, do not cancel.** -/
theorem not_cancels_of_window (hlen : F'.length = F.length)
    (hwindow : ∀ k < 22, F'[k]? ≠ F[k]? → p ≤ k ∧ k < p + 2)
    (hchanged : ∃ k < 22, F'[k]? ≠ F[k]?) : ¬ Cancels F F' := by
  rw [cancels_iff hlen]
  refine Damaged.calculateCrc16_ne (Or.inl ⟨?_, 8 * p, ?_⟩) ?_
  · obtain ⟨k, hk, hne⟩ := hchanged
    exact fun h => hne (take_eq_iff.1 h k hk)
  · intro i hi
    rw [Crc.getElem?_bits, Crc.getElem?_bits, List.getElem?_take, List.getElem?_take] at hi
    split at hi
    · rename_i hlow
      have hne : F'[i / 8]? ≠ F[i / 8]? := fun h => hi (by rw [h])
      have := hwindow _ hlow hne
      omega
    · exact absurd rfl hi
  · rw [List.length_take, List.length_take, hlen]

/-- The bytes changed are at most two, in their order. -/
theorem HeaderChanged.places (h : HeaderChanged F F') :
    ∃ i j : ℕ, i ≤ j ∧ ∀ k, F'[k]? ≠ F[k]? → k = i ∨ k = j := by
  obtain ⟨i, j, -, -, hfew⟩ := h.few
  have hone : ∀ k, F'[k]? ≠ F[k]? → k = i ∨ k = j := by
    intro k hk
    by_contra hno
    rw [not_or] at hno
    exact hk (hfew k hno.1 hno.2)
  rcases le_total i j with hij | hji
  · exact ⟨i, j, hij, hone⟩
  · exact ⟨j, i, hji, fun k hk => (hone k hk).symm⟩

/-- A change that cancels is two bytes: the one at `k` has another below
the checksum's upper half with it. -/
theorem HeaderChanged.both_of_cancels (h : HeaderChanged F F') (hcancels : Cancels F F') {k : ℕ}
    (hk : k < 22) (hchanged : F'[k]? ≠ F[k]?) :
    ∃ i j, i + 2 ≤ j ∧ j < 22 ∧ F'[i]? ≠ F[i]? ∧ F'[j]? ≠ F[j]? := by
  obtain ⟨i, j, hij, hone⟩ := h.places
  by_cases hboth : F'[i]? ≠ F[i]? ∧ F'[j]? ≠ F[j]? ∧ j < 22
  · obtain ⟨hi, hj, hlow⟩ := hboth
    refine ⟨i, j, ?_, hlow, hi, hj⟩
    by_contra hnear
    have hwindow : ∀ k < 22, F'[k]? ≠ F[k]? → i ≤ k ∧ k < i + 2 := by
      intro k _ hk
      have := hone k hk
      omega
    exact not_cancels_of_window h.length hwindow ⟨k, hk, hchanged⟩ hcancels
  · -- then the byte at `k` is the only one of them
    have hwindow : ∀ k' < 22, F'[k']? ≠ F[k']? → k ≤ k' ∧ k' < k + 2 := by
      intro k' hlow hk'
      have heq : k' = k := by
        by_contra hne
        refine hboth ?_
        rcases hone k hchanged with rfl | rfl
        · obtain rfl := (hone k' hk').resolve_left hne
          exact ⟨hchanged, hk', hlow⟩
        · obtain rfl := (hone k' hk').resolve_right hne
          exact ⟨hk', hchanged, hk⟩
      omega
    exact absurd hcancels (not_cancels_of_window h.length hwindow ⟨k, hk, hchanged⟩)

/-- A pair that cancels is all that is changed. -/
theorem HeaderChanged.eq_of_pair (h : HeaderChanged F F') {i j k : ℕ} (hfar : i + 2 ≤ j)
    (hi : F'[i]? ≠ F[i]?) (hj : F'[j]? ≠ F[j]?) (hki : k ≠ i) (hkj : k ≠ j) :
    F'[k]? = F[k]? := by
  obtain ⟨i', j', -, hone⟩ := h.places
  by_contra hk
  have := hone k hk
  have := hone i hi
  have := hone j hj
  omega

/-- **Up to the checksum** a change of one or two bytes does not show
where there is none, or two bytes cancel. -/
theorem HeaderChanged.fields_iff (h : HeaderChanged F F') :
    (∀ k < 4, F'[k]? = F[k]?) ∧ (∀ k, 22 ≤ k → k < 24 → F'[k]? = F[k]?) ∧ Cancels F F' ↔
      (∀ k < 24, F'[k]? = F[k]?) ∨ CancellingPair F F' := by
  constructor
  · rintro ⟨hmagic, hhigh, hcancels⟩
    by_cases hall : ∀ k < 24, F'[k]? = F[k]?
    · exact Or.inl hall
    obtain ⟨k, hk, hchanged⟩ : ∃ k < 22, F'[k]? ≠ F[k]? := by
      by_contra hno
      refine hall fun k hk => ?_
      by_contra hchanged
      exact hno ⟨k, by_contra fun hge => hchanged (hhigh k (by omega) hk), hchanged⟩
    obtain ⟨i, j, hfar, hlow, hi, hj⟩ := h.both_of_cancels hcancels hk hchanged
    have hbehind : 4 ≤ i := by_contra fun hlt => hi (hmagic i (by omega))
    exact Or.inr ⟨i, j, hbehind, hfar, hlow, hi, hj, hcancels⟩
  · rintro (hall | ⟨i, j, hbehind, hfar, hlow, hi, hj, hcancels⟩)
    · refine ⟨fun k hk => hall k (by omega), fun k _ hk => hall k hk, ?_⟩
      rw [cancels_iff h.length, take_eq_iff.2 fun k hk => hall k (by omega)]
    · exact ⟨fun k hk => h.eq_of_pair hfar hi hj (by omega) (by omega),
        fun k hk _ => h.eq_of_pair hfar hi hj (by omega) (by omega), hcancels⟩

end Header

/-! ## The verification -/

section Verify

variable {fault : MkkimgStep → Bool} {src : PackDir} {now : UInt32}
  {platform dirname F F' : List UInt8} {files : List (List UInt8 × List UInt8)}
  {header : MkkimgHeader}

/-- **`-v` passes an image** of header length, whatever the host's calls
come to, only where it does with none failing. -/
theorem verifies_iff (hlong : mkkimgHeaderSize ≤ F.length) :
    (∃ host disk, (umkkimg host [ascii "-v"] F disk).1 = 0) ↔
      uint32At F 0 = mkkimgMagic ∧ (crc16Ccitt (F.take 20)).toUInt32 = uint32At F 20 ∧
        EntriesHold F := by
  have hread : readHeader F = some (MkkimgHeader.ofBytes F) := by
    rw [readHeader, if_neg (Nat.not_lt.2 hlong)]
  have hchecked : (MkkimgHeader.ofBytes F).checkedBytes = F.take 20 :=
    checkedBytes_ofBytes ((by decide : 20 ≤ mkkimgHeaderSize).trans hlong)
  simp only [umkkimg_verify_eq_zero hread]
  constructor
  · rintro ⟨host, disk, -, hmagic, hverify⟩
    have hholds := holds_of_verifyImage hverify
    rw [hchecked] at hholds
    exact ⟨hmagic, hholds⟩
  · rintro ⟨hmagic, hholds⟩
    rw [← hchecked] at hholds
    exact ⟨working, fun _ => none, rfl, hmagic, (verifyImage_iff works_working).2 hholds⟩

/-- **A changed header passes** exactly where no field up to the checksum
shows the change, and the entries hold. -/
theorem headerChange_passes_iff (h : mkkimg fault src now platform dirname = (0, some F))
    (hchange : HeaderChanged F F') :
    (∃ host disk, (umkkimg host [ascii "-v"] F' disk).1 = 0) ↔
      ((∀ k < 24, F'[k]? = F[k]?) ∨ CancellingPair F F') ∧ EntriesHold F' := by
  obtain ⟨header, hp⟩ := mkkimg_eq_zero h
  have hlong : mkkimgHeaderSize ≤ F.length := by
    rw [hp.length_image]
    exact Nat.le_add_right _ _
  have hfields : 24 ≤ F.length := (by decide : 24 ≤ mkkimgHeaderSize).trans hlong
  have hbytes : MkkimgHeader.ofBytes F = header := by
    rw [hp.image_eq, MkkimgHeader.ofBytes_bytes]
  -- the image passes its own two checks, as it was packed
  have hmagic : uint32At F 0 = mkkimgMagic := by
    rw [← hp.magic, ← hbytes]
    rfl
  have hcrc : (crc16Ccitt (F.take 20)).toUInt32 = uint32At F 20 := by
    have hfield : uint32At F 20 = header.packageCrc16 := by
      rw [← hbytes]
      rfl
    rw [hfield, hp.crc16, ← checkedBytes_ofBytes (by omega), hbytes]
  rw [verifies_iff (hchange.length ▸ hlong), ← and_assoc,
    header_checks_iff hchange.length hfields hmagic hcrc, hchange.fields_iff]

/-- **A header changed up to its checksum is rejected**, unless the two
bytes changed cancel and the entries hold. -/
theorem headerChange_rejected_iff (h : mkkimg fault src now platform dirname = (0, some F))
    (hchange : HeaderChanged F F') (hcovered : ∃ k < 24, F'[k]? ≠ F[k]?) :
    (∀ host disk, (umkkimg host [ascii "-v"] F' disk).1 ≠ 0) ↔
      ¬ (CancellingPair F F' ∧ EntriesHold F') := by
  have hnot : ¬ ∀ k < 24, F'[k]? = F[k]? := by
    obtain ⟨k, hk, hne⟩ := hcovered
    exact fun hall => hne (hall k hk)
  have hpasses := headerChange_passes_iff h hchange
  rw [or_iff_right hnot] at hpasses
  rw [← hpasses]
  push Not
  rfl

/-! ## What no check reads -/

/-- The bytes a check reads, with `count` entries in use: those up to
`package_crc16`, where each entry's file lies and its checksum, and the
files. -/
def Covered (count k : ℕ) : Prop :=
  k < 24 ∨ mkkimgHeaderSize ≤ k ∨ ∃ i < count, 32 + 80 * i + 68 ≤ k ∧ k < 32 + 80 * i + 80

/-- Files laid end to end lie behind where they start. -/
theorem le_of_mem_extents {parts : List (List UInt8)} {o : ℕ} :
    ∀ e ∈ Segments.extents o parts, o ≤ e.1 := by
  induction parts generalizing o with
  | nil => exact fun _ h => nomatch h
  | cons part parts ih =>
    intro e he
    rcases List.mem_cons.1 he with rfl | he
    · exact le_rfl
    · exact (Nat.le_add_right _ _).trans (ih e he)

theorem getElem?_listed_ofBytes {l : List UInt8} {i : ℕ} {e : MkkimgFileInfo} :
    (MkkimgHeader.ofBytes l).listed[i]? = some e ↔ i < (uint32At l 8).toNat ∧ i < 6 ∧
      MkkimgFileInfo.ofBytes (l.drop (32 + 80 * i)) = e := by
  rw [MkkimgHeader.listed, List.getElem?_take]
  change (if i < (uint32At l 8).toNat then _ else _) = _ ↔ _
  split
  · rename_i hcount
    simp only [MkkimgHeader.ofBytes, Vector.getElem?_toList, Vector.getElem?_ofFn, hcount, true_and]
    split
    · rename_i hsix
      simp [hsix]
    · rename_i hsix
      simp [hsix]
  · rename_i hcount
    simp [hcount]

/-- Where a list agrees from `o` on, it reads the same there. -/
theorem readAt_congr {l l' : List UInt8} {o n : ℕ} (h : ∀ k, o ≤ k → l'[k]? = l[k]?) :
    Segments.readAt l' o n = Segments.readAt l o n := by
  have hdrop : l'.drop o = l.drop o := by
    apply List.ext_getElem?
    intro k
    rw [List.getElem?_drop, List.getElem?_drop]
    exact h _ (Nat.le_add_right _ _)
  rw [Segments.readAt, Segments.readAt, hdrop]

/-- **The entries hold** where nothing covered is changed. -/
theorem entriesHold_of_uncovered (hp : Packs fault files header F)
    (hfit : 512 + packedSize files < 2 ^ 32) (hknown : ChecksumsKnown fault files)
    (hkept : ∀ k, Covered header.listed.length k → F'[k]? = F[k]?) : EntriesHold F' := by
  intro e he
  have hbytes : MkkimgHeader.ofBytes F = header := by
    rw [hp.image_eq, MkkimgHeader.ofBytes_bytes]
  have hword : ∀ o, (∀ k, o ≤ k → k < o + 4 → Covered header.listed.length k) →
      uint32At F' o = uint32At F o :=
    fun o ho => uint32At_congr fun k hk hk' => hkept k (ho k hk hk')
  -- the entry in the same place of the image that was packed
  obtain ⟨i, hi⟩ := List.mem_iff_getElem?.1 he
  obtain ⟨hcount, hsix, rfl⟩ := getElem?_listed_ofBytes.1 hi
  obtain ⟨e, hi⟩ : ∃ e, MkkimgFileInfo.ofBytes (F.drop (32 + 80 * i)) = e := ⟨_, rfl⟩
  have hentry : header.listed[i]? = some e := by
    rw [← hbytes]
    refine getElem?_listed_ofBytes.2 ⟨?_, hsix, hi⟩
    rwa [← hword 8 fun k _ hk => Or.inl (by omega)]
  have hlisted : i < header.listed.length := (List.getElem?_eq_some_iff.1 hentry).1
  have hmem := List.mem_of_getElem? hentry
  have hfield : ∀ o, 68 ≤ o → o + 4 ≤ 80 →
      uint32At (F'.drop (32 + 80 * i)) o = uint32At (F.drop (32 + 80 * i)) o := by
    intro o hlow hhigh
    rw [uint32At_drop, uint32At_drop]
    exact hword _ fun k hk hk' => Or.inr (Or.inr ⟨i, hlisted, by omega, by omega⟩)
  have hoffset := hfield 68 (by decide) (by decide)
  have hsize := hfield 72 (by decide) (by decide)
  have hsum := hfield 76 (by decide) (by decide)
  have hbehind : mkkimgHeaderSize ≤ e.offset.toNat := by
    have hext := List.mem_map_of_mem (f := fun e : MkkimgFileInfo =>
      (e.offset.toNat, e.size.toNat)) hmem
    rw [hp.extents hfit] at hext
    exact le_of_mem_extents _ hext
  obtain ⟨data, hread, hcrc⟩ := (hp.holds_iff hfit).2 hknown e hmem
  refine ⟨data, ?_, ?_⟩
  · simp only [MkkimgFileInfo.ofBytes, hoffset, hsize]
    rw [← hi] at hread hbehind
    rw [← hread]
    exact readAt_congr fun k hk => hkept k (Or.inr (Or.inl (hbehind.trans hk)))
  · rw [hcrc, ← hi]
    exact hsum.symm

/-- **Such a change passes**, as the timestamp's, a name's or a
type's. -/
theorem headerChange_passes_of_uncovered
    (h : mkkimg fault src now platform dirname = (0, some F)) (hchange : HeaderChanged F F')
    (hp : Packs fault files header F) (hfit : 512 + packedSize files < 2 ^ 32)
    (hknown : ChecksumsKnown fault files)
    (hkept : ∀ k, Covered header.listed.length k → F'[k]? = F[k]?) :
    ∃ host disk, (umkkimg host [ascii "-v"] F' disk).1 = 0 :=
  (headerChange_passes_iff h hchange).2
    ⟨Or.inl fun k hk => hkept k (Or.inl hk), entriesHold_of_uncovered hp hfit hknown hkept⟩

end Verify

/-! ## Bytes of one image -/

section OneByte

variable {F : List UInt8} {k : ℕ}

/-- An image with the byte at `k` moved on. -/
def moved (F : List UInt8) (k : ℕ) : List UInt8 := F.set k (F.getD k 0 + 1)

theorem getElem?_moved_of_ne {j : ℕ} (h : j ≠ k) : (moved F k)[j]? = F[j]? :=
  List.getElem?_set_ne h.symm

theorem getElem?_moved_self (h : k < F.length) : (moved F k)[k]? ≠ F[k]? := by
  rw [moved, List.getElem?_set_self h, List.getElem?_eq_getElem h, List.getD_eq_getElem _ _ h]
  intro heq
  have hone : F[k] + 1 = F[k] + 0 := by
    rw [Option.some.inj heq, UInt8.add_zero]
  exact absurd (UInt8.add_right_inj _ |>.1 hone) (by decide)

theorem headerChanged_moved (hk : k < mkkimgHeaderSize) (hlong : k < F.length) :
    HeaderChanged F (moved F k) where
  length := List.length_set
  changed h := getElem?_moved_self hlong (by rw [h])
  few := ⟨k, k, hk, hk, fun _ h _ => getElem?_moved_of_ne h⟩

/-- An image with two bytes of its total size changed. -/
def cancelled (F : List UInt8) : List UInt8 :=
  (F.set 12 (F.getD 12 0 ^^^ 0xFC)).set 14 (F.getD 14 0 ^^^ 0x41)

end OneByte

/-- A byte of the total size shows. -/
theorem headerChange_rejected_totalSize : ∃ F,
    mkkimg (fun _ => false) (rootfsDir [1, 2, 3]) 0 (ascii "am62x") (ascii "images") =
      (0, some F) ∧
    HeaderChanged F (moved F 12) ∧
    ∀ host disk, (umkkimg host [ascii "-v"] (moved F 12) disk).1 ≠ 0 := by
  obtain ⟨F, h⟩ := mkkimg_rootfsDir [1, 2, 3]
  obtain ⟨header, hp⟩ := mkkimg_eq_zero h
  have hlong : 12 < F.length := by
    rw [hp.length_image]
    omega
  have hchange := headerChanged_moved (by decide) hlong
  have hshows : ∃ k < 24, (moved F 12)[k]? ≠ F[k]? := ⟨12, by decide, getElem?_moved_self hlong⟩
  refine ⟨F, h, hchange, (headerChange_rejected_iff h hchange hshows).2 ?_⟩
  rintro ⟨⟨i, j, -, hfar, -, hi, hj, -⟩, -⟩
  have hi : i = 12 := by_contra fun hne => hi (getElem?_moved_of_ne hne)
  have hj : j = 12 := by_contra fun hne => hj (getElem?_moved_of_ne hne)
  omega

/-- Two bytes of the total size cancel. -/
theorem not_headerChange_rejected_cancelled : ¬ ∀ (fault : MkkimgStep → Bool) (src : PackDir)
    (now : UInt32) (platform dirname F F' : List UInt8),
    mkkimg fault src now platform dirname = (0, some F) → HeaderChanged F F' →
      ∀ host disk, (umkkimg host [ascii "-v"] F' disk).1 ≠ 0 := by
  intro hall
  obtain ⟨F, h⟩ := mkkimg_rootfsDir [1, 2, 3]
  have hrun : ∀ r, mkkimg (fun _ => false) (rootfsDir [1, 2, 3]) 0 (ascii "am62x")
      (ascii "images") = r →
        (cancelled (r.2.getD []))[12]? ≠ (r.2.getD [])[12]? ∧
          (umkkimg working [ascii "-v"] (cancelled (r.2.getD [])) fun _ => none).1 = 0 := by
    rintro _ rfl
    decide +kernel
  obtain ⟨hne, hpass⟩ := hrun _ h
  have hchange : HeaderChanged F (cancelled F) := by
    refine ⟨by simp [cancelled], fun heq => hne (congrArg (·[12]?) heq), 12, 14, by decide,
      by decide, ?_⟩
    intro k h12 h14
    rw [cancelled, List.getElem?_set_ne h14.symm, List.getElem?_set_ne h12.symm]
  exact hall _ _ _ _ _ _ _ h hchange working (fun _ => none) hpass

end Tools

end ObcSdk
