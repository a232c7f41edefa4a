import ObcSdk.Lib.LittleEndian
import ObcSdk.Boot.World
/-!
# The OBC package header

The 512 bytes the signer puts before a payload (`obc_pack.h`), read out
of memory and laid into it, and the check of a package against them
(`obc_verify_pack_header`). The fields are at the offsets of the packed
structure, in the byte order of both the host and the board.
-/

namespace ObcSdk

namespace Boot

/-- `OBC_MAGIC`, `"OBCFS"` without its NUL. -/
def obcMagic : List UInt8 := [0x4F, 0x42, 0x43, 0x46, 0x53]

/-- `OBC_HEADER_SIZE`. -/
abbrev obcHeaderSize : ℕ := 512

/-- `OBC_PACK_HEAD_T`. -/
structure ObcPackHead where
  magic : Vector UInt8 6
  fileSize : UInt32
  crc16 : UInt16
  headWriteFlag : UInt16
  packFile : Vector UInt8 64
  fileName : Vector UInt8 64

namespace ObcPackHead

/-- The header at an address. -/
def ofStore (m : Store UInt8) (a : ℕ) : ObcPackHead where
  magic := Vector.ofFn fun i => m (a + i)
  fileSize := UInt32.ofNat (leNat (Store.read m (a + 6) 4))
  crc16 := UInt16.ofNat (leNat (Store.read m (a + 10) 2))
  headWriteFlag := UInt16.ofNat (leNat (Store.read m (a + 12) 2))
  packFile := Vector.ofFn fun i => m (a + 14 + i)
  fileName := Vector.ofFn fun i => m (a + 78 + i)

/-- The union's 512 bytes; those past the fields are zero. -/
def bytes (h : ObcPackHead) : List UInt8 :=
  h.magic.toList ++ leBytes 4 h.fileSize.toNat ++ leBytes 2 h.crc16.toNat ++
    leBytes 2 h.headWriteFlag.toNat ++ h.packFile.toList ++ h.fileName.toList ++
    List.replicate 370 0

/-- `strncmp (header->magic, OBC_MAGIC, OBC_MAGIC_LEN - 1) == 0`. -/
def HasMagic (h : ObcPackHead) : Prop := h.magic.toList.take 5 = obcMagic

instance (h : ObcPackHead) : Decidable h.HasMagic := inferInstanceAs (Decidable (_ = _))

@[simp] theorem length_bytes (h : ObcPackHead) : h.bytes.length = obcHeaderSize := by
  simp [bytes, -List.reduceReplicate]

/-- The magic's first byte. -/
theorem HasMagic.first {m : Store UInt8} {a : ℕ} (h : (ofStore m a).HasMagic) : m a = 0x4F := by
  have := congrArg (fun l => l[0]?) h
  simpa [ofStore, obcMagic] using this

/-- A header depends on the store only at its 142 bytes. -/
theorem ofStore_congr {m m' : Store UInt8} {a b : ℕ} (h : ∀ i, i < 142 → m (a + i) = m' (b + i)) :
    ofStore m a = ofStore m' b := by
  have hread : ∀ o n, o + n ≤ 142 → Store.read m (a + o) n = Store.read m' (b + o) n :=
    fun o n ho => Store.read_congr fun i hi => by
      rw [Nat.add_assoc, Nat.add_assoc]; exact h _ (by omega)
  have hvec : ∀ o n, o + n ≤ 142 → ∀ i : Fin n, m (a + o + i) = m' (b + o + i) :=
    fun o n ho i => by rw [Nat.add_assoc, Nat.add_assoc]; exact h _ (by omega)
  simp only [ofStore, mk.injEq]
  refine ⟨?_, by rw [hread 6 4 (by decide)], by rw [hread 10 2 (by decide)],
    by rw [hread 12 2 (by decide)], ?_, ?_⟩
  · exact congrArg _ (funext fun i => h _ (by omega))
  · exact congrArg _ (funext (hvec 14 64 (by decide)))
  · exact congrArg _ (funext (hvec 78 64 (by decide)))

/-- **Round trip.** A header laid into memory reads back as itself. -/
theorem ofStore_of_bytes {m : Store UInt8} {a : ℕ} {h : ObcPackHead}
    (hm : Store.read m a obcHeaderSize = h.bytes) : ofStore m a = h := by
  -- a field is the run of the bytes between what precedes and what follows it
  have field : ∀ (pre x post : List UInt8), h.bytes = pre ++ x ++ post →
      Store.read m (a + pre.length) x.length = x := by
    intro pre x post hb
    have hlen : pre.length + x.length ≤ obcHeaderSize := by
      rw [← length_bytes h, hb]; simp
    rw [← Store.read_drop_take (n := obcHeaderSize) hlen, hm, hb, List.append_assoc,
      List.drop_left, List.take_left]
  have vec : ∀ {n : ℕ} (v : Vector UInt8 n) (o : ℕ), Store.read m (a + o) n = v.toList →
      (Vector.ofFn fun i : Fin n => m (a + o + i)) = v := by
    intro n v o hv
    ext i hi
    have := congrArg (fun l => l[i]?) hv
    simp only [Store.getElem?_read hi, Vector.getElem?_toList, Vector.getElem?_eq_getElem hi,
      Option.some.injEq] at this
    simp [this]
  have h0 := field [] h.magic.toList _
    (by simp only [bytes, List.append_assoc, List.nil_append]; rfl)
  have h6 := field h.magic.toList (leBytes 4 h.fileSize.toNat) _
    (by simp only [bytes, List.append_assoc]; rfl)
  have h10 := field (h.magic.toList ++ leBytes 4 h.fileSize.toNat) (leBytes 2 h.crc16.toNat) _
    (by simp only [bytes, List.append_assoc]; rfl)
  have h12 := field (h.magic.toList ++ leBytes 4 h.fileSize.toNat ++ leBytes 2 h.crc16.toNat)
    (leBytes 2 h.headWriteFlag.toNat) _ (by simp only [bytes, List.append_assoc]; rfl)
  have h14 := field (h.magic.toList ++ leBytes 4 h.fileSize.toNat ++ leBytes 2 h.crc16.toNat ++
    leBytes 2 h.headWriteFlag.toNat) h.packFile.toList _
    (by simp only [bytes, List.append_assoc]; rfl)
  have h78 := field (h.magic.toList ++ leBytes 4 h.fileSize.toNat ++ leBytes 2 h.crc16.toNat ++
    leBytes 2 h.headWriteFlag.toNat ++ h.packFile.toList) h.fileName.toList _
    (by simp only [bytes, List.append_assoc]; rfl)
  simp only [List.length_append, length_leBytes, Vector.length_toList, List.length_nil,
    Nat.reduceAdd] at h0 h6 h10 h12 h14 h78
  have n4 := leNat_leBytes (k := 4) h.fileSize.toNat_lt
  have n2 := leNat_leBytes (k := 2) h.crc16.toNat_lt
  have n2' := leNat_leBytes (k := 2) h.headWriteFlag.toNat_lt
  cases h
  simp only [ofStore, mk.injEq]
  refine ⟨vec _ 0 h0, ?_, ?_, ?_, vec _ 14 h14, vec _ 78 h78⟩
  · rw [h6, n4, UInt32.ofNat_toNat]
  · rw [h10, n2, UInt16.ofNat_toNat]
  · rw [h12, n2', UInt16.ofNat_toNat]

end ObcPackHead

/-- Behind the header of a file in memory lies its payload. -/
theorem read_behind_head {m : Store UInt8} {fileaddr n : ℕ} {f : List UInt8}
    (hmem : Store.read m fileaddr f.length = f)
    (hsize : f.length = obcHeaderSize + n) :
    Store.read m (fileaddr + obcHeaderSize) n = f.drop obcHeaderSize := by
  have hdrop : (Store.read m fileaddr f.length).drop obcHeaderSize =
      Store.read m (fileaddr + obcHeaderSize) (f.length - obcHeaderSize) :=
    Store.drop_read (by omega)
  rw [hmem] at hdrop
  rw [hdrop, hsize, Nat.add_sub_cancel_left]

/-- `obc_calculate_crc16`. -/
def obcCalculateCrc16 (U : UBoot) (data : List UInt8) : UInt16 := U.crc16 0xFFFF data

/-- `obc_verify_pack_header`: `0`, `-1` for a wrong magic, `-2` for a
wrong CRC. -/
def obcVerifyPackHeader (U : UBoot) (m : Store UInt8) (header data : ℕ) : ℤ :=
  let h := ObcPackHead.ofStore m header
  if ¬ h.HasMagic then -1
  else if obcCalculateCrc16 U (Store.read m data h.fileSize.toNat) ≠ h.crc16 then -2
  else 0

theorem obcVerifyPackHeader_eq_zero {U : UBoot} {m : Store UInt8} {header data : ℕ} :
    obcVerifyPackHeader U m header data = 0 ↔
      (ObcPackHead.ofStore m header).HasMagic ∧
        obcCalculateCrc16 U (Store.read m data (ObcPackHead.ofStore m header).fileSize.toNat) =
          (ObcPackHead.ofStore m header).crc16 := by
  simp only [obcVerifyPackHeader]
  split
  · simp [*]
  · split <;> simp_all

end Boot

end ObcSdk
