import ObcSdk.Lib.Segments
import ObcSdk.Lib.LittleEndian
import ObcSdk.Tools.Sign
/-!
# The factory image's header

What `mkkimg` and `umkkimg` share (`mkkimg.h`, `crc.c`): the 512 bytes
before an image's files, packed structures in the host's little-endian
order, and the two checksums.
-/

namespace ObcSdk

namespace Tools

/-- `MKKIMG_MAGIC`. -/
def mkkimgMagic : UInt32 := 0x474D494B

/-- `MKKIMG_HEADER_SIZE`. -/
abbrev mkkimgHeaderSize : ℕ := 512

/-- `MKKIMG_FILENAME_LEN`. -/
abbrev mkkimgFilenameLen : ℕ := 64

/-- `MKKIMG_MAX_FILES`. -/
abbrev mkkimgMaxFiles : ℕ := 6

/-- The bytes of a text. -/
def ascii (s : String) : List UInt8 := s.toList.map fun c => UInt8.ofNat c.toNat

/-! ## The structures -/

/-- `mkkimg_file_info_t`. -/
structure MkkimgFileInfo where
  filename : Vector UInt8 mkkimgFilenameLen
  fileType : UInt32
  offset : UInt32
  size : UInt32
  crc32 : UInt32
deriving DecidableEq

/-- `mkkimg_header_t`. -/
structure MkkimgHeader where
  magic : UInt32
  headerVersion : UInt32
  fileCount : UInt32
  totalSize : UInt32
  dataOffset : UInt32
  packageCrc16 : UInt32
  createTimestamp : UInt32
  reserved1 : UInt32
  files : Vector MkkimgFileInfo mkkimgMaxFiles
deriving DecidableEq

/-- The number in four bytes of a list. -/
def uint32At (l : List UInt8) (o : ℕ) : UInt32 := UInt32.ofNat (leNat ((l.drop o).take 4))

namespace MkkimgFileInfo

/-- An entry `memset` to zero. -/
def zero : MkkimgFileInfo := ⟨Vector.replicate 64 0, 0, 0, 0, 0⟩

/-- The entry's 80 bytes. -/
def bytes (e : MkkimgFileInfo) : List UInt8 :=
  e.filename.toList ++ leBytes 4 e.fileType.toNat ++ leBytes 4 e.offset.toNat ++
    leBytes 4 e.size.toNat ++ leBytes 4 e.crc32.toNat

/-- The entry at the start of a list of bytes. -/
def ofBytes (l : List UInt8) : MkkimgFileInfo where
  filename := Vector.ofFn fun i => l.getD i 0
  fileType := uint32At l 64
  offset := uint32At l 68
  size := uint32At l 72
  crc32 := uint32At l 76

/-- The file's name: what precedes its NUL. -/
def name (e : MkkimgFileInfo) : List UInt8 := e.filename.toList.takeWhile (· ≠ 0)

end MkkimgFileInfo

namespace MkkimgHeader

/-- The fields before `package_crc16`, which its checksum covers. -/
def checkedBytes (h : MkkimgHeader) : List UInt8 :=
  leBytes 4 h.magic.toNat ++ leBytes 4 h.headerVersion.toNat ++ leBytes 4 h.fileCount.toNat ++
    leBytes 4 h.totalSize.toNat ++ leBytes 4 h.dataOffset.toNat

/-- The header's 512 bytes. -/
def bytes (h : MkkimgHeader) : List UInt8 :=
  h.checkedBytes ++ leBytes 4 h.packageCrc16.toNat ++ leBytes 4 h.createTimestamp.toNat ++
    leBytes 4 h.reserved1.toNat ++ (h.files.toList.map (·.bytes)).flatten

/-- The header at the start of a list of bytes. -/
def ofBytes (l : List UInt8) : MkkimgHeader where
  magic := uint32At l 0
  headerVersion := uint32At l 4
  fileCount := uint32At l 8
  totalSize := uint32At l 12
  dataOffset := uint32At l 16
  packageCrc16 := uint32At l 20
  createTimestamp := uint32At l 24
  reserved1 := uint32At l 28
  files := Vector.ofFn fun i => MkkimgFileInfo.ofBytes (l.drop (32 + 80 * i))

/-- The entries in use: as many as the header counts, and at most six. -/
def listed (h : MkkimgHeader) : List MkkimgFileInfo := h.files.toList.take h.fileCount.toNat

end MkkimgHeader

/-! ## What is laid out is read back -/

section Layout

variable {l pre post : List UInt8} {ns : List UInt32} {e : MkkimgFileInfo} {h : MkkimgHeader}
  {o i : ℕ}

/-- Numbers of four bytes, one behind the other. -/
def uint32s (ns : List UInt32) : List UInt8 := (ns.map fun n => leBytes 4 n.toNat).flatten

@[simp] theorem length_uint32s : (uint32s ns).length = 4 * ns.length := by
  rw [uint32s, Segments.length_flatten (n := 4), List.length_map]
  intro bs hbs
  obtain ⟨n, -, rfl⟩ := List.mem_map.1 hbs
  exact length_leBytes

theorem uint32At_append : uint32At (pre ++ l) (pre.length + o) = uint32At l o := by
  rw [uint32At, ← List.drop_drop, List.drop_left, uint32At]

theorem uint32At_uint32s (hi : i < ns.length) :
    uint32At (uint32s ns ++ post) (4 * i) = ns.get ⟨i, hi⟩ := by
  have hsplit : uint32s ns ++ post = uint32s (ns.take i) ++
      (leBytes 4 (ns.get ⟨i, hi⟩).toNat ++ (uint32s (ns.drop (i + 1)) ++ post)) := by
    have hns : ns = ns.take i ++ ns.get ⟨i, hi⟩ :: ns.drop (i + 1) := by
      rw [List.get_eq_getElem, ← List.drop_eq_getElem_cons hi, List.take_append_drop]
    conv_lhs => rw [hns]
    simp only [uint32s, List.map_append, List.map_cons, List.flatten_append, List.flatten_cons,
      List.append_assoc]
  have hfour : 4 * i = (uint32s (ns.take i)).length + 0 := by
    rw [length_uint32s, List.length_take, Nat.min_eq_left hi.le, Nat.add_zero]
  rw [hsplit, hfour, uint32At_append, uint32At, List.drop_zero, List.take_left' length_leBytes,
    leNat_leBytes (UInt32.toNat_lt _), UInt32.ofNat_toNat]

namespace MkkimgFileInfo

theorem bytes_eq : e.bytes =
    e.filename.toList ++ uint32s [e.fileType, e.offset, e.size, e.crc32] := by
  simp [bytes, uint32s]

@[simp] theorem length_bytes : e.bytes.length = 80 := by
  rw [bytes_eq, List.length_append, length_uint32s, Vector.length_toList]
  rfl

/-- **An entry reads back as itself.** -/
theorem ofBytes_bytes : ofBytes (e.bytes ++ post) = e := by
  have hword : ∀ i (hi : i < 4), uint32At (e.bytes ++ post) (64 + 4 * i) =
      [e.fileType, e.offset, e.size, e.crc32].get ⟨i, hi⟩ := by
    intro i hi
    have hpre : 64 + 4 * i = e.filename.toList.length + 4 * i := by rw [Vector.length_toList]
    rw [bytes_eq, List.append_assoc, hpre, uint32At_append]
    exact uint32At_uint32s hi
  have hname : (Vector.ofFn fun i : Fin 64 => (e.bytes ++ post).getD i 0) = e.filename := by
    ext i hi
    rw [Vector.getElem_ofFn, bytes_eq, List.append_assoc, List.getD_eq_getElem?_getD,
      List.getElem?_append_left (by simpa using hi), Vector.getElem?_toList,
      Vector.getElem?_eq_getElem hi, Option.getD_some]
  have h0 := hword 0 (by decide)
  have h1 := hword 1 (by decide)
  have h2 := hword 2 (by decide)
  have h3 := hword 3 (by decide)
  cases e
  simp only [ofBytes, mk.injEq]
  exact ⟨hname, h0, h1, h2, h3⟩

end MkkimgFileInfo

namespace MkkimgHeader

theorem bytes_eq : h.bytes = uint32s [h.magic, h.headerVersion, h.fileCount, h.totalSize,
    h.dataOffset, h.packageCrc16, h.createTimestamp, h.reserved1] ++
      (h.files.toList.map (·.bytes)).flatten := by
  simp [bytes, checkedBytes, uint32s]

theorem length_of_mem_entries : ∀ bs ∈ h.files.toList.map (·.bytes), bs.length = 80 := by
  intro bs hbs
  obtain ⟨e, -, rfl⟩ := List.mem_map.1 hbs
  exact MkkimgFileInfo.length_bytes

theorem length_entries : ((h.files.toList.map (·.bytes)).flatten).length = 480 := by
  rw [Segments.length_flatten length_of_mem_entries, List.length_map, Vector.length_toList]
  rfl

@[simp] theorem length_bytes : h.bytes.length = mkkimgHeaderSize := by
  rw [bytes_eq, List.length_append, length_uint32s, length_entries]
  rfl

/-- An entry in use lies at its place in the header. -/
theorem drop_bytes (he : h.listed[i]? = some e) :
    ∃ rest, h.bytes.drop (32 + 80 * i) = e.bytes ++ rest := by
  have hlen : (uint32s [h.magic, h.headerVersion, h.fileCount, h.totalSize, h.dataOffset,
      h.packageCrc16, h.createTimestamp, h.reserved1]).length = 32 := length_uint32s
  have hget : h.files.toList[i]? = some e := by
    rw [listed, List.getElem?_take] at he
    split at he
    · exact he
    · cases he
  obtain ⟨hi, hentry⟩ := List.getElem?_eq_some_iff.1 hget
  rw [Vector.length_toList] at hi
  refine ⟨((h.files.toList.drop (i + 1)).map (·.bytes)).flatten, ?_⟩
  rw [bytes_eq, ← List.drop_drop, List.drop_left' hlen,
    Segments.drop_flatten length_of_mem_entries, ← List.map_drop,
    List.drop_eq_getElem_cons (by simpa using hi), hentry, List.map_cons, List.flatten_cons]

/-- **The header reads back as itself**, whatever is behind it. -/
theorem ofBytes_bytes : ofBytes (h.bytes ++ post) = h := by
  have hword : ∀ i (hi : i < 8), uint32At (h.bytes ++ post) (4 * i) =
      [h.magic, h.headerVersion, h.fileCount, h.totalSize, h.dataOffset, h.packageCrc16,
        h.createTimestamp, h.reserved1].get ⟨i, hi⟩ := by
    intro i hi
    rw [bytes_eq, List.append_assoc]
    exact uint32At_uint32s hi
  have hfiles : (Vector.ofFn fun i : Fin 6 =>
      MkkimgFileInfo.ofBytes ((h.bytes ++ post).drop (32 + 80 * i))) = h.files := by
    ext1 i hi
    have hlen : (uint32s [h.magic, h.headerVersion, h.fileCount, h.totalSize, h.dataOffset,
        h.packageCrc16, h.createTimestamp, h.reserved1]).length = 32 := length_uint32s
    rw [Vector.getElem_ofFn, bytes_eq, List.append_assoc, ← List.drop_drop, List.drop_left' hlen,
      List.drop_append_of_le_length (by rw [length_entries]; simp only; omega),
      Segments.drop_flatten length_of_mem_entries, ← List.map_drop,
      List.drop_eq_getElem_cons (by simpa using hi), List.map_cons, List.flatten_cons,
      List.append_assoc, MkkimgFileInfo.ofBytes_bytes, Vector.getElem_toList]
  -- the eight words, and behind them the entries
  have h0 := hword 0 (by decide)
  have h1 := hword 1 (by decide)
  have h2 := hword 2 (by decide)
  have h3 := hword 3 (by decide)
  have h4 := hword 4 (by decide)
  have h5 := hword 5 (by decide)
  have h6 := hword 6 (by decide)
  have h7 := hword 7 (by decide)
  cases h
  simp only [ofBytes, mk.injEq]
  exact ⟨h0, h1, h2, h3, h4, h5, h6, h7, hfiles⟩

end MkkimgHeader

end Layout

/-! ## The checksums -/

/-- `crc16_table` of `crc.c`. -/
def mkkimgCrc16Table : Array UInt16 :=
  #[
    0x0000, 0xC0C1, 0xC181, 0x0140, 0xC301, 0x03C0, 0x0280, 0xC241,
    0xC601, 0x06C0, 0x0780, 0xC741, 0x0500, 0xC5C1, 0xC481, 0x0440,
    0xCC01, 0x0CC0, 0x0D80, 0xCD41, 0x0F00, 0xCFC1, 0xCE81, 0x0E40,
    0x0A00, 0xCAC1, 0xCB81, 0x0B40, 0xC901, 0x09C0, 0x0880, 0xC841,
    0xD801, 0x18C0, 0x1980, 0xD941, 0x1B00, 0xDBC1, 0xDA81, 0x1A40,
    0x1E00, 0xDEC1, 0xDF81, 0x1F40, 0xDD01, 0x1DC0, 0x1C80, 0xDC41,
    0x1400, 0xD4C1, 0xD581, 0x1540, 0xD701, 0x17C0, 0x1680, 0xD641,
    0xD201, 0x12C0, 0x1380, 0xD341, 0x1100, 0xD1C1, 0xD081, 0x1040,
    0xF001, 0x30C0, 0x3180, 0xF141, 0x3300, 0xF3C1, 0xF281, 0x3240,
    0x3600, 0xF6C1, 0xF781, 0x3740, 0xF501, 0x35C0, 0x3480, 0xF441,
    0x3C00, 0xFCC1, 0xFD81, 0x3D40, 0xFF01, 0x3FC0, 0x3E80, 0xFE41,
    0xFA01, 0x3AC0, 0x3B80, 0xFB41, 0x3900, 0xF9C1, 0xF881, 0x3840,
    0x2800, 0xE8C1, 0xE981, 0x2940, 0xEB01, 0x2BC0, 0x2A80, 0xEA41,
    0xEE01, 0x2EC0, 0x2F80, 0xEF41, 0x2D00, 0xEDC1, 0xEC81, 0x2C40,
    0xE401, 0x24C0, 0x2580, 0xE541, 0x2700, 0xE7C1, 0xE681, 0x2640,
    0x2200, 0xE2C1, 0xE381, 0x2340, 0xE101, 0x21C0, 0x2080, 0xE041,
    0xA001, 0x60C0, 0x6180, 0xA141, 0x6300, 0xA3C1, 0xA281, 0x6240,
    0x6600, 0xA6C1, 0xA781, 0x6740, 0xA501, 0x65C0, 0x6480, 0xA441,
    0x6C00, 0xACC1, 0xAD81, 0x6D40, 0xAF01, 0x6FC0, 0x6E80, 0xAE41,
    0xAA01, 0x6AC0, 0x6B80, 0xAB41, 0x6900, 0xA9C1, 0xA881, 0x6840,
    0x7800, 0xB8C1, 0xB981, 0x7940, 0xBB01, 0x7BC0, 0x7A80, 0xBA41,
    0xBE01, 0x7EC0, 0x7F80, 0xBF41, 0x7D00, 0xBDC1, 0xBC81, 0x7C40,
    0xB401, 0x74C0, 0x7580, 0xB541, 0x7700, 0xB7C1, 0xB681, 0x7640,
    0x7200, 0xB2C1, 0xB381, 0x7340, 0xB101, 0x71C0, 0x7080, 0xB041,
    0x5000, 0x90C1, 0x9181, 0x5140, 0x9301, 0x53C0, 0x5280, 0x9241,
    0x9601, 0x56C0, 0x5780, 0x9741, 0x5500, 0x95C1, 0x9481, 0x5440,
    0x9C01, 0x5CC0, 0x5D80, 0x9D41, 0x5F00, 0x9FC1, 0x9E81, 0x5E40,
    0x5A00, 0x9AC1, 0x9B81, 0x5B40, 0x9901, 0x59C0, 0x5880, 0x9841,
    0x8801, 0x48C0, 0x4980, 0x8941, 0x4B00, 0x8BC1, 0x8A81, 0x4A40,
    0x4E00, 0x8EC1, 0x8F81, 0x4F40, 0x8D01, 0x4DC0, 0x4C80, 0x8C41,
    0x4400, 0x84C1, 0x8581, 0x4540, 0x8701, 0x47C0, 0x4680, 0x8641,
    0x8201, 0x42C0, 0x4380, 0x8341, 0x4100, 0x81C1, 0x8081, 0x4040]

/-- One turn of the loop of `crc16_ccitt`. The index is an `int` before it
is masked. -/
def crc16CcittTurn (crc : UInt16) (b : UInt8) : UInt16 :=
  let index := ((crc.toUInt32 ^^^ b.toUInt32) &&& 0xFF).toUInt8
  (crc >>> 8) ^^^ mkkimgCrc16Table.getD index.toNat 0

/-- `crc16_ccitt`. -/
def crc16Ccitt (data : List UInt8) : UInt16 := data.foldl crc16CcittTurn 0xFFFF

/-- A bit of the loop both programs have for their CRC32. -/
def crc32Bit (crc : UInt32) : UInt32 :=
  if crc &&& 1 ≠ 0 then (crc >>> 1) ^^^ 0xEDB88320 else crc >>> 1

/-- A byte of that loop. -/
def crc32Byte (crc : UInt32) (b : UInt8) : UInt32 :=
  (List.range 8).foldl (fun crc _ => crc32Bit crc) (crc ^^^ b.toUInt32)

/-- `crc32`. -/
def crc32 (data : List UInt8) : UInt32 := ~~~ (data.foldl crc32Byte 0xFFFFFFFF)

/-- **A turn of either loop** comes to the same: the tables agree, and so
do the two ways to the index. -/
theorem crc16CcittTurn_eq {crc : UInt16} {b : UInt8} : crc16CcittTurn crc b = crc16Turn crc b := by
  have hindex : ((crc.toUInt32 ^^^ b.toUInt32) &&& 0xFF).toUInt8 =
      (crc ^^^ b.toUInt16).toUInt8 := by
    have hmask : ∀ x : UInt8, x &&& (0xFF : UInt32).toUInt8 = x := fun x => UInt8.and_neg_one
    rw [UInt32.toUInt8_and, hmask, UInt32.toUInt8_xor, UInt16.toUInt8_toUInt32,
      UInt8.toUInt8_toUInt32, UInt16.toUInt8_xor, UInt8.toUInt8_toUInt16]
  rw [crc16CcittTurn, hindex]
  rfl

/-- **The two tools have one CRC16.** -/
theorem crc16Ccitt_eq {data : List UInt8} : crc16Ccitt data = calculateCrc16 data := by
  have hturn : crc16CcittTurn = crc16Turn := by
    funext crc b
    exact crc16CcittTurn_eq
  rw [crc16Ccitt, hturn, calculateCrc16]

end Tools

end ObcSdk
