import ObcSdk.Lib.CrcReflect
import ObcSdk.Properties.KimgRoundTrip
/-!
# A file's CRC32

The packer reads the file in parts, and carries its register from one to
the next; the unpacker has the whole file at once. Both hold the register
of the standard CRC-32, whose division they do reflected.
-/

namespace ObcSdk

namespace Tools

/-- How a file may be read: in parts that are not empty, each no longer
than the buffer. -/
structure FileReads (content : List UInt8) where
  reads : List (List UInt8)
  ne_nil : ∀ buffer ∈ reads, buffer ≠ []
  length_le : ∀ buffer ∈ reads, buffer.length ≤ readBufferSize
  flatten_eq : reads.flatten = content

/-- The CRC-32 of the standards: each byte's bits are divided by the
polynomial `0x04C11DB7` from the least significant one on, in a register
that starts as all ones, and the remainder is reflected and inverted. -/
def standardCrc32 (content : List UInt8) : BitVec 32 :=
  (Crc.straightFeed 0x04C11DB7#32 0xFFFFFFFF#32 (Crc.bits content)).reverse ^^^ 0xFFFFFFFF#32

section Crc32

variable {content : List UInt8} {reads : List (List UInt8)} {crc : UInt32} {b : UInt8}

/-- **Part after part** is the file at once. -/
theorem crc32ReadLoop_eq (h : ∀ buffer ∈ reads, buffer ≠ []) :
    crc32ReadLoop crc reads = reads.flatten.foldl crc32Byte crc := by
  induction reads generalizing crc with
  | nil => rfl
  | cons buffer reads ih =>
    have hpos : 0 < buffer.length := List.length_pos_iff.2 (h buffer List.mem_cons_self)
    rw [crc32ReadLoop, if_pos hpos, ih fun buffer hb => h buffer (List.mem_cons_of_mem _ hb),
      List.flatten_cons, List.foldl_append]

theorem toBitVec_crc32Bit : (crc32Bit crc).toBitVec = Crc.bitStep 0xEDB88320#32 crc.toBitVec := by
  have hlow : crc &&& 1 ≠ 0 ↔ crc.toBitVec.getLsbD 0 = true := by
    rw [Ne, ← UInt32.toBitVec_inj, UInt32.toBitVec_and, UInt32.toBitVec_one, UInt32.toBitVec_zero,
      BitVec.and_one_eq_setWidth_ofBool_getLsbD]
    cases crc.toBitVec.getLsbD 0 <;> decide
  rw [crc32Bit, Crc.bitStep]
  by_cases h : crc &&& 1 ≠ 0
  · rw [if_pos h, if_pos (hlow.1 h)]
    rfl
  · rw [if_neg h, if_neg (mt hlow.2 h)]
    rfl

/-- **A byte** moves the reflected register. -/
theorem toBitVec_crc32Byte :
    (crc32Byte crc b).toBitVec = Crc.byteStep 0xEDB88320#32 crc.toBitVec b := by
  have hbits : crc32Byte crc b = crc32Bit (crc32Bit (crc32Bit (crc32Bit (crc32Bit (crc32Bit
      (crc32Bit (crc32Bit (crc ^^^ b.toUInt32)))))))) := rfl
  rw [hbits]
  simp only [toBitVec_crc32Bit]
  rfl

theorem toBitVec_foldl_crc32Byte :
    (content.foldl crc32Byte crc).toBitVec = Crc.run 0xEDB88320#32 crc.toBitVec content := by
  induction content generalizing crc with
  | nil => rfl
  | cons b content ih => rw [List.foldl_cons, ih, toBitVec_crc32Byte, Crc.run_cons]

/-- **The unpacker's CRC32** is the reflected register's, inverted. -/
theorem toBitVec_crc32 :
    (crc32 content).toBitVec =
      Crc.run 0xEDB88320#32 0xFFFFFFFF#32 content ^^^ 0xFFFFFFFF#32 := by
  have hones : (0xFFFFFFFF : UInt32).toBitVec = 0xFFFFFFFF#32 := rfl
  rw [crc32, UInt32.toBitVec_not, toBitVec_foldl_crc32Byte, hones]
  exact BitVec.xor_allOnes.symm

theorem calculateFileCrc32Reads_eq (r : FileReads content) :
    calculateFileCrc32Reads (some r.reads) = crc32 content := by
  rw [calculateFileCrc32Reads, crc32ReadLoop_eq r.ne_nil, r.flatten_eq, crc32]

/-- **A file's CRC32**, read in whatever parts, is the unpacker's of the
whole, and that of the standards. -/
theorem fileCrc32_eq (content : List UInt8) (r : FileReads content) :
    calculateFileCrc32Reads (some r.reads) = crc32 content ∧
      (crc32 content).toBitVec =
        Crc.run 0xEDB88320#32 0xFFFFFFFF#32 content ^^^ 0xFFFFFFFF#32 ∧
      (crc32 content).toBitVec = standardCrc32 content := by
  refine ⟨calculateFileCrc32Reads_eq r, toBitVec_crc32, ?_⟩
  have hfeed := Crc.reverse_feed 0xEDB88320#32 0xFFFFFFFF#32 (Crc.bits content) (by decide)
  have hpoly : (0xEDB88320#32).reverse = 0x04C11DB7#32 := by decide +kernel
  have hones : (0xFFFFFFFF#32).reverse = 0xFFFFFFFF#32 := by decide +kernel
  rw [hpoly, hones] at hfeed
  rw [toBitVec_crc32, standardCrc32, ← hfeed, BitVec.reverse_reverse_eq,
    Crc.run_eq_feed (by decide)]

/-- A file read with the buffer filled each time. -/
def FileReads.full (content : List UInt8) : FileReads content where
  reads := Segments.pieces readBufferSize content
  ne_nil := fun _ h => (Segments.of_mem_piecesUpTo (by decide) h).1
  length_le := fun _ h => (Segments.of_mem_piecesUpTo (by decide) h).2
  flatten_eq := Segments.flatten_pieces (by decide)

/-- Read so, it is what the packer is taken to compute. -/
theorem calculateFileCrc32_eq_reads : calculateFileCrc32 true content =
    calculateFileCrc32Reads (some (FileReads.full content).reads) := by
  rw [calculateFileCrc32Reads_eq, calculateFileCrc32_eq, if_pos rfl]

end Crc32

end Tools

end ObcSdk
