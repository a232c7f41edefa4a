import ObcSdk.Tools.Kimg
/-!
# The image packer

`mkkimg.c`: the supported files of a directory laid behind a header that
says where each is. The files stay as they are while it runs. A call of
the host's that the program tests may fail; `fwrite` that does not has
stored its bytes.
-/

namespace ObcSdk

namespace Tools

/-! ## Names -/

/-- `isalnum`, in the C locale. -/
def isalnum (c : UInt8) : Bool :=
  (0x30 ≤ c && c ≤ 0x39) || (0x41 ≤ c && c ≤ 0x5A) || (0x61 ≤ c && c ≤ 0x7A)

/-- `validate_platform_name`. -/
def validatePlatformName (platform : List UInt8) : Bool :=
  if platform = [] ∨ mkkimgFilenameLen ≤ platform.length + 1 + 6 + 4 then false
  else platform.all fun c => isalnum c || c = 0x2D || c = 0x5F || c = 0x2E

/-- `image_types`. -/
def imageTypes : List (List UInt8 × UInt32) :=
  [(ascii "loader", 1), (ascii "teeos", 3), (ascii "fdt", 4), (ascii "uboot", 5),
    (ascii "kernel", 6), (ascii "rootfs", 7)]

/-- `"%s-%s.bin"`. -/
def imageName (platform partition : List UInt8) : List UInt8 :=
  platform ++ [0x2D] ++ partition ++ ascii ".bin"

/-- The loop of `get_file_type`. -/
def findImageType (filename platform : List UInt8) : List (List UInt8 × UInt32) → UInt32
  | [] => 0
  | (partition, fileType) :: types =>
    if mkkimgFilenameLen ≤ (imageName platform partition).length then 0
    else if filename = imageName platform partition then fileType
    else findImageType filename platform types

/-- `get_file_type`; `0` is `UPDATEX_FILE_TYPE_NONE`. -/
def getFileType (filename platform : List UInt8) : UInt32 :=
  if validatePlatformName platform = false then 0
  else findImageType filename platform imageTypes

/-- `is_supported_input_name`. -/
def isSupportedInputName (filename platform : List UInt8) : Bool :=
  getFileType filename platform ≠ 0

/-! ## The directory -/

/-- The directory to pack, and what paths lead to. -/
structure PackDir where
  /-- The names `readdir` gives, in its order. -/
  entries : List (List UInt8)
  nodup : entries.Nodup
  /-- The content of the regular file at a path. -/
  file : List UInt8 → Option (List UInt8)

/-- The host's calls that the program tests. -/
inductive MkkimgStep where
  | opendir
  /-- `stat` in `get_file_size`. -/
  | stat (i : ℕ)
  /-- `fopen` in `calculate_file_crc32`. -/
  | crcOpen (i : ℕ)
  | openOutput
  | writeHeader
  | malloc
  | openInput (i : ℕ)
  | writeData (i : ℕ)

/-- The path of a directory's entry in a buffer of 1024 characters. -/
def filePath (dirname name : List UInt8) : List UInt8 := (dirname ++ [0x2F] ++ name).take 1023

/-- The loop of `scan_directory`; `none` for too many files. -/
def scanEntries (src : PackDir) (dirname platform : List UInt8) :
    List (List UInt8) → List (List UInt8) → Option (List (List UInt8))
  | [], files => some files
  | name :: entries, files =>
    if name = ascii "." ∨ name = ascii ".." then
      scanEntries src dirname platform entries files
    else if isSupportedInputName name platform = false then
      scanEntries src dirname platform entries files
    else match src.file (filePath dirname name) with
      | none => scanEntries src dirname platform entries files
      | some _ =>
        if mkkimgMaxFiles ≤ files.length then none
        else scanEntries src dirname platform entries (files ++ [filePath dirname name])

/-- `scan_directory`: the paths of the files found. -/
def scanDirectory (fault : MkkimgStep → Bool) (src : PackDir) (dirname platform : List UInt8) :
    Option (List (List UInt8)) :=
  if fault .opendir then none
  else match scanEntries src dirname platform src.entries [] with
    | none => none
    | some [] => none
    | some files => some files

/-! ## The image -/

/-- `READ_BUFFER_SIZE`. -/
abbrev readBufferSize : ℕ := 64 * 1024

/-- `calculate_file_crc32`, which is `0` for a file that cannot be
opened. -/
def calculateFileCrc32 (opened : Bool) (content : List UInt8) : UInt32 :=
  if opened then ~~~ ((Segments.pieces readBufferSize content).foldl
    (fun crc buffer => buffer.foldl crc32Byte crc) 0xFFFFFFFF)
  else 0

/-- The loop of `calculate_file_crc32`, over what its calls of `fread`
return; it ends with the first that returns nothing. -/
def crc32ReadLoop : UInt32 → List (List UInt8) → UInt32
  | crc, [] => crc
  | crc, buffer :: reads =>
    if 0 < buffer.length then crc32ReadLoop (buffer.foldl crc32Byte crc) reads else crc

/-- `calculate_file_crc32`, whatever the calls of `fread` return; none
where the file cannot be opened. -/
def calculateFileCrc32Reads : Option (List (List UInt8)) → UInt32
  | none => 0
  | some reads => ~~~ crc32ReadLoop 0xFFFFFFFF reads

/-- The loop of `main` that fills in the entries, with the offset it comes
to; `none` for its `return 1`. -/
def fillEntries (fault : MkkimgStep → Bool) (src : PackDir) (platform : List UInt8) :
    ℕ → UInt32 → List (List UInt8) → Option (List MkkimgFileInfo × UInt32)
  | _, currentOffset, [] => some ([], currentOffset)
  | i, currentOffset, path :: files =>
    if fault (.stat i) then none
    else match src.file path with
      | none => none
      | some content =>
        let base := baseName path
        let info : MkkimgFileInfo :=
          { filename := nameField base
            fileType := getFileType base platform
            offset := currentOffset
            size := UInt32.ofNat content.length
            crc32 := calculateFileCrc32 (!fault (.crcOpen i)) content }
        match fillEntries fault src platform (i + 1)
            (UInt32.ofNat (currentOffset.toNat + content.length)) files with
        | none => none
        | some (infos, offset) => some (info :: infos, offset)

/-- The loop of `main` that writes the files behind what is written. -/
def copyFiles (fault : MkkimgStep → Bool) (src : PackDir) :
    ℕ → List UInt8 → List (List UInt8) → Option (List UInt8)
  | _, out, [] => some out
  | i, out, path :: files =>
    if fault (.openInput i) then none
    else match src.file path with
      | none => none
      | some content =>
        if fault (.writeData i) then none
        else copyFiles fault src (i + 1)
          ((Segments.pieces readBufferSize content).foldl (· ++ ·) out) files

/-- The header `main` fills in. -/
def packHeader (now : UInt32) (infos : List MkkimgFileInfo) (totalSize : UInt32) :
    MkkimgHeader :=
  let header : MkkimgHeader :=
    { magic := mkkimgMagic
      headerVersion := 0x00010000
      fileCount := UInt32.ofNat infos.length
      totalSize := totalSize
      dataOffset := 512
      packageCrc16 := 0
      createTimestamp := now
      reserved1 := 0
      files := Vector.ofFn fun i => infos.getD i .zero }
  { header with packageCrc16 := (crc16Ccitt header.checkedBytes).toUInt32 }

/-- `main`: its exit status, and the image where it leaves one. -/
def mkkimg (fault : MkkimgStep → Bool) (src : PackDir) (now : UInt32)
    (platform packDir : List UInt8) : ℕ × Option (List UInt8) :=
  if validatePlatformName platform = false then (1, none)
  else match scanDirectory fault src packDir platform with
    | none => (1, none)
    | some files =>
      match fillEntries fault src platform 0 512 files with
      | none => (1, none)
      | some (infos, totalSize) =>
        let header := packHeader now infos totalSize
        if fault .openOutput then (1, none)
        else if fault .writeHeader then (1, none)
        else if fault .malloc then (1, none)
        else match copyFiles fault src 0 header.bytes files with
          | none => (1, none)
          | some image => (0, some image)

/-! ## What is packed -/

/-- The name an entry of the image gets for a path: what its field keeps
of the path's last component. -/
def recordedName (path : List UInt8) : List UInt8 :=
  (nameField (baseName path)).toList.takeWhile (· ≠ 0)

/-- The paths the scan takes for some entries, with the files they lead
to. -/
def PackDir.reach (src : PackDir) (dirname platform : List UInt8) (entries : List (List UInt8)) :
    List (List UInt8 × List UInt8) :=
  (entries.filter fun name => isSupportedInputName name platform).filterMap fun name =>
    (src.file (filePath dirname name)).map fun content => (filePath dirname name, content)

/-- The files of a run, by the names recorded. -/
def PackDir.packedFiles (src : PackDir) (dirname platform : List UInt8) :
    List (List UInt8 × List UInt8) :=
  (src.reach dirname platform src.entries).map fun f => (recordedName f.1, f.2)

section Pack

variable {fault : MkkimgStep → Bool} {src : PackDir} {now total : UInt32}
  {platform dirname name path content out image : List UInt8}
  {entries files found : List (List UInt8)} {loaded : List (List UInt8 × List UInt8)}
  {infos : List MkkimgFileInfo} {i : ℕ} {offset : UInt32}

theorem file_of_mem_reach (h : (path, content) ∈ src.reach dirname platform entries) :
    src.file path = some content := by
  obtain ⟨name, -, hname⟩ := List.mem_filterMap.1 h
  obtain ⟨data, hdata, heq⟩ := Option.map_eq_some_iff.1 hname
  obtain ⟨rfl, rfl⟩ := Prod.mk.inj heq
  exact hdata

/-- **A supported name** is the platform's and one partition's, and fits
its field. -/
theorem eq_imageName_of_supported (h : isSupportedInputName name platform = true) :
    ∃ partition ∈ imageTypes.map Prod.fst, name = imageName platform partition ∧
      name.length < mkkimgFilenameLen := by
  have hloop : ∀ types, findImageType name platform types ≠ 0 →
      ∃ partition ∈ types.map Prod.fst, name = imageName platform partition ∧
        name.length < mkkimgFilenameLen := by
    intro types
    induction types with
    | nil => exact fun h => absurd rfl h
    | cons entry types ih =>
      intro h
      rw [findImageType] at h
      split at h
      · exact absurd rfl h
      rename_i hlen
      split at h
      · rename_i hname
        exact ⟨entry.1, List.mem_cons_self, hname, by rw [hname]; omega⟩
      · obtain ⟨partition, hmem, hrest⟩ := ih h
        exact ⟨partition, List.mem_cons_of_mem _ hmem, hrest⟩
  rw [isSupportedInputName, decide_eq_true_eq, getFileType] at h
  split at h
  · exact absurd rfl h
  · exact hloop imageTypes h

theorem valid_of_supported (h : isSupportedInputName name platform = true) :
    validatePlatformName platform = true := by
  rw [isSupportedInputName, decide_eq_true_eq, getFileType] at h
  split at h
  · exact absurd rfl h
  · rename_i hvalid
    exact Bool.eq_true_of_not_eq_false hvalid

/-- The dots are no supported names. -/
theorem not_supported_of_length (h : name.length < 4) :
    isSupportedInputName name platform = false := by
  by_contra hsup
  obtain ⟨partition, -, hname, -⟩ :=
    eq_imageName_of_supported (Bool.eq_true_of_not_eq_false hsup)
  have hlen : name.length = platform.length + 1 + partition.length + 4 := by
    rw [hname, imageName]
    simp only [List.length_append, List.length_singleton]
    rfl
  omega

/-- **The scan** finds the paths that lead to files, in the directory's
order. -/
theorem scanEntries_eq_some (h : scanEntries src dirname platform entries files = some found)
    (hlen : files.length ≤ mkkimgMaxFiles) :
    found = files ++ (src.reach dirname platform entries).map Prod.fst ∧
      found.length ≤ mkkimgMaxFiles := by
  induction entries generalizing files with
  | nil =>
    obtain rfl := Option.some.inj h
    exact ⟨(List.append_nil _).symm, hlen⟩
  | cons name entries ih =>
    have hskip : isSupportedInputName name platform = false →
        src.reach dirname platform (name :: entries) = src.reach dirname platform entries := by
      intro hno
      rw [PackDir.reach, List.filter_cons_of_neg (by simp [hno])]
      rfl
    -- a name passed over is not reached; one taken is, where it leads to a file
    rw [scanEntries] at h
    split at h
    · rename_i hdot
      rw [hskip (not_supported_of_length (by rcases hdot with rfl | rfl <;> decide))]
      exact ih h hlen
    split at h
    · rename_i hno
      rw [hskip hno]
      exact ih h hlen
    rename_i hsup
    have hreach : src.reach dirname platform (name :: entries) =
        ((src.file (filePath dirname name)).map fun content =>
          (filePath dirname name, content)).toList ++ src.reach dirname platform entries := by
      rw [PackDir.reach, List.filter_cons_of_pos (by simpa using hsup), List.filterMap_cons]
      cases src.file (filePath dirname name) <;> rfl
    rw [hreach]
    split at h
    · rename_i hfile
      rw [hfile]
      exact ih h hlen
    · rename_i content hfile
      split at h
      · cases h
      · rename_i hroom
        obtain ⟨hfound, hmax⟩ := ih h (by rw [List.length_append, List.length_singleton]; omega)
        rw [hfound, hfile]
        exact ⟨by simp, by rwa [hfound] at hmax⟩

theorem scanDirectory_eq_some (h : scanDirectory fault src dirname platform = some found) :
    found = (src.reach dirname platform src.entries).map Prod.fst ∧
      found.length ≤ mkkimgMaxFiles := by
  rw [scanDirectory] at h
  split at h
  · cases h
  split at h
  · cases h
  · cases h
  · rename_i hscan
    obtain rfl := Option.some.inj h
    exact scanEntries_eq_some hscan (Nat.zero_le _)

/-- The bytes of files, one after the other. -/
def packedSize (files : List (List UInt8 × List UInt8)) : ℕ :=
  (files.map fun f => f.2.length).sum

@[simp] theorem packedSize_nil : packedSize [] = 0 := rfl

@[simp] theorem packedSize_cons {f : List UInt8 × List UInt8} :
    packedSize (f :: loaded) = f.2.length + packedSize loaded := by
  rw [packedSize, List.map_cons, List.sum_cons, packedSize]

theorem packedSize_eq : packedSize loaded = (loaded.map Prod.snd).flatten.length := by
  induction loaded with
  | nil => rfl
  | cons f loaded ih =>
    rw [packedSize_cons, ih, List.map_cons, List.flatten_cons, List.length_append]

/-- What entries record of files: their names, and the checksum of each
that the pass for it could open. -/
structure Records (fault : MkkimgStep → Bool) (i : ℕ) (files : List (List UInt8 × List UInt8))
    (infos : List MkkimgFileInfo) : Prop where
  names : infos.map (·.name) = files.map Prod.fst
  crcs : infos.map (·.crc32) =
    (files.zipIdx i).map fun f => calculateFileCrc32 (!fault (.crcOpen f.2)) f.1.2

theorem name_mk {fileType size crc : UInt32} :
    (⟨nameField (baseName path), fileType, offset, size, crc⟩ : MkkimgFileInfo).name =
      recordedName path := rfl

/-- **The entries**, in turn. The offset is kept in 32 bits, and is where
the file lies as long as those hold it. -/
theorem fillEntries_eq_some (hload : ∀ f ∈ loaded, src.file f.1 = some f.2)
    (h : fillEntries fault src platform i offset (loaded.map Prod.fst) = some (infos, total)) :
    Records fault i (loaded.map fun f => (recordedName f.1, f.2)) infos ∧
      total = UInt32.ofNat (offset.toNat + packedSize loaded) ∧
      (offset.toNat + packedSize loaded < 2 ^ 32 →
        infos.map (fun e => (e.offset.toNat, e.size.toNat)) =
          Segments.extents offset.toNat (loaded.map Prod.snd)) := by
  induction loaded generalizing i offset infos total with
  | nil =>
    obtain ⟨rfl, rfl⟩ := Prod.mk.inj (Option.some.inj h)
    exact ⟨⟨rfl, rfl⟩, by simp, fun _ => rfl⟩
  | cons f loaded ih =>
    obtain ⟨path, content⟩ := f
    rw [List.map_cons, fillEntries] at h
    split at h
    · cases h
    simp only [hload (path, content) List.mem_cons_self] at h
    split at h
    · cases h
    rename_i rest last hrest
    obtain ⟨rfl, rfl⟩ := Prod.mk.inj (Option.some.inj h)
    obtain ⟨⟨hnames, hcrcs⟩, htotal, hext⟩ :=
      ih (fun f hf => hload f (List.mem_cons_of_mem _ hf)) hrest
    -- the offset wraps, and only the sum of all sizes tells whether it did
    have hmod : (UInt32.ofNat (offset.toNat + content.length)).toNat =
        (offset.toNat + content.length) % 2 ^ 32 := UInt32.toNat_ofNat'
    refine ⟨⟨?_, ?_⟩, ?_, ?_⟩
    · simp only [List.map_cons, hnames, name_mk]
    · rw [List.map_cons, List.map_cons, List.zipIdx_cons, List.map_cons, hcrcs]
    · rw [htotal, packedSize_cons, hmod, ← UInt32.toNat_inj, UInt32.toNat_ofNat',
        UInt32.toNat_ofNat', Nat.mod_add_mod, Nat.add_assoc]
    · intro hfit
      rw [packedSize_cons] at hfit
      simp only at hfit
      rw [hmod, Nat.mod_eq_of_lt (by omega)] at hext
      rw [List.map_cons, hext (by omega), List.map_cons, Segments.extents,
        UInt32.toNat_ofNat_of_lt' (show content.length < 2 ^ 32 by omega)]

/-- **The copy** is the files, one behind the other. -/
theorem copyFiles_eq_some (hload : ∀ f ∈ loaded, src.file f.1 = some f.2)
    (h : copyFiles fault src i out (loaded.map Prod.fst) = some image) :
    image = out ++ (loaded.map Prod.snd).flatten := by
  induction loaded generalizing i out with
  | nil =>
    obtain rfl := Option.some.inj h
    exact (List.append_nil _).symm
  | cons f loaded ih =>
    obtain ⟨path, content⟩ := f
    -- written in pieces, the file is written
    have happend : (Segments.pieces readBufferSize content).foldl (· ++ ·) out =
        out ++ content := by
      have hfold : (Segments.pieces readBufferSize content).foldl (· ++ ·) out =
          out ++ ((Segments.pieces readBufferSize content).map id).flatten :=
        List.foldl_append_eq_append
      rw [hfold, List.map_id, Segments.flatten_pieces (by decide)]
    rw [List.map_cons, copyFiles] at h
    split at h
    · cases h
    simp only [hload (path, content) List.mem_cons_self, happend] at h
    split at h
    · cases h
    rw [ih (fun f hf => hload f (List.mem_cons_of_mem _ hf)) h, List.map_cons,
      List.flatten_cons, List.append_assoc]

/-- The entries the header lists are those it was given. -/
theorem listed_packHeader (hlen : infos.length ≤ 6) :
    (packHeader now infos total).listed = infos := by
  have hcount : (UInt32.ofNat infos.length).toNat = infos.length :=
    UInt32.toNat_ofNat_of_lt' (show infos.length < 2 ^ 32 by omega)
  have hfiles : (packHeader now infos total).listed =
      (List.ofFn fun i : Fin 6 => infos.getD i .zero).take infos.length := by
    rw [MkkimgHeader.listed]
    simp only [packHeader, hcount, Vector.toList_ofFn]
  rw [hfiles]
  apply List.ext_getElem
  · simp only [List.length_take, List.length_ofFn]
    omega
  · intro k _ hk
    rw [List.getElem_take, List.getElem_ofFn, List.getD_eq_getElem _ _ hk]

/-- **What a packed image is**: a header that records the files, and the
files behind it. -/
structure Packs (fault : MkkimgStep → Bool) (files : List (List UInt8 × List UInt8))
    (header : MkkimgHeader) (image : List UInt8) : Prop where
  image_eq : image = header.bytes ++ (files.map Prod.snd).flatten
  magic : header.magic = mkkimgMagic
  crc16 : header.packageCrc16 = (crc16Ccitt header.checkedBytes).toUInt32
  records : Records fault 0 files header.listed
  total : header.totalSize = UInt32.ofNat (512 + packedSize files)
  extents : 512 + packedSize files < 2 ^ 32 →
    header.listed.map (fun e => (e.offset.toNat, e.size.toNat)) =
      Segments.extents 512 (files.map Prod.snd)

/-- A run that exits with `0` went through its three loops. -/
theorem mkkimg_inv (h : mkkimg fault src now platform dirname = (0, some image)) :
    ∃ files infos total, scanDirectory fault src dirname platform = some files ∧
      fillEntries fault src platform 0 512 files = some (infos, total) ∧
      copyFiles fault src 0 (packHeader now infos total).bytes files = some image := by
  have not_fail : ((1 : ℕ), (none : Option (List UInt8))) ≠ (0, some image) := nofun
  rw [mkkimg] at h
  split at h
  · exact absurd h not_fail
  split at h
  · exact absurd h not_fail
  rename_i files hscan
  split at h
  · exact absurd h not_fail
  rename_i infos total hfill
  simp only at h
  split at h
  · exact absurd h not_fail
  split at h
  · exact absurd h not_fail
  split at h
  · exact absurd h not_fail
  split at h
  · exact absurd h not_fail
  rename_i out hcopy
  obtain rfl := Option.some.inj (Prod.mk.inj h).2
  exact ⟨files, infos, total, hscan, hfill, hcopy⟩

/-- **A run that exits with `0`** leaves an image of the files the scan
took. -/
theorem mkkimg_eq_zero (h : mkkimg fault src now platform dirname = (0, some image)) :
    ∃ header, Packs fault (src.packedFiles dirname platform) header image := by
  obtain ⟨files, infos, total, hscan, hfill, hcopy⟩ := mkkimg_inv h
  obtain ⟨rfl, hmax⟩ := scanDirectory_eq_some hscan
  have hload : ∀ f ∈ src.reach dirname platform src.entries, src.file f.1 = some f.2 :=
    fun f hf => file_of_mem_reach hf
  have hcontents : (src.packedFiles dirname platform).map Prod.snd =
      (src.reach dirname platform src.entries).map Prod.snd := by
    rw [PackDir.packedFiles, List.map_map]
    rfl
  have hsize : packedSize (src.packedFiles dirname platform) =
      packedSize (src.reach dirname platform src.entries) := by
    rw [packedSize_eq, packedSize_eq, hcontents]
  obtain ⟨hrec, htotal, hext⟩ := fillEntries_eq_some hload hfill
  have hlisted : (packHeader now infos total).listed = infos := by
    refine listed_packHeader ?_
    have hcount := congrArg List.length hrec.names
    rw [List.length_map, List.length_map, List.length_map] at hcount
    rwa [hcount, ← List.length_map Prod.fst]
  refine ⟨packHeader now infos total, ?_, rfl, rfl, ?_, ?_, ?_⟩
  · rw [hcontents]
    exact copyFiles_eq_some hload hcopy
  · rwa [hlisted]
  · rw [hsize]
    exact htotal
  · rw [hlisted, hsize, hcontents]
    exact hext

end Pack

end Tools

end ObcSdk
