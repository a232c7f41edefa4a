import ObcSdk.Tools.Mkkimg
import ObcSdk.Tools.Umkkimg
/-!
# Packing and unpacking

What the packer lays out the unpacker takes apart: the two share a header
of 32-bit numbers, and measure, lay down, check and cut out the files in
four loops. As long as the numbers hold the image's size, every extent
recorded is one where the file lies, and nothing else decides what comes
out but the names and the checksums recorded.
-/

namespace ObcSdk

namespace Tools

/-- The supported files of a directory, in its order, by name. -/
def PackDir.supportedFiles (src : PackDir) (dirname platform : List UInt8) :
    List (List UInt8 × List UInt8) :=
  (src.entries.filter fun name => isSupportedInputName name platform).filterMap fun name =>
    (src.file (dirname ++ [0x2F] ++ name)).map fun content => (name, content)

/-- The path of each supported name, in the packer's buffer, leads to the
file of that name, where there is one. -/
def PackDir.PathsLead (src : PackDir) (dirname platform : List UInt8) : Prop :=
  src.packedFiles dirname platform = src.supportedFiles dirname platform

/-- Where `-x` puts a file. -/
def extractedPath (name : List UInt8) : List UInt8 := ascii "./extracted" ++ [0x2F] ++ name

/-- **An image is its directory's**: it verifies, it is extracted to the
directory's supported files and to nothing else, and its entries are
those files, end to end from the header to the image's end. -/
structure RoundTrips (src : PackDir) (dirname platform image : List UInt8) : Prop where
  verifies : ∀ host : UmkkimgHost, host.Works → ∀ disk,
    (umkkimg host [ascii "-v"] image disk).1 = 0
  extracts : ∀ host : UmkkimgHost, host.Works → ∀ disk,
    (umkkimg host [ascii "-x"] image disk).1 = 0 ∧
      (∀ f ∈ src.supportedFiles dirname platform,
        (umkkimg host [ascii "-x"] image disk).2 (extractedPath f.1) = some f.2) ∧
      ∀ path, (∀ f ∈ src.supportedFiles dirname platform, path ≠ extractedPath f.1) →
        (umkkimg host [ascii "-x"] image disk).2 path = disk path
  recorded : ∃ header, readHeader image = some header ∧
    header.listed.map (·.name) = (src.supportedFiles dirname platform).map Prod.fst ∧
    Segments.Contiguous 512 (header.listed.map fun e => (e.offset.toNat, e.size.toNat)) ∧
    header.totalSize.toNat = image.length

section RoundTrip

variable {fault : MkkimgStep → Bool} {src : PackDir} {now : UInt32}
  {platform dirname name image outputDir : List UInt8} {header : MkkimgHeader}
  {files : List (List UInt8 × List UInt8)} {host : UmkkimgHost} {disk : Disk} {i : ℕ}

/-! ## Names and paths -/

theorem length_name_le {e : MkkimgFileInfo} : e.name.length ≤ 64 := by
  rw [MkkimgFileInfo.name]
  refine (List.takeWhile_prefix _).length_le.trans ?_
  rw [Vector.length_toList]

/-- The names recorded are shorter than their fields, whose last byte is
a NUL. -/
theorem length_recordedName_lt {path : List UInt8} : (recordedName path).length < 64 := by
  have hsplit : (nameField (baseName path)).toList =
      ((nameField (baseName path)).toList.take 63) ++ [0] := by
    apply List.ext_getElem
    · simp
    · intro k hk hk'
      rw [Vector.length_toList] at hk
      rcases Nat.lt_or_ge k 63 with hlt | hge
      · rw [List.getElem_append_left (by simpa using hlt), List.getElem_take]
      · obtain rfl : k = 63 := by omega
        rw [List.getElem_append_right (by simp)]
        simp [nameField]
  rw [recordedName, hsplit, List.takeWhile_append]
  split
  · rw [List.takeWhile_cons_of_neg (by simp)]
    simp
  · refine Nat.lt_of_le_of_lt (List.takeWhile_prefix _).length_le ?_
    simp

theorem length_of_mem_packedFiles {f : List UInt8 × List UInt8}
    (h : f ∈ src.packedFiles dirname platform) : f.1.length < 64 := by
  obtain ⟨g, -, hg⟩ := List.mem_map.1 h
  rw [← hg]
  simp only
  exact length_recordedName_lt

theorem outputPath_eq (h : name.length ≤ 64) :
    outputPath (ascii "./extracted") name = extractedPath name := by
  refine List.take_of_length_le ?_
  have hdir : (ascii "./extracted").length = 11 := by simp [ascii]
  rw [List.length_append, List.length_append, hdir, List.length_singleton]
  omega

theorem extractedPath_injective : Function.Injective extractedPath := by
  intro a b h
  exact List.append_cancel_left h

/-- The entries that were read tell the names apart. -/
theorem nodup_supportedFiles : ((src.supportedFiles dirname platform).map Prod.fst).Nodup := by
  have hsub : (src.supportedFiles dirname platform).map Prod.fst =
      (src.entries.filter fun name => isSupportedInputName name platform).filterMap fun name =>
        (src.file (dirname ++ [0x2F] ++ name)).map fun _ => name := by
    rw [PackDir.supportedFiles, List.map_filterMap]
    congr 1
    funext name
    cases src.file (dirname ++ [0x2F] ++ name) <;> rfl
  rw [hsub]
  refine List.Nodup.filterMap ?_ (src.nodup.filter _)
  intro a b c ha hb
  obtain ⟨-, -, rfl⟩ := Option.map_eq_some_iff.1 ha
  obtain ⟨-, -, rfl⟩ := Option.map_eq_some_iff.1 hb
  rfl

theorem baseName_append (h : 0x2F ∉ name) : baseName (dirname ++ [0x2F] ++ name) = name := by
  rw [baseName, List.reverse_append, List.reverse_append, List.reverse_singleton,
    List.singleton_append, takeWhile_ne_append_cons (by rwa [List.mem_reverse]),
    List.reverse_reverse]

/-- A supported name has neither a slash nor a NUL. -/
theorem clean_of_supported (h : isSupportedInputName name platform = true) :
    0x2F ∉ name ∧ (0 : UInt8) ∉ name := by
  obtain ⟨partition, hmem, rfl, -⟩ := eq_imageName_of_supported h
  have hvalid := valid_of_supported h
  rw [validatePlatformName] at hvalid
  split at hvalid
  · cases hvalid
  have hplatform : 0x2F ∉ platform ∧ (0 : UInt8) ∉ platform := by
    constructor <;> intro hc <;> exact absurd (List.all_eq_true.1 hvalid _ hc) (by decide)
  have htail : ∀ partition ∈ imageTypes.map Prod.fst,
      0x2F ∉ [0x2D] ++ partition ++ ascii ".bin" ∧
        (0 : UInt8) ∉ [0x2D] ++ partition ++ ascii ".bin" := by
    decide +kernel
  have := htail partition hmem
  rw [imageName, List.append_assoc, List.append_assoc]
  rw [List.append_assoc] at this
  exact ⟨fun hc => (List.mem_append.1 hc).elim hplatform.1 this.1,
    fun hc => (List.mem_append.1 hc).elim hplatform.2 this.2⟩

/-- The name recorded of a supported file is its own. -/
theorem recordedName_of_supported (h : isSupportedInputName name platform = true) :
    recordedName (dirname ++ [0x2F] ++ name) = name := by
  obtain ⟨hslash, hnul⟩ := clean_of_supported h
  obtain ⟨-, -, -, hlen⟩ := eq_imageName_of_supported h
  rw [mkkimgFilenameLen] at hlen
  have hfield : (nameField name).toList = name ++ List.replicate (64 - name.length) 0 := by
    apply List.ext_getElem
    · simp only [Vector.length_toList, List.length_append, List.length_replicate]
      omega
    · intro k hk hk'
      simp only [nameField, Vector.toList_ofFn, List.getElem_ofFn]
      rcases Nat.lt_or_ge k name.length with hlt | hge
      · rw [if_pos (by omega), List.getElem_append_left hlt, List.getD_eq_getElem _ _ hlt]
      · rw [List.getElem_append_right hge, List.getElem_replicate,
          List.getD_eq_default _ _ hge, ite_self]
  obtain ⟨n, hn⟩ : ∃ n, 64 - name.length = n + 1 := ⟨63 - name.length, by omega⟩
  rw [recordedName, baseName_append hslash, hfield, hn, List.replicate_succ,
    takeWhile_ne_append_cons hnul]

/-- **Paths that fit the packer's buffer** lead where they should. -/
theorem pathsLead_of_length_le (h : ∀ name ∈ src.entries,
    isSupportedInputName name platform = true → (dirname ++ [0x2F] ++ name).length ≤ 1023) :
    src.PathsLead dirname platform := by
  rw [PackDir.PathsLead, PackDir.packedFiles, PackDir.reach, PackDir.supportedFiles,
    List.map_filterMap]
  apply List.filterMap_congr
  intro name hname
  obtain ⟨hentry, hsup⟩ := List.mem_filter.1 hname
  rw [filePath, List.take_of_length_le (h name hentry hsup)]
  cases src.file (dirname ++ [0x2F] ++ name) with
  | none => rfl
  | some content =>
    simp only [Option.map_some, recordedName_of_supported hsup]

/-! ## The image of a run -/

/-- The first pass for a file computes what the unpacker does, if it
opens the file. -/
theorem calculateFileCrc32_eq {opened : Bool} {content : List UInt8} :
    calculateFileCrc32 opened content = if opened then crc32 content else 0 := by
  rw [calculateFileCrc32, Segments.foldl_pieces (by decide), crc32]

theorem crc32_eq_calculateFileCrc32_iff {content : List UInt8} :
    crc32 content = calculateFileCrc32 (!fault (.crcOpen i)) content ↔
      fault (.crcOpen i) = false ∨ crc32 content = 0 := by
  rw [calculateFileCrc32_eq]
  cases fault (.crcOpen i) <;> simp

theorem Packs.length_image (hp : Packs fault files header image) :
    image.length = 512 + packedSize files := by
  rw [hp.image_eq, List.length_append, MkkimgHeader.length_bytes, packedSize_eq]

theorem Packs.readHeader_eq (hp : Packs fault files header image) :
    readHeader image = some header := by
  rw [hp.image_eq, readHeader_bytes]

/-- **Every entry's extent** holds the file it was made for. -/
theorem Packs.map_readAt (hp : Packs fault files header image)
    (hfit : 512 + packedSize files < 2 ^ 32) :
    header.listed.map (fun e => Segments.readAt image e.offset.toNat e.size.toNat) =
      (files.map Prod.snd).map some := by
  have hfound := Segments.map_readAt_extents header.bytes (files.map Prod.snd)
  rw [MkkimgHeader.length_bytes, ← hp.image_eq, ← hp.extents hfit, List.map_map] at hfound
  exact hfound

/-- **An entry and its file**, by their place in the lists. -/
theorem Packs.entry (hp : Packs fault files header image)
    (hfit : 512 + packedSize files < 2 ^ 32) {e : MkkimgFileInfo} {f : List UInt8 × List UInt8}
    (he : header.listed[i]? = some e) (hf : files[i]? = some f) :
    Segments.readAt image e.offset.toNat e.size.toNat = some f.2 ∧
      e.crc32 = calculateFileCrc32 (!fault (.crcOpen i)) f.2 := by
  have hread := congrArg (·[i]?) (hp.map_readAt hfit)
  have hcrc := congrArg (·[i]?) hp.records.crcs
  simp only [List.getElem?_map, List.getElem?_zipIdx, he, hf, Option.map_some, Nat.zero_add,
    Option.some.injEq] at hread hcrc
  exact ⟨hread, hcrc⟩

/-- The first pass got the checksum of every file, or one that is the
same. -/
def ChecksumsKnown (fault : MkkimgStep → Bool) (files : List (List UInt8 × List UInt8)) : Prop :=
  ∀ i f, files[i]? = some f → fault (.crcOpen i) = false ∨ crc32 f.2 = 0

/-- **Every entry's file has its checksum** but those whose checksum was
not computed and is not `0` either. -/
theorem Packs.holds_iff (hp : Packs fault files header image)
    (hfit : 512 + packedSize files < 2 ^ 32) :
    (∀ e ∈ header.listed, e.Holds image) ↔ ChecksumsKnown fault files := by
  have hlen : header.listed.length = files.length := by
    have := congrArg List.length hp.records.names
    rwa [List.length_map, List.length_map] at this
  constructor
  · intro h i f hf
    obtain ⟨e, he⟩ : ∃ e, header.listed[i]? = some e := by
      have hi := (List.getElem?_eq_some_iff.1 hf).1
      exact ⟨_, List.getElem?_eq_getElem (hlen ▸ hi)⟩
    obtain ⟨hread, hcrc⟩ := hp.entry hfit he hf
    obtain ⟨data, hdata, hsum⟩ := h e (List.mem_of_getElem? he)
    rw [hread] at hdata
    obtain rfl := Option.some.inj hdata
    rw [hcrc] at hsum
    exact crc32_eq_calculateFileCrc32_iff.1 hsum
  · intro h e he
    obtain ⟨i, hi⟩ := List.mem_iff_getElem?.1 he
    obtain ⟨f, hf⟩ : ∃ f, files[i]? = some f := by
      have hi := (List.getElem?_eq_some_iff.1 hi).1
      exact ⟨_, List.getElem?_eq_getElem (hlen ▸ hi)⟩
    obtain ⟨hread, hcrc⟩ := hp.entry hfit hi hf
    refine ⟨f.2, hread, ?_⟩
    rw [hcrc]
    exact crc32_eq_calculateFileCrc32_iff.2 (h i f hf)

/-- **The image verifies** but for such files. -/
theorem Packs.umkkimg_verify (hp : Packs fault files header image)
    (hfit : 512 + packedSize files < 2 ^ 32) (hhost : host.Works) :
    (umkkimg host [ascii "-v"] image disk).1 = 0 ↔ ChecksumsKnown fault files := by
  rw [umkkimg_verify_eq_zero hp.readHeader_eq, and_iff_right (hhost _), and_iff_right hp.magic,
    verifyImage_iff hhost, and_iff_right hp.crc16.symm, hp.holds_iff hfit]

/-- **The image is extracted** to the files that were packed, by the
names recorded. -/
theorem Packs.umkkimg_extract (hp : Packs fault files header image)
    (hshort : ∀ f ∈ files, f.1.length < 64) (hfit : 512 + packedSize files < 2 ^ 32)
    (hhost : host.Works) :
    umkkimg host [ascii "-x"] image disk =
      (0, disk.writeAll (files.map fun f => (extractedPath f.1, f.2))) := by
  have hpaths : header.listed.map (fun e => outputPath (ascii "./extracted") e.name) =
      files.map fun f => extractedPath f.1 := by
    have hnames := congrArg (List.map extractedPath) hp.records.names
    rw [List.map_map, List.map_map] at hnames
    refine Eq.trans (List.map_congr_left fun e _ => ?_) hnames
    exact outputPath_eq length_name_le
  have hnul : ∀ e ∈ header.listed, 0 ∈ e.filename.toList := by
    intro e he
    have hname := List.mem_map_of_mem (f := MkkimgFileInfo.name) he
    rw [hp.records.names] at hname
    obtain ⟨f, hf, hname⟩ := List.mem_map.1 hname
    exact MkkimgFileInfo.length_name_lt_iff.1 (hname ▸ hshort f hf)
  have hrun : extractFiles host image (ascii "./extracted") header disk =
      (true, disk.writeAll (files.map fun f => (extractedPath f.1, f.2))) := by
    rw [extractFiles_eq hhost hnul (hp.map_readAt hfit), hpaths, List.zip_map']
  have hmain := Tools.umkkimg_extract (files.map Prod.snd).flatten disk hhost hp.magic
  rw [← hp.image_eq, hrun] at hmain
  exact hmain

/-! ## The round trip -/

/-- Two lists of keys and values with the same keys, none of them twice,
are one where every pair of one is in the other. -/
theorem eq_of_map_fst_eq {α β : Type*} {l l' : List (α × β)}
    (hkeys : l.map Prod.fst = l'.map Prod.fst) (hdup : (l'.map Prod.fst).Nodup)
    (hmem : ∀ p ∈ l', p ∈ l) : l = l' := by
  induction l generalizing l' with
  | nil => exact (List.map_eq_nil_iff.1 hkeys.symm).symm
  | cons a l ih =>
    cases l' with
    | nil => cases hkeys
    | cons b l' =>
      obtain ⟨hkey, hrest⟩ := List.cons.inj hkeys
      obtain ⟨hb, hdup⟩ := List.nodup_cons.1 hdup
      have hab : a = b := by
        rcases List.mem_cons.1 (hmem b List.mem_cons_self) with h | h
        · exact h.symm
        · exact absurd (hrest ▸ List.mem_map_of_mem h) hb
      refine hab ▸ congrArg (a :: ·) (ih hrest hdup fun p hp => ?_)
      rcases List.mem_cons.1 (hmem p (List.mem_cons_of_mem _ hp)) with h | h
      · have hmap := List.mem_map_of_mem (f := Prod.fst) hp
        rw [h, hkey] at hmap
        exact absurd hmap hb
      · exact h

/-- The paths files are extracted to tell them apart, as their names
do. -/
theorem nodup_extractedPaths (hdup : (files.map Prod.fst).Nodup) :
    ((files.map fun f => (extractedPath f.1, f.2)).map Prod.fst).Nodup := by
  have hmap := hdup.map extractedPath_injective
  rw [List.map_map] at hmap ⊢
  exact hmap

/-- A host none of whose calls fails. -/
def working : UmkkimgHost := ⟨fun _ => false, fun _ => 0, []⟩

theorem works_working : working.Works := fun _ => rfl

/-- **What an image has to record** for its directory to come out of
it. -/
theorem Packs.eq_supportedFiles (hp : Packs fault files header image)
    (hshort : ∀ f ∈ files, f.1.length < 64) (hfit : 512 + packedSize files < 2 ^ 32)
    (hr : RoundTrips src dirname platform image) :
    files = src.supportedFiles dirname platform := by
  obtain ⟨header', hheader', hnames, -, -⟩ := hr.recorded
  obtain rfl : header' = header := Option.some.inj (hheader'.symm.trans hp.readHeader_eq)
  rw [hp.records.names] at hnames
  refine eq_of_map_fst_eq hnames nodup_supportedFiles ?_
  rintro ⟨name, content⟩ hf
  -- what is extracted to the file's path is what was packed by its name
  obtain ⟨⟨name', content'⟩, hmem, rfl⟩ : ∃ f ∈ files, f.1 = name := by
    rw [← List.mem_map, hnames]
    exact List.mem_map_of_mem hf
  have hout := (hr.extracts working works_working fun _ => none).2.1 (name', content) hf
  rw [hp.umkkimg_extract hshort hfit works_working] at hout
  have hwritten := Disk.writeAll_of_mem (fun _ => none)
    (nodup_extractedPaths (hnames ▸ nodup_supportedFiles))
    (List.mem_map_of_mem (f := fun f : List UInt8 × List UInt8 => (extractedPath f.1, f.2)) hmem)
  simp only at hout hwritten
  rw [hwritten] at hout
  obtain rfl := Option.some.inj hout
  exact hmem

/-- **The round trip** is made exactly where the image's size fits 32
bits, the paths built lead to the files they are built for, and the first
pass opens every file whose checksum is not what it records otherwise. -/
theorem roundTrips_iff (h : mkkimg fault src now platform dirname = (0, some image)) :
    RoundTrips src dirname platform image ↔
      512 + packedSize (src.supportedFiles dirname platform) < 2 ^ 32 ∧
        src.PathsLead dirname platform ∧
        ChecksumsKnown fault (src.supportedFiles dirname platform) := by
  obtain ⟨header, hp⟩ := mkkimg_eq_zero h
  have hshort : ∀ f ∈ src.packedFiles dirname platform, f.1.length < 64 :=
    fun f hf => length_of_mem_packedFiles hf
  constructor
  · intro hr
    obtain ⟨header', hheader', -, -, htotal⟩ := hr.recorded
    obtain rfl : header' = header := Option.some.inj (hheader'.symm.trans hp.readHeader_eq)
    -- the total is recorded in 32 bits, and is the length
    have hfit : 512 + packedSize (src.packedFiles dirname platform) < 2 ^ 32 := by
      have htop := UInt32.toNat_lt header'.totalSize
      rwa [htotal, hp.length_image] at htop
    have hlead := hp.eq_supportedFiles hshort hfit hr
    have hknown := (hp.umkkimg_verify hfit works_working).1
      (hr.verifies working works_working fun _ => none)
    rw [hlead] at hfit hknown
    exact ⟨hfit, hlead, hknown⟩
  · rintro ⟨hfit, hlead, hknown⟩
    rw [show src.packedFiles dirname platform = _ from hlead] at hp hshort
    refine ⟨?_, ?_, header, hp.readHeader_eq, hp.records.names, ?_, ?_⟩
    · intro host hhost disk
      exact (hp.umkkimg_verify hfit hhost).2 hknown
    · intro host hhost disk
      rw [hp.umkkimg_extract hshort hfit hhost]
      refine ⟨rfl, ?_, ?_⟩
      · intro f hf
        exact Disk.writeAll_of_mem disk (nodup_extractedPaths nodup_supportedFiles)
          (List.mem_map_of_mem (f := fun f : List UInt8 × List UInt8 => (extractedPath f.1, f.2))
            hf)
      · intro path hpath
        refine Disk.writeAll_of_not_mem ?_
        rw [List.map_map]
        intro hmem
        obtain ⟨f, hf, rfl⟩ := List.mem_map.1 hmem
        exact hpath f hf rfl
    · rw [hp.extents hfit]
      exact Segments.contiguous_extents
    · rw [hp.total, hp.length_image, UInt32.toNat_ofNat_of_lt' hfit]

end RoundTrip

/-! ## A directory of one file -/

/-- A directory `images` of one file, the root file system of `am62x`. -/
def rootfsDir (content : List UInt8) : PackDir where
  entries := [ascii "am62x-rootfs.bin"]
  nodup := List.nodup_singleton _
  file path := if path = ascii "images/am62x-rootfs.bin" then some content else none

section OneFile

variable {content : List UInt8}

theorem rootfsDir_file :
    (rootfsDir content).file (filePath (ascii "images") (ascii "am62x-rootfs.bin")) =
      some content := by
  have hpath : filePath (ascii "images") (ascii "am62x-rootfs.bin") =
      ascii "images/am62x-rootfs.bin" := by
    decide +kernel
  simp only [rootfsDir, hpath, if_true]

theorem supported_rootfs :
    isSupportedInputName (ascii "am62x-rootfs.bin") (ascii "am62x") = true := by
  decide +kernel

/-- Its one file is packed. -/
theorem packedFiles_rootfsDir : (rootfsDir content).packedFiles (ascii "images") (ascii "am62x") =
    [(ascii "am62x-rootfs.bin", content)] := by
  have hname : recordedName (filePath (ascii "images") (ascii "am62x-rootfs.bin")) =
      ascii "am62x-rootfs.bin" := by
    decide +kernel
  have hentries : (rootfsDir content).entries = [ascii "am62x-rootfs.bin"] := rfl
  simp only [PackDir.packedFiles, PackDir.reach, hentries, List.filter_cons, supported_rootfs,
    if_true, List.filter_nil, List.filterMap_cons, rootfsDir_file, Option.map_some,
    List.filterMap_nil, List.map_cons, List.map_nil, hname]

variable (content) in
/-- With no call failing, the packer makes an image of it. -/
theorem mkkimg_rootfsDir : ∃ image,
    mkkimg (fun _ => false) (rootfsDir content) 0 (ascii "am62x") (ascii "images") =
      (0, some image) := by
  have hvalid : validatePlatformName (ascii "am62x") = true := by decide +kernel
  have hdots : ¬ (ascii "am62x-rootfs.bin" = ascii "." ∨
      ascii "am62x-rootfs.bin" = ascii "..") := by
    decide +kernel
  have hscan : scanDirectory (fun _ => false) (rootfsDir content) (ascii "images")
      (ascii "am62x") = some [filePath (ascii "images") (ascii "am62x-rootfs.bin")] := by
    have hentries : (rootfsDir content).entries = [ascii "am62x-rootfs.bin"] := rfl
    simp only [scanDirectory, hentries, scanEntries, if_neg hdots, supported_rootfs,
      rootfsDir_file]
    rfl
  simp only [mkkimg, hvalid, hscan, fillEntries, copyFiles, rootfsDir_file]
  exact ⟨_, rfl⟩

/-- Three bytes come back. -/
theorem roundTrips_rootfsDir : ∃ image,
    mkkimg (fun _ => false) (rootfsDir [1, 2, 3]) 0 (ascii "am62x") (ascii "images") =
      (0, some image) ∧
        RoundTrips (rootfsDir [1, 2, 3]) (ascii "images") (ascii "am62x") image := by
  obtain ⟨image, h⟩ := mkkimg_rootfsDir [1, 2, 3]
  have hlead : (rootfsDir [1, 2, 3]).PathsLead (ascii "images") (ascii "am62x") :=
    pathsLead_of_length_le (by decide +kernel)
  exact ⟨image, h, (roundTrips_iff h).2 ⟨by decide +kernel, hlead, fun _ _ _ => Or.inl rfl⟩⟩

/-- A file of 4 GiB does not: the image is longer than any size its header
can record. -/
theorem not_roundTrips_rootfsDir : ¬ ∀ (fault : MkkimgStep → Bool) (src : PackDir) (now : UInt32)
    (platform dirname image : List UInt8),
    mkkimg fault src now platform dirname = (0, some image) →
      RoundTrips src dirname platform image := by
  intro hall
  obtain ⟨content, hlong⟩ : ∃ content : List UInt8, content.length = 2 ^ 32 :=
    ⟨List.replicate (2 ^ 32) 0, List.length_replicate⟩
  obtain ⟨image, h⟩ := mkkimg_rootfsDir content
  obtain ⟨header, hp⟩ := mkkimg_eq_zero h
  obtain ⟨header', -, -, -, htotal⟩ := (hall _ _ _ _ _ _ h).recorded
  rw [hp.length_image, packedFiles_rootfsDir, packedSize_cons, hlong] at htotal
  have := UInt32.toNat_lt header'.totalSize
  omega

end OneFile

end Tools

end ObcSdk
