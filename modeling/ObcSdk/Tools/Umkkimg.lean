import Mathlib.Logic.Function.Basic
import ObcSdk.Lib.Words
import ObcSdk.Tools.Kimg
/-!
# The image unpacker

`umkkimg.c`: an image's header read and its files checked or written out.
What the program prints is left out.
-/

namespace ObcSdk

namespace Tools

/-- The files of a host, by path. -/
abbrev Disk := List UInt8 → Option (List UInt8)

/-- Files written one after the other. -/
def Disk.writeAll (disk : Disk) (files : List (List UInt8 × List UInt8)) : Disk :=
  files.foldl (fun disk f => Function.update disk f.1 (some f.2)) disk

/-- The host's calls, which may each fail. -/
inductive UmkkimgStep where
  | openImage
  | verifyOpen
  | verifyMalloc (i : ℕ)
  | verifyRead (i : ℕ)
  | extractOpen
  | extractMalloc (i : ℕ)
  | extractRead (i : ℕ)
  | openOutput (i : ℕ)
  | writeOutput (i : ℕ)

/-- What the host's calls come to. -/
structure UmkkimgHost where
  fault : UmkkimgStep → Bool
  /-- How much a write that fails has stored. -/
  stored : ℕ → ℕ
  /-- What lies behind the header in memory. -/
  behind : List UInt8

/-- No call fails. -/
def UmkkimgHost.Works (host : UmkkimgHost) : Prop := ∀ step, host.fault step = false

/-- The header of an image that is long enough to have one. -/
def readHeader (image : List UInt8) : Option MkkimgHeader :=
  if image.length < mkkimgHeaderSize then none else some (MkkimgHeader.ofBytes image)

/-! ## Verification -/

/-- A turn of the loop of `verify_image`: whether the entry passes. -/
def verifyFile (host : UmkkimgHost) (image : List UInt8) (i : ℕ) (e : MkkimgFileInfo) : Bool :=
  if host.fault (.verifyMalloc i) then false
  else if host.fault (.verifyRead i) then false
  else match Segments.readAt image e.offset.toNat e.size.toNat with
    | none => false
    | some data => crc32 data = e.crc32

/-- `verify_image`; `false` for `-1`. -/
def verifyImage (host : UmkkimgHost) (image : List UInt8) (header : MkkimgHeader) : Bool :=
  let ret : Bool := (crc16Ccitt header.checkedBytes).toUInt32 = header.packageCrc16
  if host.fault .verifyOpen then false
  else header.listed.zipIdx.foldl
    (fun ret e => if verifyFile host image e.2 e.1 then ret else false) ret

/-! ## Extraction -/

/-- `output_path`, in a buffer of 512 characters. -/
def outputPath (outputDir name : List UInt8) : List UInt8 := (outputDir ++ [0x2F] ++ name).take 511

/-- The string `%s` prints for the name of entry `i`. It ends at the next
NUL, which may lie behind the field, or behind the header. -/
def nameAt (behind : List UInt8) (header : MkkimgHeader) (i : ℕ) : List UInt8 :=
  ((header.bytes ++ behind).drop (32 + 80 * i)).takeWhile (· ≠ 0)

/-- A turn of the loop of `extract_files`: whether all went well so far,
and the files. -/
def extractFile (host : UmkkimgHost) (image outputDir : List UInt8) (header : MkkimgHeader)
    (i : ℕ) (e : MkkimgFileInfo) (s : Bool × Disk) : Bool × Disk :=
  let outputPath := outputPath outputDir (nameAt host.behind header i)
  if host.fault (.extractMalloc i) then (false, s.2)
  else if host.fault (.extractRead i) then (false, s.2)
  else match Segments.readAt image e.offset.toNat e.size.toNat with
    | none => (false, s.2)
    | some data =>
      if host.fault (.openOutput i) then (false, s.2)
      else if host.fault (.writeOutput i) then
        (false, Function.update s.2 outputPath (some (data.take (host.stored i))))
      else (s.1, Function.update s.2 outputPath (some data))

/-- `extract_files`; `false` for `-1`. -/
def extractFiles (host : UmkkimgHost) (image outputDir : List UInt8) (header : MkkimgHeader)
    (disk : Disk) : Bool × Disk :=
  if host.fault .extractOpen then (false, disk)
  else header.listed.zipIdx.foldl (fun s e => extractFile host image outputDir header e.2 e.1 s)
    (true, disk)

/-! ## The program -/

/-- The options of `main`. -/
structure UmkkimgOptions where
  doVerify : Bool
  doExtract : Bool
  outputDir : List UInt8

/-- The options before any argument. -/
def UmkkimgOptions.initial : UmkkimgOptions := ⟨false, false, ascii "./extracted"⟩

/-- The loop of `main` over the arguments behind the image's; the status
where it ends the program. -/
def parseOptions : List (List UInt8) → UmkkimgOptions → Except ℕ UmkkimgOptions
  | [], o => .ok o
  | arg :: args, o =>
    if arg = ascii "-h" ∨ arg = ascii "--help" then .error 0
    else if arg = ascii "-i" ∨ arg = ascii "--info" then parseOptions args o
    else if arg = ascii "-v" ∨ arg = ascii "--verify" then
      parseOptions args { o with doVerify := true }
    else if arg = ascii "-x" ∨ arg = ascii "--extract" then
      parseOptions args { o with doExtract := true }
    else if arg = ascii "-o" ∨ arg = ascii "--output" then
      match args with
      | [] => .error 1
      | dir :: args => parseOptions args { o with outputDir := dir }
    else parseOptions args o

/-- `main` on an image: its exit status, and the files it leaves. -/
def umkkimg (host : UmkkimgHost) (args : List (List UInt8)) (image : List UInt8) (disk : Disk) :
    ℕ × Disk :=
  match parseOptions args .initial with
  | .error status => (status, disk)
  | .ok o =>
    if host.fault .openImage then (1, disk)
    else match readHeader image with
      | none => (1, disk)
      | some header =>
        if header.magic ≠ mkkimgMagic then (1, disk)
        else if o.doVerify ∧ verifyImage host image header = false then (1, disk)
        else if o.doExtract then
          let (ret, disk) := extractFiles host image o.outputDir header disk
          (if ret then 0 else 1, disk)
        else (0, disk)

/-! ## What a run comes to -/

section Unpack

variable {host : UmkkimgHost} {image data outputDir path : List UInt8} {header : MkkimgHeader}
  {disk : Disk} {files : List (List UInt8 × List UInt8)} {contents : List (List UInt8)}

/-- A path no file is written to keeps what it had. -/
theorem Disk.writeAll_of_not_mem (h : path ∉ files.map Prod.fst) :
    disk.writeAll files path = disk path := by
  induction files generalizing disk with
  | nil => rfl
  | cons f files ih =>
    rw [List.map_cons, List.mem_cons, not_or] at h
    rw [Disk.writeAll, List.foldl_cons, ← Disk.writeAll, ih h.2, Function.update_of_ne h.1]

variable (disk) in
/-- A file written to a path of its own is there. -/
theorem Disk.writeAll_of_mem (hdup : (files.map Prod.fst).Nodup) (h : (path, data) ∈ files) :
    disk.writeAll files path = some data := by
  induction files generalizing disk with
  | nil => cases h
  | cons f files ih =>
    rw [List.map_cons, List.nodup_cons] at hdup
    rw [Disk.writeAll, List.foldl_cons, ← Disk.writeAll]
    rcases List.mem_cons.1 h with rfl | h
    · rw [Disk.writeAll_of_not_mem hdup.1, Function.update_self]
    · exact ih _ hdup.2 h

/-- The header of an image that starts with one. -/
theorem readHeader_bytes : readHeader (header.bytes ++ data) = some header := by
  rw [readHeader, MkkimgHeader.ofBytes_bytes, if_neg]
  rw [List.length_append, MkkimgHeader.length_bytes]
  exact Nat.not_lt.2 (Nat.le_add_right _ _)

/-- An entry's file is in the image, and has the entry's checksum. -/
def MkkimgFileInfo.Holds (e : MkkimgFileInfo) (image : List UInt8) : Prop :=
  ∃ data, Segments.readAt image e.offset.toNat e.size.toNat = some data ∧
    Tools.crc32 data = e.crc32

theorem verifyFile_iff {i : ℕ} {e : MkkimgFileInfo} : verifyFile host image i e = true ↔
    host.fault (.verifyMalloc i) = false ∧ host.fault (.verifyRead i) = false ∧ e.Holds image := by
  rw [verifyFile, MkkimgFileInfo.Holds]
  cases host.fault (.verifyMalloc i)
  · cases host.fault (.verifyRead i)
    · cases Segments.readAt image e.offset.toNat e.size.toNat <;> simp
    · simp
  · simp

/-- **The verification passes** where its header's checksum is right, and
every turn of its loop. -/
theorem verifyImage_eq_true : verifyImage host image header = true ↔
    host.fault .verifyOpen = false ∧
      (crc16Ccitt header.checkedBytes).toUInt32 = header.packageCrc16 ∧
      ∀ (i : ℕ) (e : MkkimgFileInfo), header.listed[i]? = some e →
        verifyFile host image i e = true := by
  have hloop : ∀ (es : List (MkkimgFileInfo × ℕ)) (ret : Bool),
      es.foldl (fun ret e => if verifyFile host image e.2 e.1 then ret else false) ret = true ↔
        ret = true ∧ ∀ e ∈ es, verifyFile host image e.2 e.1 = true := by
    intro es
    induction es with
    | nil => simp
    | cons e es ih =>
      intro ret
      rw [List.foldl_cons, ih, List.forall_mem_cons]
      cases verifyFile host image e.2 e.1 <;> simp
  rw [verifyImage]
  cases host.fault .verifyOpen
  swap
  · simp
  rw [if_neg Bool.false_ne_true, hloop, decide_eq_true_eq]
  refine (and_congr_right fun _ => ?_).trans (and_iff_right rfl).symm
  constructor
  · intro h i e he
    exact h (e, i) (List.mk_mem_zipIdx_iff_getElem?.2 he)
  · rintro h ⟨e, i⟩ he
    exact h i e (List.mk_mem_zipIdx_iff_getElem?.1 he)

/-- **An image verifies** where its header's checksum is right, and every
entry's file is there and has the entry's. -/
theorem verifyImage_iff (hhost : host.Works) : verifyImage host image header = true ↔
    (crc16Ccitt header.checkedBytes).toUInt32 = header.packageCrc16 ∧
      ∀ e ∈ header.listed, e.Holds image := by
  rw [verifyImage_eq_true, and_iff_right (hhost _)]
  refine and_congr_right fun _ => ?_
  constructor
  · intro h e he
    obtain ⟨i, hi⟩ := List.mem_iff_getElem?.1 he
    exact (verifyFile_iff.1 (h i e hi)).2.2
  · intro h i e he
    exact verifyFile_iff.2 ⟨hhost _, hhost _, h e (List.mem_of_getElem? he)⟩

/-- And no call that fails makes it verify otherwise. -/
theorem holds_of_verifyImage (h : verifyImage host image header = true) :
    (crc16Ccitt header.checkedBytes).toUInt32 = header.packageCrc16 ∧
      ∀ e ∈ header.listed, e.Holds image := by
  obtain ⟨-, hcrc, hfiles⟩ := verifyImage_eq_true.1 h
  refine ⟨hcrc, ?_⟩
  intro e he
  obtain ⟨i, hi⟩ := List.mem_iff_getElem?.1 he
  exact (verifyFile_iff.1 (hfiles i e hi)).2.2

/-- The string at an entry's name starts with its field. -/
theorem nameAt_append (behind : List UInt8) {i : ℕ} {e : MkkimgFileInfo}
    (he : header.listed[i]? = some e) :
    ∃ rest, nameAt behind header i = (e.filename.toList ++ rest).takeWhile (· ≠ 0) := by
  obtain ⟨rest, hrest⟩ := MkkimgHeader.drop_bytes he
  have hle : 32 + 80 * i ≤ header.bytes.length := by
    have hi := (List.getElem?_eq_some_iff.1 he).1
    rw [MkkimgHeader.listed, List.length_take, Vector.length_toList] at hi
    rw [MkkimgHeader.length_bytes, mkkimgHeaderSize]
    have hsix : mkkimgMaxFiles = 6 := rfl
    omega
  refine ⟨uint32s [e.fileType, e.offset, e.size, e.crc32] ++ (rest ++ behind), ?_⟩
  rw [nameAt, List.drop_append_of_le_length hle, hrest, MkkimgFileInfo.bytes_eq,
    List.append_assoc, List.append_assoc]

/-- A field holds its name's end where it is longer than the name. -/
theorem MkkimgFileInfo.length_name_lt_iff {e : MkkimgFileInfo} :
    e.name.length < mkkimgFilenameLen ↔ 0 ∈ e.filename.toList := by
  have hfield : e.filename.toList.length = mkkimgFilenameLen := Vector.length_toList
  constructor
  · intro h
    by_contra hnul
    have hall : e.name = e.filename.toList := by
      rw [MkkimgFileInfo.name, List.takeWhile_eq_self_iff]
      intro b hb
      exact decide_eq_true fun h0 => hnul (h0 ▸ hb)
    rw [hall, hfield] at h
    exact lt_irrefl _ h
  · intro hnul
    have hprefix : e.name <+: e.filename.toList := List.takeWhile_prefix _
    refine hfield ▸ Nat.lt_of_le_of_ne hprefix.length_le ?_
    intro hlen
    rw [← hprefix.eq_of_length hlen] at hnul
    simpa using List.mem_takeWhile_imp hnul

/-- A name that ends in its field is the string there. -/
theorem nameAt_eq {behind : List UInt8} {i : ℕ} {e : MkkimgFileInfo}
    (he : header.listed[i]? = some e) (hnul : 0 ∈ e.filename.toList) :
    nameAt behind header i = e.name := by
  obtain ⟨rest, hrest⟩ := nameAt_append behind he
  rw [hrest, takeWhile_ne_append_of_mem hnul]
  rfl

/-- The string is shorter than the field where the field ends it. -/
theorem length_nameAt_lt_iff {behind : List UInt8} {i : ℕ} {e : MkkimgFileInfo}
    (he : header.listed[i]? = some e) :
    (nameAt behind header i).length < mkkimgFilenameLen ↔ 0 ∈ e.filename.toList := by
  constructor
  · intro h
    by_contra hnul
    obtain ⟨rest, hrest⟩ := nameAt_append behind he
    rw [hrest, takeWhile_ne_append hnul, List.length_append, Vector.length_toList] at h
    omega
  · intro hnul
    rw [nameAt_eq he hnul]
    exact MkkimgFileInfo.length_name_lt_iff.2 hnul

/-- What a turn of the loop writes: the path it opens, and the bytes. -/
def written (host : UmkkimgHost) (image outputDir : List UInt8) (header : MkkimgHeader)
    (i : ℕ) (e : MkkimgFileInfo) : Option (List UInt8 × List UInt8) :=
  if host.fault (.extractMalloc i) ∨ host.fault (.extractRead i) ∨ host.fault (.openOutput i) then
    none
  else (Segments.readAt image e.offset.toNat e.size.toNat).map fun data =>
    (outputPath outputDir (nameAt host.behind header i),
      if host.fault (.writeOutput i) then data.take (host.stored i) else data)

/-- **A turn** writes that, and nothing else. -/
theorem extractFile_snd {i : ℕ} {e : MkkimgFileInfo} {s : Bool × Disk} :
    (extractFile host image outputDir header i e s).2 =
      s.2.writeAll (written host image outputDir header i e).toList := by
  rw [extractFile, written]
  cases host.fault (.extractMalloc i)
  swap
  · rfl
  cases host.fault (.extractRead i)
  swap
  · rfl
  cases Segments.readAt image e.offset.toNat e.size.toNat with
  | none => cases host.fault (.openOutput i) <;> rfl
  | some data => cases host.fault (.openOutput i) <;> cases host.fault (.writeOutput i) <;> rfl

theorem Disk.writeAll_append {files' : List (List UInt8 × List UInt8)} :
    disk.writeAll (files ++ files') = (disk.writeAll files).writeAll files' :=
  List.foldl_append

/-- **A run of the loop** writes what its turns do, in their order. -/
theorem extractFiles_snd (hopen : host.fault .extractOpen = false) :
    (extractFiles host image outputDir header disk).2 =
      disk.writeAll (header.listed.zipIdx.filterMap fun e =>
        written host image outputDir header e.2 e.1) := by
  have hloop : ∀ (es : List (MkkimgFileInfo × ℕ)) (s : Bool × Disk),
      (es.foldl (fun s e => extractFile host image outputDir header e.2 e.1 s) s).2 =
        s.2.writeAll (es.filterMap fun e => written host image outputDir header e.2 e.1) := by
    intro es
    induction es with
    | nil => exact fun _ => rfl
    | cons e es ih =>
      intro s
      rw [List.foldl_cons, ih, extractFile_snd, List.filterMap_cons, ← Disk.writeAll_append]
      cases written host image outputDir header e.2 e.1 <;> rfl
  rw [extractFiles, hopen, if_neg Bool.false_ne_true]
  exact hloop _ _

/-- **An image is extracted** by writing each entry's file to the entry's
name, where all are there and the names end in their fields. -/
theorem extractFiles_eq (hhost : host.Works)
    (hnul : ∀ e ∈ header.listed, 0 ∈ e.filename.toList)
    (hread : header.listed.map (fun e => Segments.readAt image e.offset.toNat e.size.toNat) =
      contents.map some) :
    extractFiles host image outputDir header disk = (true, disk.writeAll
      ((header.listed.map fun e => outputPath outputDir e.name).zip contents)) := by
  have hloop : ∀ (es : List MkkimgFileInfo) (contents : List (List UInt8)) (i : ℕ) (disk : Disk),
      (∀ k e, es[k]? = some e → nameAt host.behind header (i + k) = e.name) →
      es.map (fun e => Segments.readAt image e.offset.toNat e.size.toNat) = contents.map some →
      (es.zipIdx i).foldl (fun s e => extractFile host image outputDir header e.2 e.1 s)
          (true, disk) =
        (true, disk.writeAll ((es.map fun e => outputPath outputDir e.name).zip contents)) := by
    intro es
    induction es with
    | nil => exact fun _ _ _ _ _ => rfl
    | cons e es ih =>
      intro contents i disk hnames hread
      cases contents with
      | nil => cases hread
      | cons content contents =>
        obtain ⟨hfirst, hrest⟩ := List.cons.inj hread
        have hname : nameAt host.behind header i = e.name := hnames 0 e rfl
        have hfile : extractFile host image outputDir header i e (true, disk) =
            (true, Function.update disk (outputPath outputDir e.name) (some content)) := by
          simp only [extractFile, hhost _, hfirst, hname, Bool.false_eq_true, if_false]
        have htail : ∀ k e', es[k]? = some e' →
            nameAt host.behind header (i + 1 + k) = e'.name := by
          intro k e' he'
          rw [Nat.add_assoc, Nat.add_comm 1 k]
          exact hnames (k + 1) e' he'
        rw [List.zipIdx_cons, List.foldl_cons, hfile, ih _ _ _ htail hrest]
        rfl
  rw [extractFiles, hhost, if_neg Bool.false_ne_true]
  refine hloop _ _ 0 disk ?_ hread
  intro k e he
  rw [Nat.zero_add]
  exact nameAt_eq he (hnul e (List.mem_of_getElem? he))

/-- **`-v`** looks at the magic, and verifies. -/
theorem umkkimg_verify_eq_zero (hread : readHeader image = some header) :
    (umkkimg host [ascii "-v"] image disk).1 = 0 ↔ host.fault .openImage = false ∧
      header.magic = mkkimgMagic ∧ verifyImage host image header = true := by
  have hargs : parseOptions [ascii "-v"] .initial = .ok ⟨true, false, ascii "./extracted"⟩ := by
    simp [parseOptions, ascii, UmkkimgOptions.initial]
  simp only [umkkimg, hargs, hread]
  cases host.fault .openImage
  swap
  · simp
  by_cases hmagic : header.magic = mkkimgMagic
  · cases verifyImage host image header <;> simp [hmagic]
  · simp [hmagic]

variable (data disk) in
/-- **`-x`** on an image that starts with a header. -/
theorem umkkimg_extract (hhost : host.Works) (hmagic : header.magic = mkkimgMagic) :
    umkkimg host [ascii "-x"] (header.bytes ++ data) disk =
      (if (extractFiles host (header.bytes ++ data) (ascii "./extracted") header disk).1 then 0
        else 1,
        (extractFiles host (header.bytes ++ data) (ascii "./extracted") header disk).2) := by
  have hargs : parseOptions [ascii "-x"] .initial = .ok ⟨false, true, ascii "./extracted"⟩ := by
    simp [parseOptions, ascii, UmkkimgOptions.initial]
  simp only [umkkimg, hargs, hhost _, readHeader_bytes, hmagic, Bool.false_eq_true, if_false,
    ne_eq, not_true_eq_false, false_and, if_true]

end Unpack

end Tools

end ObcSdk
