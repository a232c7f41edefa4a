import ObcSdk.Lib.Paths
import ObcSdk.Properties.KimgRoundTrip
/-!
# Where files are extracted

`-x` puts each file at the output directory's path, a slash and the name
in its entry, in a buffer of 512 characters. Nothing looks at the name:
with slashes and dots in it the path leads elsewhere, without a NUL in
its field it goes on behind, and two entries may have the same. It stays
in the directory for the names that are one component, told apart.
-/

namespace ObcSdk

namespace Tools

/-- The components of a path of the host. -/
abbrev pathComponents (path : List UInt8) : List (List UInt8) := components 0x2F 0x2E path

/-- A path that may be a file's: its last name is none, one dot or two of
no file. -/
def NamesFile (path : List UInt8) : Prop :=
  lastName 0x2F path ≠ [] ∧ lastName 0x2F path ≠ ascii "." ∧ lastName 0x2F path ≠ ascii ".."

instance : DecidablePred NamesFile := fun _ => inferInstanceAs (Decidable (_ ∧ _ ∧ _))

/-- A path to a direct child of a directory: from the same start, and by
one component more. -/
def ChildOf (dir path : List UInt8) : Prop :=
  (path.head? = some 0x2F ↔ dir.head? = some 0x2F) ∧
    ∃ name, name ≠ ascii ".." ∧ pathComponents path = pathComponents dir ++ [name]

/-- The path that the host opens for entry `i`. -/
def pathAt (behind outputDir : List UInt8) (header : MkkimgHeader) (i : ℕ) : List UInt8 :=
  outputPath outputDir (nameAt behind header i)

/-- The host opens only what may be a file. -/
def UmkkimgHost.OpensFiles (host : UmkkimgHost) (outputDir : List UInt8) (header : MkkimgHeader) :
    Prop :=
  ∀ (i : ℕ) (e : MkkimgFileInfo), header.listed[i]? = some e →
    ¬ NamesFile (pathAt host.behind outputDir header i) → host.fault (.openOutput i) = true

/-- A run writes a file for entry `i`, to a path. -/
def Writes (host : UmkkimgHost) (image outputDir : List UInt8) (header : MkkimgHeader) (i : ℕ)
    (path : List UInt8) : Prop :=
  host.fault .extractOpen = false ∧ ∃ e data, header.listed[i]? = some e ∧
    written host image outputDir header i e = some (path, data)

/-- **A run stays in the output directory**: what it writes are direct
children, by names that end in their fields, no two to the same path; and
no other file is touched. -/
structure StaysIn (host : UmkkimgHost) (image outputDir : List UInt8) (header : MkkimgHeader) :
    Prop where
  child : ∀ i path, Writes host image outputDir header i path → ChildOf outputDir path
  own : ∀ i path, Writes host image outputDir header i path →
    (nameAt host.behind header i).length < mkkimgFilenameLen
  apart : ∀ i j path path', i < j → Writes host image outputDir header i path →
    Writes host image outputDir header j path' → pathComponents path ≠ pathComponents path'
  frame : ∀ disk path, ¬ ChildOf outputDir path →
    (extractFiles host image outputDir header disk).2 path = disk path

/-- An entry whose file can be written: its bytes are in the image, and
the path may be a file's. -/
def CanWrite (behind image outputDir : List UInt8) (header : MkkimgHeader) (i : ℕ)
    (e : MkkimgFileInfo) : Prop :=
  header.listed[i]? = some e ∧ (Segments.readAt image e.offset.toNat e.size.toNat).isSome ∧
    NamesFile (pathAt behind outputDir header i)

/-- What the buffer keeps of a name. -/
def keptName (outputDir name : List UInt8) : List UInt8 := name.take (510 - outputDir.length)

/-- **The names stay in the directory**: of the entries that can be
written, each ends in its field, is one component as far as the buffer
keeps it, and no two are the same one. The directory has a name, and
leaves room. -/
structure NamesStay (behind image outputDir : List UInt8) (header : MkkimgHeader) : Prop where
  own : ∀ i e, CanWrite behind image outputDir header i e → 0 ∈ e.filename.toList
  single : ∀ i e, CanWrite behind image outputDir header i e →
    (outputDir ≠ [] ∧ outputDir.length ≤ 510) ∧
      ∃ name, pathComponents (keptName outputDir e.name) = [name]
  apart : ∀ i j e e', i < j → CanWrite behind image outputDir header i e →
    CanWrite behind image outputDir header j e' →
      pathComponents (keptName outputDir e.name) ≠ pathComponents (keptName outputDir e'.name)

section Stay

variable {host : UmkkimgHost} {behind image outputDir name path : List UInt8}
  {header : MkkimgHeader} {i : ℕ} {e : MkkimgFileInfo}

/-! ## The path -/

/-- A directory that leaves room in the buffer is in front of what is
kept. -/
theorem outputPath_of_le (h : outputDir.length ≤ 510) :
    outputPath outputDir name = outputDir ++ 0x2F :: keptName outputDir name := by
  have hlen : (outputDir ++ [0x2F]).length ≤ 511 := by
    rw [List.length_append, List.length_singleton]
    omega
  rw [outputPath, keptName, List.take_append, List.take_of_length_le hlen, List.append_assoc,
    List.length_append, List.length_singleton, List.singleton_append,
    show 511 - (outputDir.length + 1) = 510 - outputDir.length by omega]

/-- A path to a file in the directory is to a child where the name is one
component. -/
theorem childOf_iff (hdir : outputDir ≠ [] ∧ outputDir.length ≤ 510)
    (hfile : NamesFile (outputPath outputDir name)) :
    ChildOf outputDir (outputPath outputDir name) ↔
      ∃ c, pathComponents (keptName outputDir name) = [c] := by
  have hhead : (outputPath outputDir name).head? = outputDir.head? := by
    obtain ⟨b, rest, rfl⟩ := List.exists_cons_of_ne_nil hdir.1
    rw [outputPath_of_le hdir.2]
    rfl
  rw [ChildOf, hhead, and_iff_right Iff.rfl]
  have hparts : pathComponents (outputPath outputDir name) =
      pathComponents outputDir ++ pathComponents (keptName outputDir name) := by
    rw [outputPath_of_le hdir.2]
    exact components_append_cons
  constructor
  · rintro ⟨c, -, hc⟩
    rw [hparts] at hc
    exact ⟨c, List.append_cancel_left hc⟩
  · rintro ⟨c, hc⟩
    refine ⟨c, ?_, by rw [hparts, hc]⟩
    -- the one component is the last name, and that is not two dots
    obtain ⟨pre, hpre⟩ := components_eq_lastName 0x2E hfile.1 hfile.2.1
    rw [← pathComponents, hparts, hc] at hpre
    obtain rfl : c = lastName 0x2F (outputPath outputDir name) :=
      (List.append_inj' hpre rfl).2 |> List.singleton_injective
    exact hfile.2.2

/-- Nothing in front of the slash is no directory. -/
theorem not_childOf_nil : ¬ ChildOf [] (outputPath [] name) := by
  rintro ⟨hhead, -⟩
  rw [outputPath_of_le (Nat.zero_le _)] at hhead
  cases hhead.1 rfl

/-- A directory that fills the buffer leaves no child. -/
theorem not_childOf_of_lt (h : 510 < outputDir.length) :
    ¬ ChildOf outputDir (outputPath outputDir name) := by
  rintro ⟨-, c, -, hc⟩
  have hcut : outputPath outputDir name = outputDir.take 511 := by
    rw [outputPath, List.append_assoc, List.take_append_of_le_length (by omega)]
  have hle : (pathComponents (outputDir.take 511)).length ≤
      (pathComponents (outputDir.take 511 ++ outputDir.drop 511)).length := length_components_le
  rw [List.take_append_drop, ← hcut, hc, List.length_append, List.length_singleton] at hle
  omega

/-! ## The run -/

/-- What a run can write, it writes where no other call fails. -/
theorem writes_iff : Writes host image outputDir header i path ↔ host.fault .extractOpen = false ∧
    host.fault (.extractMalloc i) = false ∧ host.fault (.extractRead i) = false ∧
    host.fault (.openOutput i) = false ∧ path = pathAt host.behind outputDir header i ∧
    ∃ e, header.listed[i]? = some e ∧
      (Segments.readAt image e.offset.toNat e.size.toNat).isSome := by
  rw [Writes]
  refine and_congr_right fun _ => ?_
  constructor
  · rintro ⟨e, data, he, hw⟩
    rw [written] at hw
    split at hw
    · cases hw
    rename_i hno
    obtain ⟨content, hread, heq⟩ := Option.map_eq_some_iff.1 hw
    simp only [not_or, Bool.not_eq_true] at hno
    exact ⟨hno.1, hno.2.1, hno.2.2, (Prod.mk.inj heq).1.symm, e, he, by rw [hread]; rfl⟩
  · rintro ⟨hmalloc, hread, hopen, rfl, e, he, hdata⟩
    obtain ⟨content, hdata⟩ := Option.isSome_iff_exists.1 hdata
    refine ⟨e, if host.fault (.writeOutput i) then content.take (host.stored i) else content, he,
      ?_⟩
    rw [written, if_neg (by simp [hmalloc, hread, hopen]), hdata]
    rfl

theorem canWrite_of_writes (hopens : host.OpensFiles outputDir header)
    (h : Writes host image outputDir header i path) :
    ∃ e, CanWrite host.behind image outputDir header i e ∧
      path = pathAt host.behind outputDir header i := by
  obtain ⟨-, -, -, hopen, hpath, e, he, hdata⟩ := writes_iff.1 h
  refine ⟨e, ⟨he, hdata, ?_⟩, hpath⟩
  by_contra hno
  rw [hopens i e he hno] at hopen
  cases hopen

/-- A host that fails only where it has to. -/
def willing (behind outputDir : List UInt8) (header : MkkimgHeader) : UmkkimgHost where
  fault
    | .openOutput i => decide (¬ NamesFile (pathAt behind outputDir header i))
    | _ => false
  stored _ := 0
  behind := behind

theorem opensFiles_willing : (willing behind outputDir header).OpensFiles outputDir header := by
  intro i e _ hno
  simpa [willing] using hno

theorem writes_willing (h : CanWrite behind image outputDir header i e) :
    Writes (willing behind outputDir header) image outputDir header i
      (pathAt behind outputDir header i) := by
  obtain ⟨he, hdata, hfile⟩ := h
  exact writes_iff.2 ⟨rfl, rfl, rfl, by simpa [willing] using hfile, rfl, e, he, hdata⟩

/-- What a run does not write it leaves. -/
theorem extractFiles_of_not_writes {disk : Disk}
    (h : ∀ i, ¬ Writes host image outputDir header i path) :
    (extractFiles host image outputDir header disk).2 path = disk path := by
  cases hopen : host.fault .extractOpen
  swap
  · rw [extractFiles, hopen]
    rfl
  rw [extractFiles_snd hopen, Disk.writeAll_of_not_mem]
  intro hmem
  obtain ⟨⟨path', data⟩, hf, rfl⟩ := List.mem_map.1 hmem
  obtain ⟨⟨e, i⟩, he, hw⟩ := List.mem_filterMap.1 hf
  exact h i ⟨hopen, e, data, List.mk_mem_zipIdx_iff_getElem?.1 he, hw⟩

/-! ## The names -/

variable (behind outputDir) in
/-- The path of an entry that ends in its field. -/
theorem pathAt_eq (he : header.listed[i]? = some e) (hnul : 0 ∈ e.filename.toList) :
    pathAt behind outputDir header i = outputPath outputDir e.name := by
  rw [pathAt, nameAt_eq he hnul]

theorem components_pathAt (he : header.listed[i]? = some e) (hnul : 0 ∈ e.filename.toList)
    (hdir : outputDir.length ≤ 510) : pathComponents (pathAt behind outputDir header i) =
      pathComponents outputDir ++ pathComponents (keptName outputDir e.name) := by
  rw [pathAt_eq _ _ he hnul, outputPath_of_le hdir]
  exact components_append_cons

/-- With names that stay every run does. -/
theorem NamesStay.staysIn (h : NamesStay host.behind image outputDir header)
    (hopens : host.OpensFiles outputDir header) : StaysIn host image outputDir header := by
  have hchild : ∀ i path, Writes host image outputDir header i path → ChildOf outputDir path := by
    intro i path hw
    obtain ⟨e, hcan, rfl⟩ := canWrite_of_writes hopens hw
    obtain ⟨hdir, hone⟩ := h.single i e hcan
    have hpath := pathAt_eq host.behind outputDir hcan.1 (h.own i e hcan)
    have hfile := hcan.2.2
    rw [hpath] at hfile ⊢
    exact (childOf_iff hdir hfile).2 hone
  refine ⟨hchild, ?_, ?_, ?_⟩
  · intro i path hw
    obtain ⟨e, hcan, -⟩ := canWrite_of_writes hopens hw
    exact (length_nameAt_lt_iff hcan.1).2 (h.own i e hcan)
  · intro i j path path' hij hw hw' heq
    obtain ⟨e, hcan, rfl⟩ := canWrite_of_writes hopens hw
    obtain ⟨e', hcan', rfl⟩ := canWrite_of_writes hopens hw'
    obtain ⟨hdir, -⟩ := h.single i e hcan
    rw [components_pathAt hcan.1 (h.own i e hcan) hdir.2,
      components_pathAt hcan'.1 (h.own j e' hcan') hdir.2] at heq
    exact h.apart i j e e' hij hcan hcan' (List.append_cancel_left heq)
  · intro disk path hno
    exact extractFiles_of_not_writes fun i hw => hno (hchild i path hw)

/-- And where every run stays, the names do: a willing host writes all
that can be. -/
theorem StaysIn.namesStay (h : StaysIn (willing behind outputDir header) image outputDir header) :
    NamesStay behind image outputDir header := by
  have hown : ∀ i e, CanWrite behind image outputDir header i e → 0 ∈ e.filename.toList :=
    fun i e hcan => (length_nameAt_lt_iff hcan.1).1 (h.own i _ (writes_willing hcan))
  have hdir : ∀ i e, CanWrite behind image outputDir header i e →
      outputDir ≠ [] ∧ outputDir.length ≤ 510 := by
    intro i e hcan
    have hchild := h.child i _ (writes_willing hcan)
    constructor
    · rintro rfl
      exact not_childOf_nil hchild
    · by_contra hlong
      exact not_childOf_of_lt (by omega) hchild
  refine ⟨hown, ?_, ?_⟩
  · intro i e hcan
    refine ⟨hdir i e hcan, ?_⟩
    have hpath := pathAt_eq behind outputDir hcan.1 (hown i e hcan)
    have hfile := hcan.2.2
    have hchild := h.child i _ (writes_willing hcan)
    rw [hpath] at hfile hchild
    exact (childOf_iff (hdir i e hcan) hfile).1 hchild
  · intro i j e e' hij hcan hcan' heq
    refine h.apart i j _ _ hij (writes_willing hcan) (writes_willing hcan') ?_
    rw [components_pathAt hcan.1 (hown i e hcan) (hdir i e hcan).2,
      components_pathAt hcan'.1 (hown j e' hcan') (hdir i e hcan).2, heq]

variable (behind image outputDir header) in
/-- **Extraction stays in the output directory**, whatever the host's
calls come to, exactly with names that stay there. -/
theorem staysIn_iff :
    (∀ host : UmkkimgHost, host.behind = behind → host.OpensFiles outputDir header →
      StaysIn host image outputDir header) ↔ NamesStay behind image outputDir header := by
  constructor
  · intro h
    exact (h (willing behind outputDir header) rfl opensFiles_willing).namesStay
  · rintro h host rfl hopens
    exact h.staysIn hopens

end Stay

/-- An image of one empty file, by a name that leaves the directory. -/
def leaving : MkkimgHeader :=
  let header : MkkimgHeader :=
    { magic := mkkimgMagic
      headerVersion := 0x00010000
      fileCount := 1
      totalSize := 512
      dataOffset := 512
      packageCrc16 := 0
      createTimestamp := 0
      reserved1 := 0
      files := #v[{ MkkimgFileInfo.zero with
        filename := Vector.ofFn fun i => (ascii "../x").getD i 0, offset := 512 },
        .zero, .zero, .zero, .zero, .zero] }
  { header with packageCrc16 := (crc16Ccitt header.checkedBytes).toUInt32 }

/-- It verifies, and is written above the directory. -/
theorem not_staysIn_leaving : ¬ ∀ (host : UmkkimgHost) (image outputDir : List UInt8)
    (header : MkkimgHeader), readHeader image = some header → header.magic = mkkimgMagic →
      verifyImage host image header = true → host.OpensFiles outputDir header →
        StaysIn host image outputDir header := by
  intro hall
  have hread : readHeader leaving.bytes = some leaving := by
    rw [← List.append_nil leaving.bytes, readHeader_bytes]
  have hverify : verifyImage working leaving.bytes leaving = true := by decide +kernel
  have hpath : pathAt working.behind (ascii "out") leaving 0 = ascii "out/../x" := by
    decide +kernel
  have hopens : working.OpensFiles (ascii "out") leaving := by
    intro i e he hno
    have hi : i = 0 := by
      have hlen := (List.getElem?_eq_some_iff.1 he).1
      have hone : leaving.listed.length = 1 := by decide +kernel
      omega
    subst hi
    rw [hpath] at hno
    exact absurd (by decide +kernel) hno
  have hstays := hall working _ (ascii "out") _ hread rfl hverify hopens
  have hwrites : Writes working leaving.bytes (ascii "out") leaving 0 (ascii "out/../x") :=
    writes_iff.2 ⟨rfl, rfl, rfl, rfl, hpath.symm, _, rfl, by decide +kernel⟩
  obtain ⟨-, c, -, hc⟩ := hstays.child 0 _ hwrites
  have hlen := congrArg List.length hc
  rw [List.length_append, List.length_singleton] at hlen
  revert hlen
  decide +kernel

end Tools

end ObcSdk
