import ObcSdk.Boot.Updatex
import ObcSdk.Tools.Mkkimg
/-!
# The types of files, on both sides

The packer stores a type with every file, and its header says that the
types are the bootloader's. The names are: both sides put the platform,
a dash, the partition and an ending together. The numbers are not, for
none of the partitions.
-/

namespace ObcSdk

namespace Boot

open Tools (ascii imageName)

/-- The numbers of `UPDATEX_FILE_TYPE_E`. -/
def UpdatexFileType.code : UpdatexFileType → UInt8
  | .none => 0
  | .uboot => 1
  | .kernel => 2
  | .fdt => 3
  | .rootfs => 4
  | .teeos => 5
  | .loader => 6

/-- `gst_sd_fw_list` as built for a platform, the names and types of its
entries. -/
def gstSdFwListOf (platform : List UInt8) : List (List UInt8 × UpdatexFileType) :=
  [(imageName platform (ascii "uboot"), .uboot), (imageName platform (ascii "kernel"), .kernel),
    (imageName platform (ascii "fdt"), .fdt), (imageName platform (ascii "rootfs"), .rootfs),
    (imageName platform (ascii "teeos"), .teeos), (imageName platform (ascii "loader"), .loader)]

/-- `find_fw_file_by_type` as built for a platform: the file's name. -/
def findFwFileByTypeOf (platform : List UInt8) (fileType : UInt8) : Option (List UInt8) :=
  ((gstSdFwListOf platform).find? fun f => f.2.code = fileType).map Prod.fst

/-- `am62x`'s list is the one built for it. -/
theorem gstSdFwListOf_am62x : gstSdFwListOf (ascii "am62x") =
    gstSdFwList.map fun f => (f.1.map fun c => UInt8.ofNat c.toNat, f.2) := by
  decide +kernel

end Boot

namespace Tools

open Boot (findFwFileByTypeOf gstSdFwListOf)

/-- The supported partitions. -/
def partitions : List (List UInt8) := imageTypes.map Prod.fst

/-- A platform is valid: it has a name, of letters, digits, dashes,
underscores and dots, and every partition's name fits 63 characters. -/
def ValidPlatform (platform : List UInt8) : Prop :=
  platform ≠ [] ∧ (∀ c ∈ platform, isalnum c ∨ c = 0x2D ∨ c = 0x5F ∨ c = 0x2E) ∧
    ∀ p ∈ partitions, (imageName platform p).length ≤ 63

/-- A file of a platform, by its name: one of the supported
partitions'. -/
def SupportedFile (filename platform : List UInt8) : Prop :=
  ValidPlatform platform ∧ ∃ p ∈ partitions, filename = imageName platform p

/-- **Packer and bootloader agree** on a file: it is typed where it is a
platform's, and the bootloader has the type for the file of that name. -/
structure TypesAgree (filename platform : List UInt8) : Prop where
  typed : getFileType filename platform ≠ 0 ↔ SupportedFile filename platform
  found : getFileType filename platform ≠ 0 →
    findFwFileByTypeOf platform (getFileType filename platform).toUInt8 = some filename

section Types

variable {filename platform p q : List UInt8}

theorem length_imageName : (imageName platform p).length = platform.length + 1 + p.length + 4 := by
  rw [imageName]
  simp only [List.length_append, List.length_singleton]
  rfl

/-- Partitions are told apart by their files' names. -/
theorem imageName_injective (h : imageName platform p = imageName platform q) : p = q := by
  rw [imageName, imageName] at h
  exact List.append_cancel_left (List.append_cancel_right h)

/-- The longest partition's name has six characters. -/
theorem validatePlatformName_iff :
    validatePlatformName platform = true ↔ ValidPlatform platform := by
  have hlen : (∀ p ∈ partitions, (imageName platform p).length ≤ 63) ↔
      ¬ 64 ≤ platform.length + 1 + 6 + 4 := by
    have hmax : ∀ p ∈ partitions, p.length ≤ 6 := by decide +kernel
    have hsix : ascii "rootfs" ∈ partitions := by decide +kernel
    have hrootfs : (ascii "rootfs").length = 6 := by decide +kernel
    constructor
    · intro h hle
      have := h _ hsix
      rw [length_imageName, hrootfs] at this
      omega
    · intro h p hp
      have := hmax p hp
      rw [length_imageName]
      omega
  rw [validatePlatformName, ValidPlatform, hlen, mkkimgFilenameLen]
  split
  · rename_i hno
    rcases hno with rfl | hlong
    · simp
    · simp [hlong]
  · rename_i hok
    rw [not_or] at hok
    rw [and_iff_right hok.1, and_iff_left hok.2, List.all_eq_true]
    simp only [Bool.or_eq_true, decide_eq_true_eq, or_assoc]

/-- The loop finds the type of the partition that the name is of. -/
theorem findImageType_eq {fileType : UInt32} {types : List (List UInt8 × UInt32)}
    (hfit : ∀ t ∈ types, (imageName platform t.1).length ≤ 63)
    (hdup : (types.map Prod.fst).Nodup) (h : (p, fileType) ∈ types) :
    findImageType (imageName platform p) platform types = fileType := by
  induction types with
  | nil => cases h
  | cons t types ih =>
    obtain ⟨q, other⟩ := t
    rw [List.map_cons, List.nodup_cons] at hdup
    have hroom := hfit _ List.mem_cons_self
    rw [findImageType, if_neg (show ¬ 64 ≤ _ by simp only at hroom; omega)]
    rcases List.mem_cons.1 h with heq | hmem
    · obtain ⟨rfl, rfl⟩ := Prod.mk.inj heq
      rw [if_pos rfl]
    · rw [if_neg]
      · exact ih (fun t ht => hfit t (List.mem_cons_of_mem _ ht)) hdup.2 hmem
      · intro heq
        have hq := List.mem_map_of_mem (f := Prod.fst) hmem
        exact hdup.1 (imageName_injective heq ▸ hq)

/-- **The type of a platform's file** is its partition's. -/
theorem getFileType_eq {fileType : UInt32} (hvalid : ValidPlatform platform)
    (h : (p, fileType) ∈ imageTypes) : getFileType (imageName platform p) platform = fileType := by
  rw [getFileType, validatePlatformName_iff.2 hvalid, if_neg (by decide)]
  refine findImageType_eq ?_ (by decide +kernel) h
  intro t ht
  exact hvalid.2.2 t.1 (List.mem_map_of_mem (f := Prod.fst) ht)

/-- **A file is typed** where it is a platform's. -/
theorem getFileType_ne_zero_iff :
    getFileType filename platform ≠ 0 ↔ SupportedFile filename platform := by
  constructor
  · intro h
    have hsup : isSupportedInputName filename platform = true := decide_eq_true h
    obtain ⟨p, hp, hname, -⟩ := eq_imageName_of_supported hsup
    exact ⟨validatePlatformName_iff.1 (valid_of_supported hsup), p, hp, hname⟩
  · rintro ⟨hvalid, p, hp, rfl⟩
    obtain ⟨⟨p, fileType⟩, ht, rfl⟩ := List.mem_map.1 hp
    have hnone : ∀ t ∈ imageTypes, t.2 ≠ 0 := by decide +kernel
    rw [getFileType_eq hvalid ht]
    exact hnone _ ht

/-- **No type is the bootloader's**: under a partition's number it has
another's file, or none. -/
theorem findFwFileByTypeOf_ne {fileType : UInt32} (h : (p, fileType) ∈ imageTypes) :
    findFwFileByTypeOf platform fileType.toUInt8 ≠ some (imageName platform p) := by
  have hfound : ∃ q, q ≠ some p ∧ findFwFileByTypeOf platform fileType.toUInt8 =
      q.map (imageName platform) := by
    simp only [imageTypes, List.mem_cons, Prod.mk.injEq, List.not_mem_nil, or_false] at h
    rcases h with ⟨rfl, rfl⟩ | ⟨rfl, rfl⟩ | ⟨rfl, rfl⟩ | ⟨rfl, rfl⟩ | ⟨rfl, rfl⟩ | ⟨rfl, rfl⟩
    · exact ⟨some (ascii "uboot"), by decide +kernel, rfl⟩
    · exact ⟨some (ascii "fdt"), by decide +kernel, rfl⟩
    · exact ⟨some (ascii "rootfs"), by decide +kernel, rfl⟩
    · exact ⟨some (ascii "teeos"), by decide +kernel, rfl⟩
    · exact ⟨some (ascii "loader"), by decide +kernel, rfl⟩
    · exact ⟨none, by decide, rfl⟩
  obtain ⟨q, hne, hq⟩ := hfound
  rw [hq]
  intro heq
  obtain ⟨r, rfl, hr⟩ := Option.map_eq_some_iff.1 heq
  exact hne (congrArg some (imageName_injective hr))

variable (filename platform) in
/-- **They agree** on what is no platform's file, and on nothing else. -/
theorem typesAgree_iff : TypesAgree filename platform ↔ ¬ SupportedFile filename platform := by
  constructor
  · rintro h hsup
    have hfound := h.found (h.typed.2 hsup)
    obtain ⟨hvalid, p, hp, rfl⟩ := hsup
    obtain ⟨⟨p, fileType⟩, ht, rfl⟩ := List.mem_map.1 hp
    rw [getFileType_eq hvalid ht] at hfound
    exact findFwFileByTypeOf_ne ht hfound
  · intro hno
    exact ⟨getFileType_ne_zero_iff, fun h => absurd (getFileType_ne_zero_iff.1 h) hno⟩

end Types

/-- The loader of `am62x` has U-Boot's number. -/
theorem not_typesAgree_loader : getFileType (ascii "am62x-loader.bin") (ascii "am62x") = 1 ∧
    findFwFileByTypeOf (ascii "am62x") 1 = some (ascii "am62x-uboot.bin") ∧
    ¬ TypesAgree (ascii "am62x-loader.bin") (ascii "am62x") := by
  have htype : getFileType (ascii "am62x-loader.bin") (ascii "am62x") = 1 := by decide +kernel
  have hfound : findFwFileByTypeOf (ascii "am62x") 1 = some (ascii "am62x-uboot.bin") := by
    decide +kernel
  refine ⟨htype, hfound, fun h => ?_⟩
  have hname := h.found (by rw [htype]; decide)
  rw [htype] at hname
  exact absurd (hfound.symm.trans hname) (by decide +kernel)

end Tools

end ObcSdk
