import ObcSdk.Boot.Bench
import ObcSdk.Boot.Commandline
import ObcSdk.Kernel.Obcbase
/-!
# The boot source

U-Boot announces the slot and the medium it boots from behind the
partition table, in one line of text, and a kernel module takes them out
of it again. The two agree whatever table stands before the
announcement, unless a label brings in a separator of its own.
-/

namespace ObcSdk

namespace Boot

open Kernel

/-- The device's name and the console's argument that
`am62x_board_args_init` passes on. -/
def am62xArgs (boot : BoardAbilityBoot) : List Char × List Char :=
  if boot.iBootMedia = boardAbilityDevSd then
    (configAm62xSdDevName,
      if boot.iPartType = obcSlotB then configAm62xBootargsSdB else configAm62xBootargsSd)
  else
    (configAm62xEmmcDevName,
      if boot.iPartType = obcSlotB then configAm62xBootargsEmmcB else configAm62xBootargsEmmc)

/-- A call of `obc_bootargs_set` fits its arrays: nothing is stored
outside one, and the line is not refused. -/
structure ArgsFit (U : UBoot) (w : World) (device console : List Char) : Prop where
  arrays : Call.overrun ∉ w.since (obcBootargsSet U w device console).2
  accepted : (obcBootargsSet U w device console).1 = 0

/-- The kernel reads the boot source of `boot` out of a line: its slot,
its medium and the device the partitions were announced for, each from
the only field there is of its key. -/
structure ReadsSource (boot : BoardAbilityBoot) (line : List Char) : Prop where
  read : obcReadBootargs (.ok line) = .ok
    { media := (bootMediaName boot.iBootMedia).toList
      mediaId := if boot.iBootMedia = boardAbilityDevSd then 1 else 0
      bootPart := boot.iPartType.toNat
      device := (am62xArgs boot).1 }
  device : ∃ parts, fields ' ' '=' "blkdevparts".toList (strreplace line '\n' ' ') =
    [(am62xArgs boot).1 ++ ':' :: parts]
  part : fields ' ' '=' "obcboot.part".toList (strreplace line '\n' ' ') =
    [Nat.toDigits 10 boot.iPartType.toNat]
  media : fields ' ' '=' "obcboot.media".toList (strreplace line '\n' ' ') =
    [(bootMediaName boot.iBootMedia).toList]

section Source

variable {U : UBoot} {w : World} {boot : BoardAbilityBoot} {device console line text : List Char}
  {c : Char}

theorem am62xBoardArgsInit_eq (hnfs : w.env "boot_from_nfs" ≠ some "1") :
    (am62xBoardArgsInit U w).2 = (obcBootargsSet U w (am62xArgs w.stAbility.stBoot).1
      (am62xArgs w.stAbility.stBoot).2).2 := by
  by_cases hsd : w.stAbility.stBoot.iBootMedia = boardAbilityDevSd
  · have hargs : am62xArgs w.stAbility.stBoot = (configAm62xSdDevName,
        if w.stAbility.stBoot.iPartType = obcSlotB then configAm62xBootargsSdB
        else configAm62xBootargsSd) := if_pos hsd
    rw [hargs, am62xBoardArgsInit, if_neg hnfs]
    simp only
    rw [if_pos hsd]
    split <;> simp only
  · have hargs : am62xArgs w.stAbility.stBoot = (configAm62xEmmcDevName,
        if w.stAbility.stBoot.iPartType = obcSlotB then configAm62xBootargsEmmcB
        else configAm62xBootargsEmmc) := if_neg hsd
    rw [hargs, am62xBoardArgsInit, if_neg hnfs]
    simp only
    rw [if_neg hsd]
    split <;> simp only

/-- A call that fits publishes the table's text. -/
theorem ArgsFit.published (h : ArgsFit U w device console) (hdev : '\x00' ∉ device)
    (hlen : device.length ≤ 62) : (bootargsText U w device console).length < 1024 ∧
      (obcBootargsSet U w device console).2 =
        w.envSet "bootargs" (String.ofList (bootargsText U w device console)) := by
  have hcap :
      (blkdevpartsText device (shownParts (w.parts U) 0 w.partCount.toNat)).length < 512 := by
    by_contra hlong
    exact h.arrays (obcBootargsSet_of_le (by omega))
  have hset := obcBootargsSet_of_lt console hdev hlen hcap
  have hret := h.accepted
  by_cases hfull : 1024 ≤ ("setenv bootargs ".toList ++ bootargsText U w device console).length
  · rw [hset, if_pos hfull] at hret
    cases hret
  · rw [hset, if_neg hfull]
    rw [List.length_append] at hfull
    exact ⟨by omega, rfl⟩

/-- The line is the console's argument and three fields. -/
theorem bootargsText_eq : bootargsText U w device console = console ++ ' ' ::
    ("blkdevparts".toList ++ '=' ::
      blkdevpartsText device (shownParts (w.parts U) 0 w.partCount.toNat)) ++ ' ' ::
    ("obcboot.part".toList ++ '=' :: Nat.toDigits 10 w.stAbility.stBoot.iPartType.toNat) ++ ' ' ::
    ("obcboot.media".toList ++ '=' :: (bootMediaName w.stAbility.stBoot.iBootMedia).toList) := by
  have h₁ : " blkdevparts=".toList = ' ' :: ("blkdevparts".toList ++ ['=']) := rfl
  have h₂ : " obcboot.part=".toList = ' ' :: ("obcboot.part".toList ++ ['=']) := rfl
  have h₃ : " obcboot.media=".toList = ' ' :: ("obcboot.media".toList ++ ['=']) := rfl
  simp only [bootargsText, h₁, h₂, h₃, List.append_assoc, List.cons_append, List.nil_append]

/-- What a console's argument leaves alone: it brings no field of the
keys, does not end a line or a string, and is not long. -/
structure Plain (console : List Char) : Prop where
  device : fields ' ' '=' "blkdevparts".toList console = []
  part : fields ' ' '=' "obcboot.part".toList console = []
  media : fields ' ' '=' "obcboot.media".toList console = []
  newline : '\n' ∉ console
  nul : '\x00' ∉ console
  length : console.length ≤ 128

/-- A text written as two strings, from their characters. -/
theorem plain_toList_append {as bs : List Char} {a b : String} (ha : a.toList = as)
    (hb : b.toList = bs) (h : Plain (as ++ bs)) : Plain (a ++ b).toList := by
  rwa [String.toList_append, ha, hb]

/-- The console's arguments are plain. -/
theorem plain_am62xArgs : Plain (am62xArgs boot).2 := by
  unfold am62xArgs configAm62xBootargsSd configAm62xBootargsSdB configAm62xBootargsEmmc
    configAm62xBootargsEmmcB
  split
  all_goals
    simp only
    split
    all_goals
      refine plain_toList_append String.toList_ofList String.toList_ofList ?_
      constructor <;> decide +kernel

/-- **The fields of the line** are those of the console's argument and the
three behind it. -/
theorem fields_bootargsText {key : List Char}
    (hparts : ' ' ∉ blkdevpartsText device (shownParts (w.parts U) 0 w.partCount.toNat)) :
    fields ' ' '=' key (bootargsText U w device console) = fields ' ' '=' key console ++
      ((if "blkdevparts".toList = key then
        [blkdevpartsText device (shownParts (w.parts U) 0 w.partCount.toNat)] else []) ++
      ((if "obcboot.part".toList = key then
        [Nat.toDigits 10 w.stAbility.stBoot.iPartType.toNat] else []) ++
      (if "obcboot.media".toList = key then
        [(bootMediaName w.stAbility.stBoot.iBootMedia).toList] else []))) := by
  have hpart : ' ' ∉ Nat.toDigits 10 w.stAbility.stBoot.iPartType.toNat := fun h =>
    Numeral.not_isDigit (by decide) (Numeral.isDigit_of_mem_toDigits (by decide) (by decide) h)
  have hmedia : ' ' ∉ (bootMediaName w.stAbility.stBoot.iBootMedia).toList := by
    unfold bootMediaName
    split
    · decide
    split <;> decide
  rw [bootargsText_eq, List.append_assoc, List.cons_append, List.append_assoc, List.cons_append,
    fields_append_cons, fields_append_cons, fields_append_cons,
    fields_field (by decide) (by simpa using hparts),
    fields_field (by decide) (by simpa using hpart),
    fields_field (by decide) (by simpa using hmedia)]

/-- A space in front of nothing brings no field, and a newline counts as
one. -/
theorem fields_strreplace {key : List Char} (htext : '\n' ∉ text)
    (hline : line = text ∨ line = text ++ ['\n']) :
    fields ' ' '=' key (strreplace line '\n' ' ') = fields ' ' '=' key text := by
  have hsame : strreplace text '\n' ' ' = text := by
    unfold strreplace
    conv_rhs => rw [← List.map_id text]
    refine List.map_congr_left ?_
    intro c hc
    have hne : c ≠ '\n' := fun h => htext (h ▸ hc)
    exact if_neg hne
  rcases hline with rfl | rfl
  · rw [hsame]
  · have hend : strreplace (text ++ ['\n']) '\n' ' ' = text ++ ' ' :: [] := by
      conv_rhs => rw [← hsame]
      rw [strreplace, List.map_append]
      rfl
    rw [hend, fields_append_cons]
    exact List.append_nil _

/-- What no part has, and no comma is, the parts together do not have. -/
theorem not_mem_partsText {ps : List BoardAbilityBlkParts} (hcomma : c ≠ ',')
    (hpart : ∀ p ∈ ps, c ∉ partText p) : c ∉ partsText ps := by
  induction ps with
  | nil => simp [partsText]
  | cons p ps ih =>
    have hp := hpart p List.mem_cons_self
    have hps := ih fun q hq => hpart q (List.mem_cons_of_mem _ hq)
    by_cases hnil : ps = []
    · rw [hnil]
      exact hp
    · rw [partsText_cons p hnil]
      simp [hp, hps, hcomma]

/-- The argument's text has no blank, newline or NUL that no label
brings in. -/
theorem not_mem_blkdevpartsText {ps : List BoardAbilityBlkParts}
    (hc : c = ' ' ∨ c = '\n' ∨ c = '\x00') (hdev : c ∉ device) (hname : ∀ p ∈ ps, c ∉ p.name) :
    c ∉ blkdevpartsText device ps := by
  have hdigit : ∀ (b n : ℕ), 1 < b → b ≤ 16 → c ∉ Nat.toDigits b n := fun b n hb hb' h =>
    Numeral.not_isDigit (b := b) (by rcases hc with rfl | rfl | rfl <;> decide)
      (Numeral.isDigit_of_mem_toDigits hb hb' h)
  have hx : ∀ v, c ∉ formatX v := fun v => hdigit 16 _ (by decide) (by decide)
  have hd : ∀ v, c ∉ formatD v := by
    intro v
    unfold formatD
    simp only
    split
    · refine List.not_mem_cons_of_ne_of_not_mem ?_ (hdigit 10 _ (by decide) (by decide))
      rcases hc with rfl | rfl | rfl <;> decide
    · exact hdigit 10 _ (by decide) (by decide)
  have hmark : ∀ d ∈ ['M', 'K', '0', 'x', '@', '(', ')', ',', ':'], c ≠ d := by
    have hnot : c ∉ ['M', 'K', '0', 'x', '@', '(', ')', ',', ':'] := by
      rcases hc with rfl | rfl | rfl <;> decide
    exact fun d hd h => hnot (h ▸ hd)
  have hsize : ∀ size, c ∉ sizeText size := by
    intro size
    unfold sizeText
    split
    · simp [hd, hmark]
    split
    · simp [hd, hmark]
    · simp [hx, hmark]
  have hpart : ∀ p : BoardAbilityBlkParts, c ∉ p.name → c ∉ partText p := by
    intro p hp
    simp [partText, hsize, hx, hp, hmark]
  have hparts : c ∉ partsText ps :=
    not_mem_partsText (hmark ',' (by decide)) fun p hp => hpart p (hname p hp)
  simp [blkdevpartsText, hdev, hparts, hmark]

/-- The line does not end before its end. -/
theorem not_mem_bootargsText (hc : c = '\n' ∨ c = '\x00') (hconsole : c ∉ console)
    (hdev : c ∉ device)
    (hname : ∀ p ∈ shownParts (w.parts U) 0 w.partCount.toNat, c ∉ p.name) :
    c ∉ bootargsText U w device console := by
  have hparts := not_mem_blkdevpartsText (Or.inr hc) hdev hname
  have hdigits : c ∉ Nat.toDigits 10 w.stAbility.stBoot.iPartType.toNat := fun h =>
    Numeral.not_isDigit (b := 10) (by rcases hc with rfl | rfl <;> decide)
      (Numeral.isDigit_of_mem_toDigits (by decide) (by decide) h)
  have hmedia : c ∉ (bootMediaName w.stAbility.stBoot.iBootMedia).toList := by
    unfold bootMediaName
    rcases hc with rfl | rfl
    · split
      · decide
      split <;> decide
    · split
      · decide
      split <;> decide
  have hkeys : c ∉ " blkdevparts=".toList ∧ c ∉ " obcboot.part=".toList ∧
      c ∉ " obcboot.media=".toList := by
    rcases hc with rfl | rfl <;> decide
  simp only [bootargsText, List.mem_append, not_or]
  exact ⟨⟨⟨⟨⟨⟨hconsole, hkeys.1⟩, hparts⟩, hkeys.2.1⟩, hdigits⟩, hkeys.2.2⟩, hmedia⟩

variable (boot) in
theorem am62xArgs_device : (am62xArgs boot).1 = configAm62xSdDevName ∨
    (am62xArgs boot).1 = configAm62xEmmcDevName := by
  unfold am62xArgs
  split
  · exact Or.inl rfl
  · exact Or.inr rfl

/-- What the module makes of the fields of its keys, for a slot and a
medium there are. -/
theorem obcParseBootargs_of_fields (hpart : boot.iPartType ≤ 1)
    (hmedia : boot.iBootMedia = boardAbilityDevEmmc ∨ boot.iBootMedia = boardAbilityDevSd)
    (hfpart : fields ' ' '=' "obcboot.part".toList line = [Nat.toDigits 10 boot.iPartType.toNat])
    (hfmedia : fields ' ' '=' "obcboot.media".toList line =
      [(bootMediaName boot.iBootMedia).toList]) :
    obcParseBootargs line = .ok
      { media := (bootMediaName boot.iBootMedia).toList
        mediaId := if boot.iBootMedia = boardAbilityDevSd then 1 else 0
        bootPart := boot.iPartType.toNat
        device := (am62xArgs boot).1 } := by
  have hslot : boot.iPartType = 0 ∨ boot.iPartType = 1 := by
    have h := UInt8.le_iff_toNat_le.1 hpart
    rcases Nat.le_one_iff_eq_zero_or_eq_one.1 h with h | h
    · exact Or.inl (UInt8.toNat_inj.1 h)
    · exact Or.inr (UInt8.toNat_inj.1 h)
  have hdev : (am62xArgs boot).1 = if boot.iBootMedia = boardAbilityDevSd then
      configAm62xSdDevName else configAm62xEmmcDevName := by
    rw [am62xArgs, apply_ite Prod.fst]
  rw [hdev]
  simp only [obcParseBootargs, obcGetBootarg_eq, hfpart, hfmedia]
  rcases hslot with hs | hs <;> rcases hmedia with hm | hm <;> rw [hs, hm] <;> decide +kernel

/-- A table whose `blkdevparts` argument fits its array fits the line. -/
theorem argsFit_of_lt
    (hcap : (blkdevpartsText (am62xArgs boot).1
      (shownParts (w.parts U) 0 w.partCount.toNat)).length < 512) :
    ArgsFit U w (am62xArgs boot).1 (am62xArgs boot).2 := by
  obtain ⟨device, hdevice⟩ : ∃ d, (am62xArgs boot).1 = d := ⟨_, rfl⟩
  obtain ⟨console, hconsole⟩ : ∃ c, (am62xArgs boot).2 = c := ⟨_, rfl⟩
  have hplain : Plain console := hconsole ▸ plain_am62xArgs
  rw [hdevice] at hcap ⊢
  rw [hconsole]
  obtain ⟨hlen, hnul⟩ : device.length ≤ 62 ∧ '\x00' ∉ device := by
    rcases am62xArgs_device boot with h | h <;> rw [hdevice] at h <;> rw [h] <;> decide
  have hset := obcBootargsSet_of_lt console hnul hlen hcap
  -- what is not the argument has fewer than the other half of the line
  have hshort : ("setenv bootargs ".toList ++ bootargsText U w device console).length < 1024 := by
    have hdigits : (Nat.toDigits 10 w.stAbility.stBoot.iPartType.toNat).length ≤ 3 :=
      length_toDigits_le (by decide) (by decide) (w.stAbility.stBoot.iPartType.toNat_lt.trans
        (by decide))
    have hmedia : (bootMediaName w.stAbility.stBoot.iBootMedia).toList.length ≤ 7 := by
      unfold bootMediaName
      split
      · decide
      split <;> decide
    have hkeys : "setenv bootargs ".toList.length = 16 ∧ " blkdevparts=".toList.length = 13 ∧
        " obcboot.part=".toList.length = 14 ∧ " obcboot.media=".toList.length = 15 := by decide
    have hc := hplain.length
    simp only [bootargsText, List.length_append, hkeys]
    omega
  rw [if_neg (Nat.not_le.2 hshort)] at hset
  refine ⟨?_, by rw [hset]⟩
  rw [hset, World.since_envSet]
  exact List.not_mem_nil

end Source

open Bench

/-- A world whose only label starts a line of its own. -/
def newlineWorld : World :=
  let w := world fun _ => 0
  { w with stAbility :=
      { w.stAbility with
        stBlk :=
          { w.stAbility.stBlk with
            stPartsMmc := Vector.replicate _ (part "\nobcboot.part=1" 0x100000 0x100000)
            iPartCountMmc := 1 } } }

end Boot

end ObcSdk
