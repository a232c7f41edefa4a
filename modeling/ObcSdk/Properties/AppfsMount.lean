import ObcSdk.Properties.DeviceLinks
import ObcSdk.Rootfs.Startup
/-!
# The appfs that is mounted

The start scripts act on one device only: the partition named after the
slot that the kernel's command line announces, as long as the links are in
order. They make a file system on it only where `blkid` prints nothing of
it.
-/

namespace ObcSdk

namespace Rootfs

open Kernel

/-- The name of a slot's appfs partition. -/
def appfsName (slot : ℕ) : List Char := "appfs".toList ++ Nat.toDigits 10 slot

/-- The device of an act. -/
def Act.device : Act → BlockDevice
  | .mounted d | .formatted d => d

/-- The events of a run. -/
def ueventsOf (hs : List Happening) : List Uevent :=
  hs.filterMap fun
    | .uevent e => some e
    | _ => none

/-- The conditions under which `S10_obc_startup` makes a file system. -/
def Formats (r : Programs) : Prop :=
  r.mount ∈ [1, 19, 22, 255] ∧ substituted r.blkid = [] ∧ (r.mkfsExt4 = true ∨ r.mke2fs = true)

instance (r : Programs) : Decidable (Formats r) :=
  inferInstanceAs (Decidable (_ ∧ _ ∧ _))

section Startup

variable {w : Userland} {r : Programs} {d : BlockDevice} {info : ObcBootInfo} {h : Happening}
  {hs p : List Happening} {cmdline : List Char} {acts : List Act} {a : Act} {verb : Verb}

/-! ## The slot -/

theorem deviceAt_linkTarget : deviceAt (linkTarget d) = some d := by
  have htake : (linkTarget d).take 3 = "../".toList := rfl
  have hdrop : (linkTarget d).drop 3 = d.name := rfl
  rw [deviceAt, dif_pos ⟨htake, hdrop ▸ d.named, hdrop ▸ d.oneLine⟩]
  rfl

/-- The module announces one of the two slots. -/
theorem bootPart_le (hread : obcReadBootargs (.ok cmdline) = .ok info) : info.bootPart ≤ 1 := by
  have hparse : ∀ line, obcParseBootargs line = .ok info → info.bootPart ≤ 1 := by
    intro line hline
    rw [obcParseBootargs] at hline
    cases hpart : obcGetBootarg line "obcboot.part".toList 8 with
    | error e =>
      rw [hpart] at hline
      cases hline
    | ok part =>
      cases hmedia : obcGetBootarg line "obcboot.media".toList 8 with
      | error e =>
        rw [hpart, hmedia] at hline
        cases hline
      | ok media =>
        simp only [hpart, hmedia, bind, Except.bind] at hline
        cases hnumber : kstrtouint part with
        | none =>
          simp [hnumber] at hline
        | some partNumber =>
          simp only [hnumber] at hline
          by_cases hle : 1 < partNumber
          · rw [if_pos hle] at hline
            cases hline
          · rw [if_neg hle] at hline
            split at hline
            · cases hline
            · obtain rfl := Except.ok.inj hline
              exact Nat.not_lt.1 hle
  exact hparse _ hread

/-- The script comes to the link of the slot announced. -/
theorem appfsLink_show (hle : info.bootPart ≤ 1) :
    appfsLink (substituted (obcSysinfoPartShow info)) =
      some (linkName (appfsName info.bootPart)) := by
  rw [obcSysinfoPartShow]
  rcases Nat.le_one_iff_eq_zero_or_eq_one.1 hle with h | h
  · rw [h]
    rfl
  · rw [h]
    rfl

/-! ## One start -/

/-- What a start does to its device. -/
def startupActs (r : Programs) (d : BlockDevice) : List Act :=
  if r.mount = 0 then [.mounted d]
  else if Formats r then
    if r.format = 0 ∧ r.remount = 0 then [.mounted d, .formatted d] else [.formatted d]
  else []

theorem formatAppfsIfEmpty_eq (happfs : w.appfs = none) :
    formatAppfsIfEmpty r d r.mount w =
      if Formats r then ({ w with log := .formatted d :: w.log }, decide (r.format = 0))
      else (w, false) := by
  have humount : (if r.umount then { w with appfs := none } else w) = w := by
    split
    · rw [← happfs]
    · rfl
  rw [formatAppfsIfEmpty]
  by_cases hrc : r.mount ∈ [1, 19, 22, 255]
  · rw [if_neg (not_not.2 hrc)]
    simp only [humount]
    by_cases hempty : substituted r.blkid = []
    · rw [hempty, if_neg (by decide), if_neg (by simp)]
      by_cases htool : r.mkfsExt4 = true ∨ r.mke2fs = true
      · have htools : ¬ (r.mkfsExt4 = false ∧ r.mke2fs = false) := by
          rintro ⟨h₁, h₂⟩
          simp [h₁, h₂] at htool
        rw [if_neg htools, if_pos ⟨hrc, hempty, htool⟩]
      · rw [if_pos (by simpa using htool), if_neg fun hf => htool hf.2.2]
    · have hnot : ¬ Formats r := fun hf => hempty hf.2.1
      rw [if_neg hnot]
      split <;> rfl
  · rw [if_pos hrc, if_neg fun hf => hrc hf.1]

/-- **A start, where it finds its device.** -/
theorem obcStartup_start (happfs : w.appfs = none) (hproc : w.proc = some info)
    (hle : info.bootPart ≤ 1) (hdev : w.deviceOf (linkName (appfsName info.bootPart)) = some d) :
    obcStartup r w .start =
      { w with
        appfs := if .mounted d ∈ startupActs r d then some d else none
        log := startupActs r d ++ w.log } := by
  rw [obcStartup, if_neg (by simp [happfs])]
  simp only [hproc, appfsLink_show hle, hdev]
  by_cases hmount : r.mount = 0
  · rw [if_pos hmount, mountAppfs, if_pos hmount, startupActs, if_pos hmount]
    simp [hproc]
  · rw [if_neg hmount, mountAppfs, if_neg hmount, formatAppfsIfEmpty_eq happfs, startupActs,
      if_neg hmount]
    by_cases hformats : Formats r
    · rw [if_pos hformats, if_pos hformats]
      by_cases hformat : r.format = 0
      · by_cases hremount : r.remount = 0
        · simp [hformat, hremount, mountAppfs, hproc]
        · simp [hformat, hremount, mountAppfs, happfs, hproc]
      · simp [hformat, happfs, hproc]
    · rw [if_neg hformats, if_neg hformats]
      simp [← happfs, ← hproc]

/-- And where it does not. -/
theorem obcStartup_start_of_none (hle : ∀ info, w.proc = some info → info.bootPart ≤ 1)
    (hno : ∀ info, w.appfs = none → w.proc = some info →
      w.deviceOf (linkName (appfsName info.bootPart)) = none) :
    obcStartup r w .start = w := by
  rw [obcStartup]
  split
  · rfl
  rename_i happfs
  cases hproc : w.proc with
  | none => rfl
  | some info =>
    simp only [appfsLink_show (hle info hproc), hno info (by simpa using happfs) hproc]

/-! ## Runs -/

theorem run_concat : Userland.run cmdline (p ++ [h]) = (Userland.run cmdline p).step cmdline h :=
  foldl_concat

theorem ueventsOf_concat : ueventsOf (p ++ [h]) = ueventsOf p ++ ueventsOf [h] :=
  List.filterMap_append

/-- What a start does, to whichever device it finds. -/
theorem obcStartup_start_cases (hle : ∀ info, w.proc = some info → info.bootPart ≤ 1) :
    obcStartup r w .start = w ∨ ∃ info d, w.appfs = none ∧ w.proc = some info ∧
      w.deviceOf (linkName (appfsName info.bootPart)) = some d ∧
      obcStartup r w .start =
        { w with
          appfs := if .mounted d ∈ startupActs r d then some d else none
          log := startupActs r d ++ w.log } := by
  by_cases hfound : ∃ info d, w.appfs = none ∧ w.proc = some info ∧
      w.deviceOf (linkName (appfsName info.bootPart)) = some d
  · obtain ⟨info, d, happfs, hproc, hdev⟩ := hfound
    exact .inr ⟨info, d, happfs, hproc, hdev,
      obcStartup_start happfs hproc (hle info hproc) hdev⟩
  · refine .inl (obcStartup_start_of_none hle fun info happfs hproc => ?_)
    by_contra hne
    obtain ⟨d, hd⟩ := Option.ne_none_iff_exists'.1 hne
    exact hfound ⟨info, d, happfs, hproc, hd⟩

/-- What holds in every state of a run: the links are those of the events,
a device has its node while it is present, and what /proc/obcbase shows is
what the module reads. -/
structure Kept (cmdline : List Char) (s : System) (w : Userland) : Prop where
  links : w.links = s.links
  present : ∀ d, w.present d = (s.partname d).isSome
  proc : ∀ info, w.proc = some info → obcReadBootargs (.ok cmdline) = .ok info
  appfs : ∀ d, w.appfs = some d → .mounted d ∈ w.log

theorem Kept.bootPart_le {s : System} (hk : Kept cmdline s w) (info : ObcBootInfo)
    (hproc : w.proc = some info) : info.bootPart ≤ 1 :=
  Rootfs.bootPart_le (hk.proc info hproc)

theorem Kept.step {s : System} (hk : Kept cmdline s w) :
    Kept cmdline ((ueventsOf [h]).foldl System.handle s) (w.step cmdline h) := by
  cases h with
  | uevent e =>
    refine ⟨?_, fun d => ?_, hk.proc, hk.appfs⟩
    · change obcblock e w.links = obcblock e s.links
      rw [hk.links]
    · change Function.update w.present e.device _ d =
        (Function.update s.partname e.device _ d).isSome
      by_cases hd : d = e.device
      · rw [hd, Function.update_self, Function.update_self]
        by_cases hremove : e.action = .remove <;> simp [hremove]
      · rw [Function.update_of_ne hd, Function.update_of_ne hd]
        exact hk.present d
  | base verb r =>
    change Kept cmdline s (obcBase cmdline r w verb)
    cases verb with
    | start =>
      rw [obcBase]
      split
      · exact hk
      split
      · exact hk
      · refine ⟨hk.links, hk.present, fun info hproc => ?_, hk.appfs⟩
        change insmod cmdline r = some info at hproc
        rw [insmod] at hproc
        cases hread : obcReadBootargs (.ok cmdline) with
        | error e =>
          rw [hread] at hproc
          cases hproc
        | ok found =>
          simp only [hread] at hproc
          split at hproc
          · rw [Option.some.inj hproc]
          · cases hproc
    | stop =>
      rw [obcBase]
      split
      · exact ⟨hk.links, hk.present, (fun _ hproc => by cases hproc), hk.appfs⟩
      · exact hk
  | startup verb r =>
    change Kept cmdline s (obcStartup r w verb)
    cases verb with
    | start =>
      rcases obcStartup_start_cases (r := r) hk.bootPart_le with heq | ⟨info, d, -, -, -, heq⟩
      · rw [heq]
        exact hk
      · rw [heq]
        refine ⟨hk.links, hk.present, hk.proc, fun d' hd' => ?_⟩
        change (if _ then some d else none) = some d' at hd'
        split at hd'
        · rename_i hmem
          obtain rfl := Option.some.inj hd'
          exact List.mem_append_left _ hmem
        · cases hd'
    | stop =>
      rw [obcStartup]
      split
      · exact ⟨hk.links, hk.present, hk.proc, fun _ hd => by cases hd⟩
      · exact hk

theorem kept_run (cmdline : List Char) (hs : List Happening) :
    Kept cmdline (handleAll (ueventsOf hs)) (Userland.run cmdline hs) := by
  induction hs using List.reverseRecOn with
  | nil => exact ⟨rfl, fun _ => rfl, (fun _ hproc => by cases hproc), fun _ hd => by cases hd⟩
  | append_singleton hs h ih =>
    rw [run_concat, ueventsOf_concat, handleAll, List.foldl_append]
    exact ih.step

/-- What one happening does to the devices. -/
theorem Kept.log_step {s : System} (hk : Kept cmdline s w) :
    (w.step cmdline h).log = w.log ∨ ∃ r info d, h = .startup .start r ∧ w.appfs = none ∧
      w.proc = some info ∧ w.deviceOf (linkName (appfsName info.bootPart)) = some d ∧
      (w.step cmdline h).log = startupActs r d ++ w.log := by
  cases h with
  | uevent e => exact .inl rfl
  | base verb r =>
    refine .inl ?_
    change (obcBase cmdline r w verb).log = w.log
    cases verb with
    | start =>
      rw [obcBase]
      split
      · rfl
      · split <;> rfl
    | stop =>
      rw [obcBase]
      split <;> rfl
  | startup verb r =>
    cases verb with
    | start =>
      rcases obcStartup_start_cases (r := r) hk.bootPart_le with heq | ⟨info, d, h₁, h₂, h₃, heq⟩
      · exact .inl (congrArg Userland.log heq)
      · exact .inr ⟨r, info, d, rfl, h₁, h₂, h₃, congrArg Userland.log heq⟩
    | stop =>
      refine .inl ?_
      change (obcStartup r w .stop).log = w.log
      rw [obcStartup]
      split <;> rfl

theorem device_of_mem_startupActs (ha : a ∈ startupActs r d) : a.device = d := by
  rw [startupActs] at ha
  split at ha
  · rw [List.mem_singleton.1 ha]
    rfl
  split at ha
  · split at ha
    · rcases List.mem_pair.1 ha with rfl | rfl <;> rfl
    · rw [List.mem_singleton.1 ha]
      rfl
  · simp at ha

theorem formatted_mem_startupActs : .formatted d ∈ startupActs r d ↔ Formats r := by
  rw [startupActs]
  split
  · rename_i hmount
    simp [Formats, hmount]
  split
  · rename_i hformats
    refine iff_of_true ?_ hformats
    split <;> simp
  · rename_i hformats
    simp [hformats]

/-- **The device a link leads to**, where the names are right. -/
theorem Kept.partname {s : System} (hk : Kept cmdline s w) (hright : s.NamesRight)
    {n : List Char} (hdev : w.deviceOf (linkName n) = some d) : s.partname d = some n := by
  rw [Userland.deviceOf, Option.filter_eq_some_iff, Option.bind_eq_some_iff] at hdev
  obtain ⟨⟨target, htarget, hat⟩, -⟩ := hdev
  rw [hk.links] at htarget
  obtain ⟨d', rfl, hname⟩ := hright.right n target htarget
  rw [deviceAt_linkTarget, Option.some.injEq] at hat
  rwa [← hat]

/-- The names are right after events that are in their order. -/
theorem namesRight_of_orderly {es : List Uevent}
    (h : ∀ q e, q ++ [e] <+: es → e.Orderly (handleAll q)) : (handleAll es).NamesRight := by
  simp only [handleAll_of] at h
  rw [handleAll_of, namesRight_of]
  refine (foldl_invariant_iff (fun R (e : Uevent) => e.Orderly (.of R)) Registry.faithful_empty
    ?_).2 h es (List.prefix_refl _)
  intro p e _ hp
  exact note_faithful_iff hp

/-- When a file system is made: a step of a run makes one on a device
exactly where it is a start of `S10_obc_startup` that finds /appfs unused,
and the device behind the link of the boot slot, mounts it in vain with a
status that the script knows, and has `blkid` print nothing. -/
theorem formats_iff (cmdline : List Char) (p : List Happening) (h : Happening) (acts : List Act)
    (d : BlockDevice) (hlog : (Userland.run cmdline (p ++ [h])).log =
      acts ++ (Userland.run cmdline p).log) :
    .formatted d ∈ acts ↔ ∃ r info, h = .startup .start r ∧
      (Userland.run cmdline p).appfs = none ∧ (Userland.run cmdline p).proc = some info ∧
      (Userland.run cmdline p).deviceOf (linkName (appfsName info.bootPart)) = some d ∧
      Formats r := by
  have hk := kept_run cmdline p
  rw [run_concat] at hlog
  rcases hk.log_step (h := h) with hsame | ⟨r, info, d', rfl, happfs, hproc, hdev, hacts⟩
  · rw [hsame, List.self_eq_append_left] at hlog
    rw [hlog]
    refine iff_of_false (by simp) ?_
    rintro ⟨r, info, rfl, happfs, hproc, hdev, hformats⟩
    have heq := congrArg Userland.log (obcStartup_start (r := r) happfs hproc
      (hk.bootPart_le info hproc) hdev)
    have hnil : startupActs r d = [] := List.self_eq_append_left.1 (hsame.symm.trans heq)
    have hmem : .formatted d ∈ startupActs r d := formatted_mem_startupActs.2 hformats
    rw [hnil] at hmem
    simp at hmem
  · rw [hacts, List.append_cancel_right_eq] at hlog
    subst hlog
    constructor
    · intro hmem
      obtain rfl : d = d' := device_of_mem_startupActs hmem
      exact ⟨r, info, rfl, happfs, hproc, hdev, formatted_mem_startupActs.1 hmem⟩
    · rintro ⟨r', info', hr, -, hproc', hdev', hformats⟩
      obtain rfl : r = r' := by simpa using hr
      obtain rfl : info = info' := Option.some.inj (hproc.symm.trans hproc')
      obtain rfl : d' = d := Option.some.inj (hdev.symm.trans hdev')
      exact formatted_mem_startupActs.2 hformats

/-- **The scripts act on the boot slot's appfs only.** In a run of events
and scripts in any order, whatever a step does to a device, the device is
at that moment the one that is named after the slot the kernel's command
line announces, if the events are in their order; a file system is made
only where nothing is mounted and `blkid` prints nothing; and what is on
/appfs was mounted so. -/
theorem acts_on_boot_slot (cmdline : List Char) (hs : List Happening)
    (horder : ∀ q e, q ++ [e] <+: ueventsOf hs → e.Orderly (handleAll q)) :
    (∀ p h acts, p ++ [h] <+: hs →
      (Userland.run cmdline (p ++ [h])).log = acts ++ (Userland.run cmdline p).log →
      (∀ a ∈ acts, ∃ info, obcReadBootargs (.ok cmdline) = .ok info ∧
        (handleAll (ueventsOf p)).partname a.device = some (appfsName info.bootPart)) ∧
      ∀ d, .formatted d ∈ acts → (Userland.run cmdline p).appfs = none ∧
        ∃ r, h = .startup .start r ∧ Formats r) ∧
      ∀ d, (Userland.run cmdline hs).appfs = some d →
        .mounted d ∈ (Userland.run cmdline hs).log := by
  refine ⟨fun p h acts hp hlog => ⟨fun a ha => ?_, fun d hd => ?_⟩, (kept_run cmdline hs).appfs⟩
  · have hk := kept_run cmdline p
    rw [run_concat] at hlog
    rcases hk.log_step (h := h) with hsame | ⟨r, info, d, rfl, -, hproc, hdev, hacts⟩
    · rw [hsame, List.self_eq_append_left] at hlog
      rw [hlog] at ha
      simp at ha
    · rw [hacts, List.append_cancel_right_eq] at hlog
      subst hlog
      refine ⟨info, hk.proc info hproc, ?_⟩
      rw [device_of_mem_startupActs ha]
      have hpre : ueventsOf p <+: ueventsOf hs :=
        ((List.prefix_append p _).trans hp).filterMap _
      exact hk.partname (namesRight_of_orderly fun q e hq => horder q e (hq.trans hpre)) hdev
  · obtain ⟨r, info, hstart, happfs, -, -, hformats⟩ :=
      (formats_iff cmdline p h acts d hlog).1 hd
    exact ⟨happfs, r, hstart, hformats⟩

/-! ## The boot -/

/-- An `add` sets the link of the name it enters. -/
theorem obcblock_add {e : Uevent} (hadd : e.action = .add) {links : LinkDir} {n : List Char} :
    obcblock e links (linkName n) =
      if e.entered = some n then some (linkTarget e.device) else links (linkName n) := by
  have hname : ∀ m, linkName n = linkName m ↔ some m = some n := by
    intro m
    rw [linkName, linkName, List.append_cancel_left_eq, Option.some.injEq, eq_comm]
  rw [obcblock, hadd, Uevent.entered]
  simp only
  cases e.uevent with
  | none => rfl
  | some content =>
    simp only
    split
    · simp only [hname]
    · rfl

/-- What `mdev -s` leaves of a name that one device has only. -/
theorem links_coldplug {es : List Uevent} {n : List Char} (hadd : ∀ e ∈ es, e.action = .add)
    (hsole : ∀ e ∈ es, e.entered = some n → e.device = d) {s : System}
    (hs : s.links (linkName n) = some (linkTarget d) ∨ ∃ e ∈ es, e.entered = some n) :
    (es.foldl System.handle s).links (linkName n) = some (linkTarget d) := by
  induction es generalizing s with
  | nil => simpa using hs
  | cons e es ih =>
    rw [List.forall_mem_cons] at hadd hsole
    refine ih hadd.2 hsole.2 ?_
    change obcblock e s.links (linkName n) = _ ∨ _
    rw [obcblock_add hadd.1]
    by_cases he : e.entered = some n
    · rw [if_pos he, hsole.1 he]
      exact .inl rfl
    · rw [if_neg he]
      refine hs.imp_right ?_
      rintro ⟨e', he', hn⟩
      rcases List.mem_cons.1 he' with rfl | he'
      · exact absurd hn he
      · exact ⟨e', he', hn⟩

/-- And every device it found is there. -/
theorem present_coldplug {es : List Uevent} (hadd : ∀ e ∈ es, e.action = .add) {s : System}
    (hs : (s.partname d).isSome = true ∨ ∃ e ∈ es, e.device = d) :
    ((es.foldl System.handle s).partname d).isSome = true := by
  induction es generalizing s with
  | nil => simpa using hs
  | cons e es ih =>
    rw [List.forall_mem_cons] at hadd
    refine ih hadd.2 ?_
    change (Function.update s.partname e.device _ d).isSome = true ∨ _
    by_cases he : d = e.device
    · left
      rw [he, Function.update_self, hadd.1]
      rfl
    · rw [Function.update_of_ne he]
      refine hs.imp_right ?_
      rintro ⟨e', he', hd⟩
      rcases List.mem_cons.1 he' with rfl | he'
      · exact absurd hd.symm he
      · exact ⟨e', he', hd⟩

theorem ueventsOf_map (es : List Uevent) : ueventsOf (es.map .uevent) = es := by
  induction es with
  | nil => rfl
  | cons e es ih => exact congrArg _ ih

variable (cmdline) in
/-- Events touch the links and the nodes only. -/
theorem run_uevents (es : List Uevent) :
    (Userland.run cmdline (es.map .uevent)).proc = none ∧
      (Userland.run cmdline (es.map .uevent)).appfs = none ∧
      (Userland.run cmdline (es.map .uevent)).log = [] := by
  induction es using List.reverseRecOn with
  | nil => exact ⟨rfl, rfl, rfl⟩
  | append_singleton es e ih =>
    rw [List.map_append, List.map_singleton, run_concat]
    exact ih

end Startup

/-! ## A boot from slot 0 -/

def sampleCmdline : List Char := "obcboot.part=0 obcboot.media=emmc".toList

def sampleInfo : ObcBootInfo := ⟨"emmc".toList, 0, 0, "mmcblk0".toList⟩

def mmcblk0p7 : BlockDevice := ⟨"mmcblk0p7".toList, by decide, by decide⟩

/-- The appfs partition of slot 0 is found. -/
def samplePlug : Uevent :=
  ⟨mmcblk0p7, .add, some "DEVNAME=mmcblk0p7\nPARTNAME=appfs0\n".toList⟩

/-- It cannot be mounted, and `blkid` prints nothing. -/
def samplePrograms : Programs where
  moduleReadable := true
  procEntries := true
  rmmod := true
  mount := 255
  blkid := []
  mkfsExt4 := false
  mke2fs := true
  format := 0
  remount := 0
  umount := false

theorem sampleInfo_read : obcReadBootargs (.ok sampleCmdline) = .ok sampleInfo := by
  decide +kernel

theorem samplePlug_orderly : samplePlug.Orderly (handleAll []) := by
  refine ⟨fun n hn heq => ?_, fun n hlink => ?_, fun n d' _ hname => ?_⟩
  · have hlast : (n ++ ['=']).getLast? = some '0' := heq ▸ by decide
    rw [List.getLast?_concat] at hlast
    exact absurd hlast (by decide)
  · cases hlink
  · cases hname

theorem acts_on_boot_slot_sample :
    (∀ p h acts, p ++ [h] <+: rcS [samplePlug] samplePrograms →
      (Userland.run sampleCmdline (p ++ [h])).log =
        acts ++ (Userland.run sampleCmdline p).log →
      (∀ a ∈ acts, ∃ info, obcReadBootargs (.ok sampleCmdline) = .ok info ∧
        (handleAll (ueventsOf p)).partname a.device = some (appfsName info.bootPart)) ∧
      ∀ d, .formatted d ∈ acts → (Userland.run sampleCmdline p).appfs = none ∧
        ∃ r, h = .startup .start r ∧ Formats r) ∧
      ∀ d, (Userland.run sampleCmdline (rcS [samplePlug] samplePrograms)).appfs = some d →
        .mounted d ∈ (Userland.run sampleCmdline (rcS [samplePlug] samplePrograms)).log := by
  refine acts_on_boot_slot sampleCmdline _ ?_
  change ∀ q e, q ++ [e] <+: [samplePlug] → e.Orderly (handleAll q)
  rw [forall_prefix_cons]
  exact ⟨samplePlug_orderly, forall_prefix_nil⟩

end Rootfs

end ObcSdk
