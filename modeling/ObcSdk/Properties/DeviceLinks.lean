import ObcSdk.Lib.Registry
import ObcSdk.Lib.Runs
import ObcSdk.Rootfs.Obcblock
/-!
# Links that name the right device

The links of /dev/obcblock are a registry of the block devices by their
partitions' names, and the script keeps it up event by event. A removal
strikes all of a device's links. An `add` or a `change` sets one and
strikes none, so a device that comes to another name is still found
under the old one.
-/

namespace ObcSdk

namespace Rootfs

/-! ## The system -/

/-- The name in a `uevent` file: what the first line of that key has
behind its equals sign. -/
def partnameOf (lines : List (List Char)) : List Char :=
  match lines.find? fun line => line.takeWhile (· ≠ '=') = partnameKey with
  | some line => behindEq line
  | none => []

/-- The device's `PARTNAME` at an event, empty where it has none. -/
def Uevent.partname (e : Uevent) : List Char :=
  match e.uevent with
  | some content => partnameOf (readLines content)
  | none => []

/-- The links, and for each device that is present its `PARTNAME` at its
latest event. -/
structure System where
  links : LinkDir
  partname : BlockDevice → Option (List Char)

namespace System

/-- No device yet, and no link. -/
def start : System := ⟨fun _ => none, fun _ => none⟩

/-- One event, and the script run for it. -/
def handle (s : System) (e : Uevent) : System where
  links := obcblock e s.links
  partname := Function.update s.partname e.device
    (if e.action = .remove then none else some e.partname)

/-- Every link leads to a device that is present and has its name, and
every device whose name is valid and no other's has its link. -/
structure NamesRight (s : System) : Prop where
  right : ∀ n target, s.links (linkName n) = some target →
    ∃ d, target = linkTarget d ∧ s.partname d = some n
  found : ∀ d n, s.partname d = some n → ValidPartname n →
    (∀ c, s.partname c = some n → c = d) → s.links (linkName n) = some (linkTarget d)

/-- The device `d` may leave its name and have `a`: where one device is
left with a valid name, the link is that one's. -/
def MayLeave (s : System) (d : BlockDevice) (a : Option (List Char)) : Prop :=
  ∀ n d', d' ≠ d → s.partname d = some n → s.partname d' = some n → a ≠ some n →
    ValidPartname n → (∀ c, s.partname c = some n → c = d ∨ c = d') →
    s.links (linkName n) = some (linkTarget d')

end System

/-- The events, from the start. -/
def handleAll (es : List Uevent) : System := es.foldl System.handle .start

/-- An event in its order: no device that a link leads to comes to
another name, no name is a valid one with an equals sign behind it, and
the device may leave the name it had. -/
def Uevent.Orderly (e : Uevent) (s : System) : Prop :=
  match e.action with
  | .add | .change =>
    (∀ n, ValidPartname n → e.partname ≠ n ++ ['=']) ∧
      (∀ n, s.links (linkName n) = some (linkTarget e.device) → n = e.partname) ∧
      s.MayLeave e.device (some e.partname)
  | .remove => s.MayLeave e.device none

/-! ## The links are a registry -/

/-- The links of a registry. -/
def linksOf (R : Registry (List Char) BlockDevice) : LinkDir := fun link =>
  if linkPrefix <+: link then (R.entry (link.drop linkPrefix.length)).map linkTarget else none

/-- The system of one. -/
def System.of (R : Registry (List Char) BlockDevice) : System := ⟨linksOf R, R.name⟩

/-- The name under which an `add` or a `change` enters the device. -/
def Uevent.entered (e : Uevent) : Option (List Char) :=
  match e.uevent with
  | some content =>
    let partname := readPartname (readLines content)
    if ValidPartname partname then some partname else none
  | none => none

/-- What an event is to a registry. -/
def Uevent.note (R : Registry (List Char) BlockDevice) (e : Uevent) :
    Registry (List Char) BlockDevice :=
  match e.action with
  | .add | .change => R.call e.device e.partname e.entered
  | .remove => R.strike e.device

section Registry

variable {R : Registry (List Char) BlockDevice} {e : Uevent} {d d' : BlockDevice}
  {n p link : List Char} {a : Option (List Char)} {lines : List (List Char)}

theorem linkTarget_inj : linkTarget d = linkTarget d' ↔ d = d' := by
  constructor
  · intro h
    have hname : d.name = d'.name := List.append_cancel_left h
    cases d
    cases d'
    cases hname
    rfl
  · rintro rfl
    rfl

theorem map_linkTarget {o : Option BlockDevice} :
    o.map linkTarget = some (linkTarget d) ↔ o = some d := by
  cases o with
  | none => simp
  | some c => simp [linkTarget_inj]

@[simp] theorem linksOf_linkName : linksOf R (linkName n) = (R.entry n).map linkTarget := by
  rw [linksOf, linkName, if_pos (List.prefix_append _ _), List.drop_left]

@[simp] theorem of_links : (System.of R).links (linkName n) = (R.entry n).map linkTarget :=
  linksOf_linkName

theorem linksOf_elsewhere (h : ¬ linkPrefix <+: link) : linksOf R link = none := if_neg h

/-- A link printed is its target: no device's name ends its line. -/
theorem readlink_linkTarget : readlink (linkTarget d) = linkTarget d := by
  refine List.rdropWhile_eq_self_iff.2 ?_
  intro hne hlast
  have hmem : (linkTarget d).getLast hne ∈ d.name := by
    simp only [linkTarget, List.getLast_append_of_ne_nil _ d.named]
    exact List.getLast_mem d.named
  rw [of_decide_eq_true hlast] at hmem
  exact d.oneLine hmem

/-- A name entered is a link set. -/
theorem linksOf_call : linksOf (R.call d n (some p)) = fun link =>
    if link = linkName p then some (linkTarget d) else linksOf R link := by
  funext link
  by_cases hlink : linkPrefix <+: link
  · obtain ⟨m, rfl⟩ := hlink
    have hname : linkPrefix ++ m = linkName p ↔ some p = some m := by
      rw [linkName, List.append_cancel_left_eq, Option.some.injEq, eq_comm]
    rw [← linkName] at hname ⊢
    rw [linksOf_linkName, linksOf_linkName, Registry.call_entry, apply_ite (Option.map linkTarget)]
    simp only [hname]
    rfl
  · rw [linksOf_elsewhere hlink, linksOf_elsewhere hlink, if_neg]
    rintro rfl
    exact hlink (List.prefix_append _ _)

/-- No name entered, no link set. -/
theorem linksOf_call_none : linksOf (R.call d n none) = linksOf R := rfl

/-- A device struck is its links deleted. -/
theorem linksOf_strike : linksOf (R.strike d) = fun link =>
    match linksOf R link with
    | some target =>
      if linkPrefix <+: link ∧ readlink target = linkTarget d then none else some target
    | none => none := by
  funext link
  by_cases hlink : linkPrefix <+: link
  · obtain ⟨m, rfl⟩ := hlink
    rw [← linkName, linksOf_linkName, linksOf_linkName, Registry.strike_entry]
    cases R.entry m with
    | none => rfl
    | some c =>
      simp only [Option.map_some, readlink_linkTarget, linkTarget_inj, Option.some.injEq]
      rw [linkName]
      simp only [List.prefix_append, true_and]
      split <;> rfl
  · rw [linksOf_elsewhere hlink, linksOf_elsewhere hlink]

/-- **One event**: the script does to the links what the event is to the
registry. -/
theorem handle_of : (System.of R).handle e = .of (e.note R) := by
  obtain ⟨d, action, uevent⟩ := e
  have hset : ∀ {act}, act = .add ∨ act = .change → obcblock ⟨d, act, uevent⟩ (linksOf R) =
      linksOf (R.call d (Uevent.partname ⟨d, act, uevent⟩) (Uevent.entered ⟨d, act, uevent⟩)) := by
    intro act hact
    cases uevent with
    | none => rcases hact with rfl | rfl <;> rfl
    | some content =>
      simp only [Uevent.entered]
      split
      · rw [linksOf_call]
        rcases hact with rfl | rfl <;> exact if_pos ‹_›
      · rw [linksOf_call_none]
        rcases hact with rfl | rfl <;> exact if_neg ‹_›
  cases action with
  | add =>
    rw [System.handle, System.of, hset (Or.inl rfl)]
    rfl
  | change =>
    rw [System.handle, System.of, hset (Or.inr rfl)]
    rfl
  | remove =>
    change System.handle (.of R) _ = System.of (R.strike d)
    rw [System.handle, System.of, System.of, linksOf_strike]
    rfl

/-- **The run.** -/
theorem handleAll_of {es : List Uevent} : handleAll es = .of (es.foldl Uevent.note .empty) := by
  induction es using List.reverseRecOn with
  | nil =>
    have hempty : linksOf .empty = fun _ => none := by
      funext link
      exact ite_self _
    rw [List.foldl_nil, System.of, hempty]
    rfl
  | append_singleton es e ih =>
    rw [handleAll, foldl_concat, foldl_concat, ← handleAll, ih, handle_of]

/-- Right names are a faithful registry. -/
theorem namesRight_of : (System.of R).NamesRight ↔ R.Faithful ValidPartname := by
  constructor
  · intro h
    constructor
    · intro n d hn
      have hlink : (System.of R).links (linkName n) = some (linkTarget d) := by
        rw [of_links, hn]
        rfl
      obtain ⟨d', htarget, hname⟩ := h.right n _ hlink
      obtain rfl := linkTarget_inj.1 htarget
      exact hname
    · intro n d hd hn hsole
      have hlink := h.found d n hd hn hsole
      rwa [of_links, map_linkTarget] at hlink
  · intro h
    constructor
    · intro n target htarget
      rw [of_links, Option.map_eq_some_iff] at htarget
      obtain ⟨d, hd, rfl⟩ := htarget
      exact ⟨d, rfl, h.right n d hd⟩
    · intro d n hd hn hsole
      rw [of_links, map_linkTarget]
      exact h.found n d hd hn hsole

theorem mayLeave_of : (System.of R).MayLeave d a ↔ R.MayLeave ValidPartname d a := by
  simp only [System.MayLeave, of_links, map_linkTarget, Registry.MayLeave]
  rfl

end Registry

/-! ## What the script reads -/

section Reads

variable {e : Uevent} {n p : List Char} {lines : List (List Char)}

/-- The script's name is the file's, read as a last field. -/
theorem readPartname_eq : readPartname lines = lastField (partnameOf lines) := by
  induction lines with
  | nil => rfl
  | cons line rest ih =>
    rw [readPartname, partnameOf, List.find?_cons]
    simp only [readKeyValue]
    by_cases hkey : line.takeWhile (· ≠ '=') = partnameKey
    · simp only [hkey, if_true, decide_true]
    · simp only [hkey, if_false, decide_false, ih]
      rfl

theorem ValidPartname.eq_not_mem (h : ValidPartname p) : '=' ∉ p := by
  intro hmem
  exact absurd (h.2 '=' hmem) (by decide)

/-- A valid name is read as it is. -/
theorem ValidPartname.lastField (h : ValidPartname p) : lastField p = p := by
  refine if_neg ?_
  rintro ⟨hlast, -⟩
  exact h.eq_not_mem (List.mem_of_getLast? hlast)

/-- And with an equals sign behind it too. -/
theorem lastField_append_eq (h : '=' ∉ p) : lastField (p ++ ['=']) = p := by
  rw [lastField, List.getLast?_concat, List.dropLast_concat, if_pos ⟨rfl, h⟩]

/-- Nothing else is read as another. -/
theorem lastField_eq_self_or : lastField p = p ∨ p = lastField p ++ ['='] := by
  rw [lastField]
  split
  · rename_i h
    obtain ⟨hlast, -⟩ := h
    exact Or.inr (List.dropLast_append_getLast? _ hlast).symm
  · exact Or.inl rfl

theorem entered_eq : e.entered =
    if ValidPartname (lastField e.partname) then some (lastField e.partname) else none := by
  unfold Uevent.entered Uevent.partname
  cases e.uevent with
  | none => rfl
  | some content => simp only [readPartname_eq]

theorem entered_of_valid (h : ValidPartname e.partname) : e.entered = some e.partname := by
  rw [entered_eq, h.lastField, if_pos h]

/-- What is entered is the name, unless that is a valid one with an
equals sign behind it. -/
theorem entered_iff : (∀ m, e.entered = some m → m = e.partname) ↔
    ∀ n, ValidPartname n → e.partname ≠ n ++ ['='] := by
  rw [entered_eq]
  constructor
  · intro h n hn hp
    rw [hp, lastField_append_eq hn.eq_not_mem, if_pos hn] at h
    exact absurd (congrArg List.length (h n rfl)) (by simp)
  · intro h m hm
    split at hm
    · rename_i hvalid
      obtain rfl := Option.some.inj hm
      exact lastField_eq_self_or.resolve_right (h _ hvalid)
    · cases hm

end Reads

/-! ## Every run -/

section Run

variable {R : Registry (List Char) BlockDevice} {e : Uevent}

/-- One event keeps the names right exactly when it is orderly. -/
theorem note_faithful_iff (h : R.Faithful ValidPartname) :
    (e.note R).Faithful ValidPartname ↔ e.Orderly (.of R) := by
  have hcall : (R.call e.device e.partname e.entered).Faithful ValidPartname ↔
      (∀ n, ValidPartname n → e.partname ≠ n ++ ['=']) ∧
        (∀ n, (System.of R).links (linkName n) = some (linkTarget e.device) → n = e.partname) ∧
        (System.of R).MayLeave e.device (some e.partname) := by
    rw [h.call_iff entered_of_valid, entered_iff, mayLeave_of]
    simp only [of_links, map_linkTarget]
  unfold Uevent.note Uevent.Orderly
  cases e.action with
  | add => exact hcall
  | change => exact hcall
  | remove => exact h.strike_iff.trans mayLeave_of.symm

/-- **The names are right after every event** exactly when every event
of the run is orderly. -/
theorem namesRight_iff (es : List Uevent) :
    (∀ p, p <+: es → (handleAll p).NamesRight) ↔
      ∀ p e, p ++ [e] <+: es → e.Orderly (handleAll p) := by
  simp only [handleAll_of, namesRight_of]
  refine foldl_invariant_iff (fun R (e : Uevent) => e.Orderly (.of R)) Registry.faithful_empty ?_
  intro p e _ h
  exact note_faithful_iff h

end Run

/-! ## A partition that is named anew -/

/-- A partition. -/
def mmcblk0p1 : BlockDevice := ⟨"mmcblk0p1".toList, by decide, by decide⟩

/-- It comes as `a` and becomes `b`. -/
def renamed : List Uevent :=
  [⟨mmcblk0p1, .add, some "DEVNAME=mmcblk0p1\nPARTNAME=a\n".toList⟩,
    ⟨mmcblk0p1, .change, some "DEVNAME=mmcblk0p1\nPARTNAME=b\n".toList⟩]

/-- The link of its first name leads to it still. -/
theorem not_namesRight_renamed : ¬ (handleAll renamed).NamesRight := by
  intro h
  have hlink : (handleAll renamed).links (linkName ['a']) = some (linkTarget mmcblk0p1) := by
    decide
  obtain ⟨d, htarget, hname⟩ := h.right _ _ hlink
  obtain rfl := linkTarget_inj.1 htarget
  have hb : (handleAll renamed).partname mmcblk0p1 = some ['b'] := by decide
  exact absurd (hname.symm.trans hb) (by decide)

end Rootfs

end ObcSdk
