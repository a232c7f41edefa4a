import Mathlib.Data.Nat.Log
import ObcSdk.Boot.Blkdevparts
/-!
# The command line

The text `obc_bootargs_set` is to publish, and how long it is. The
`blkdevparts` argument takes as many characters as its entries' numbers
and labels do; once it is as long as its array, a store of it goes
behind the array, and short of that none does.
-/

namespace ObcSdk

namespace Boot

/-! ## Widths -/

/-- The digits of a number in base `b`. -/
def digitCount (b n : ℕ) : ℕ := Nat.log b n + 1

/-- The characters a size takes. -/
def sizeWidth (size : UInt32) : ℕ :=
  if size % (1024 * 1024) = 0 then digitCount 10 (size.toNat / 1048576) + 1
  else if size % 1024 = 0 then digitCount 10 (size.toNat / 1024) + 1
  else 2 + digitCount 16 size.toNat

/-- Those a part does: its size, `@`, its address behind `0x`, and its
name in parentheses. -/
def partWidth (p : BoardAbilityBlkParts) : ℕ :=
  sizeWidth p.size + 1 + (2 + digitCount 16 p.addr.toNat) + (p.name.length + 2)

/-- Those of a list of parts, with the commas between them. -/
def partsWidth (ps : List BoardAbilityBlkParts) : ℕ := (ps.map partWidth).sum + (ps.length - 1)

section Width

variable {b n : ℕ} {v size : UInt32} {p : BoardAbilityBlkParts} {ps : List BoardAbilityBlkParts}
  {device : List Char}

theorem length_toDigits (hb : 1 < b) : (Nat.toDigits b n).length = digitCount b n := by
  have hpow : n < b ^ digitCount b n := Nat.lt_pow_succ_log_self hb n
  have hle : (Nat.toDigits b n).length ≤ digitCount b n :=
    (Nat.length_toDigits_le_iff hb (Nat.succ_pos _)).2 hpow
  have hpos := Nat.length_toDigits_pos (b := b) (n := n)
  have hlt : n < b ^ (Nat.toDigits b n).length :=
    (Nat.length_toDigits_le_iff hb hpos).1 le_rfl
  have hlog := Nat.log_lt_of_lt_pow' (by omega) hlt
  rw [digitCount] at hle ⊢
  omega

theorem length_formatX : (formatX v).length = digitCount 16 v.toNat :=
  length_toDigits (by decide)

theorem length_sizeText : (sizeText size).length = sizeWidth size := by
  have dec : ∀ k : UInt32, 1024 ≤ k.toNat → ∀ c : Char,
      (formatD (size / k) ++ [c]).length = digitCount 10 (size.toNat / k.toNat) + 1 := by
    intro k hk c
    have hsize := size.toNat_lt
    have hdiv : (size / k).toNat < 2 ^ 22 := by
      rw [UInt32.toNat_div]
      exact (Nat.div_le_div_left hk (by decide)).trans_lt (by omega)
    rw [formatD_eq (by omega), List.length_append, length_toDigits (by decide), UInt32.toNat_div]
    rfl
  unfold sizeText sizeWidth
  split
  · exact dec (1024 * 1024) (by decide) _
  split
  · exact dec 1024 (by decide) _
  · rw [List.length_append, length_formatX]
    rfl

theorem length_partText : (partText p).length = partWidth p := by
  simp only [partText, List.length_append, length_sizeText, length_formatX, List.length_cons,
    List.length_nil, partWidth]
  omega

/-- **The parts' text is as long as its parts' widths** and the commas
come to. -/
theorem length_partsText : (partsText ps).length = partsWidth ps := by
  induction ps with
  | nil => rfl
  | cons p ps ih =>
    cases ps with
    | nil => simp [partsText, partsWidth, length_partText]
    | cons q ps =>
      rw [partsText_cons p (List.cons_ne_nil q ps), List.length_append, List.length_cons, ih,
        length_partText]
      simp only [partsWidth, List.map_cons, List.sum_cons, List.length_cons]
      omega

theorem length_blkdevpartsText :
    (blkdevpartsText device ps).length = device.length + 1 + partsWidth ps := by
  rw [blkdevpartsText, List.length_append, List.length_append, length_partsText]
  rfl

end Width

/-! ## A text that does not fit -/

section Overrun

variable {b : CBuf} {s t : List Char} {parts : ℕ → BoardAbilityBlkParts} {n i pos cap : ℕ}
  {p : BoardAbilityBlkParts} {ps : List BoardAbilityBlkParts} {st : BlkpartsState}
  {device : List Char}

theorem overrun_store (h : b.overrun = true) : (b.store pos s).overrun = true := by
  rw [CBuf.store, h, Bool.true_or]

theorem overrun_store_of_lt (h : b.chars.length < pos + s.length) :
    (b.store pos s).overrun = true := by
  simp only [CBuf.store, decide_eq_true h, Bool.or_true]

/-- `strcat` of a text that does not fit. -/
theorem overrun_strcat (h : b.Holds s) (hlong : b.chars.length ≤ s.length + t.length) :
    (b.strcat t).overrun = true := by
  refine overrun_store_of_lt ?_
  rw [h.strlen_eq, List.length_append, List.length_singleton]
  omega

/-- A store outside the array stays recorded. -/
theorem overrun_blkpartsEntry (h : st.blkdevparts.overrun = true) :
    (blkpartsEntry p st).blkdevparts.overrun = true := by
  unfold blkpartsEntry
  split
  · exact h
  · exact overrun_store h

theorem overrun_blkpartsLoop (h : st.blkdevparts.overrun = true) :
    (blkpartsLoop parts n i st).blkdevparts.overrun = true := by
  induction n generalizing i st with
  | zero => exact h
  | succ n ih => exact ih (overrun_blkpartsEntry h)

variable (parts i n) in
/-- **A text as long as the array is stored behind it**: the turn that
comes to that length does, and no turn before it. -/
theorem BlkpartsState.Shows.loop_overrun (h : st.Shows cap ps)
    (hshort : (partsText ps).length < cap)
    (hcap : cap ≤ (partsText (ps ++ shownParts parts i n)).length) :
    (blkpartsLoop parts n i st).blkdevparts.overrun = true := by
  induction n generalizing i ps st with
  | zero =>
    rw [shownParts, List.range'_zero, List.map_nil, List.filter_nil, List.append_nil] at hcap
    omega
  | succ n ih =>
    rw [shownParts_succ, ← List.append_assoc] at hcap
    unfold blkpartsLoop
    by_cases hf : (parts i).flag = 0
    · rw [if_pos hf] at hcap
      rcases Nat.lt_or_ge (partsText (ps ++ [parts i])).length cap with hlt | hge
      · exact ih _ (h.entry hf hlt) hlt hcap
      · refine overrun_blkpartsLoop ?_
        obtain ⟨temp, -, -, -, hentry⟩ := h.entry_eq hf
        rw [hentry]
        rw [partsText_concat, List.length_append] at hge
        exact overrun_strcat h.holds (by rw [h.length]; exact hge)
    · rw [if_neg hf, List.append_nil] at hcap
      rw [blkpartsEntry, if_pos hf]
      exact ih _ h hshort hcap

/-- The whole argument does not fit either: the move that makes room for
the device goes behind the array, if no turn of the loop did. -/
theorem obcBootargsBlkpartsSet_overrun {U : UBoot} {w : World} (buf : CBuf)
    (hpos : 0 < buf.chars.length) (hbuf : buf.overrun = false)
    (hcap : buf.chars.length ≤
      (blkdevpartsText device (shownParts (w.parts U) 0 w.partCount.toNat)).length) :
    (obcBootargsBlkpartsSet U w buf device).1.overrun = true := by
  have hstart := shows_start hpos hbuf
  rw [obcBootargsBlkpartsSet]
  refine overrun_store ?_
  rcases Nat.lt_or_ge (partsText (shownParts (w.parts U) 0 w.partCount.toNat)).length
    buf.chars.length with hlt | hge
  · have hshows := hstart.loop (w.parts U) w.partCount.toNat 0 (by rwa [List.nil_append])
    rw [List.nil_append] at hshows
    have hlen := hshows.length
    have hstrlen := hshows.holds.strlen_eq
    rw [blkdevpartsText, List.length_append, List.length_append, List.length_singleton] at hcap
    refine overrun_store_of_lt ?_
    rw [hlen, hstrlen, List.drop_zero, List.length_take, hlen, Nat.min_eq_left (by omega)]
    omega
  · exact overrun_store (hstart.loop_overrun (w.parts U) w.partCount.toNat 0 hpos
      (by rwa [List.nil_append]))

end Overrun

/-! ## The line -/

/-- The name `obc_bootargs_set` gives the boot medium. -/
def bootMediaName (iBootMedia : ℕ) : String :=
  if iBootMedia = boardAbilityDevSd then "sd"
  else if iBootMedia = boardAbilityDevEmmc then "emmc" else "unknown"

/-- The value of `bootargs` for a table. -/
def bootargsText (U : UBoot) (w : World) (device console : List Char) : List Char :=
  console ++ " blkdevparts=".toList ++
    blkdevpartsText device (shownParts (w.parts U) 0 w.partCount.toNat) ++
    " obcboot.part=".toList ++ Nat.toDigits 10 w.stAbility.stBoot.iPartType.toNat ++
    " obcboot.media=".toList ++ (bootMediaName w.stAbility.stBoot.iBootMedia).toList

section Line

variable {U : UBoot} {w : World} {device console : List Char}

/-- Setting a variable is no call that is noted. -/
theorem World.since_envSet {name value : String} : w.since (w.envSet name value) = [] :=
  World.since_of_trace (List.append_nil w.trace).symm

variable (console) in
/-- **A table whose argument fits is published**, or refused for the
length of the whole line. -/
theorem obcBootargsSet_of_lt (hdev : '\x00' ∉ device) (hlen : device.length ≤ 62)
    (hcap : (blkdevpartsText device (shownParts (w.parts U) 0 w.partCount.toNat)).length < 512) :
    obcBootargsSet U w device console =
      if 1024 ≤ ("setenv bootargs ".toList ++ bootargsText U w device console).length then (1, w)
      else (0, w.envSet "bootargs" (String.ofList (bootargsText U w device console))) := by
  obtain ⟨⟨hholds, hover⟩, hstack⟩ := obcBootargsBlkpartsSet_holds (CBuf.new 512) hdev hlen
    rfl (by rwa [CBuf.length_new])
  simp only [obcBootargsSet, hholds.cString_eq, hover, hstack, Bool.or_false, Bool.false_eq_true,
    if_false]
  rfl

/-- One whose argument does not is stored outside the array. -/
theorem obcBootargsSet_of_le
    (hcap : 512 ≤ (blkdevpartsText device (shownParts (w.parts U) 0 w.partCount.toNat)).length) :
    Call.overrun ∈ w.since (obcBootargsSet U w device console).2 := by
  have hover := obcBootargsBlkpartsSet_overrun (CBuf.new 512) (by simp) rfl
    (by rwa [CBuf.length_new])
  have htrace : (obcBootargsSet U w device console).2.trace = w.trace ++ [.overrun] := by
    simp only [obcBootargsSet, hover, Bool.true_or, if_true, apply_ite Prod.snd,
      apply_ite World.trace]
    exact ite_self _
  rw [World.since_of_trace htrace]
  exact List.mem_singleton.2 rfl

end Line

end Boot

end ObcSdk
