import ObcSdk.AutoMem.ReservedMemory
/-!
# The two sources of the reserved memory

A region of the device tree is recorded with its size in bytes, as the
display takes it to be. One of `/proc/iomem` is recorded with its size in
kilobytes, which the display divides by 1024 once more.
-/

namespace ObcSdk

namespace AutoMem

/-- A reserved region: some bytes, within the address space. -/
structure Region where
  start : UInt64
  size : UInt64
  size_pos : 0 < size
  fits : start.toNat + size.toNat ≤ 2 ^ 64

/-- The last byte of a region. -/
def Region.last (r : Region) : UInt64 := r.start + r.size - 1

/-- A number in cells, most significant byte first. -/
def cells (k n : ℕ) : List UInt8 := (leBytes k n).reverse

/-- A number as it stands in `/proc/iomem`: hexadecimal, filled up with
zeros. -/
def hexField (w n : ℕ) : List Char :=
  List.replicate (w - (Nat.toDigits 16 n).length) '0' ++ Nat.toDigits 16 n

/-- The device tree lists the regions, an entry of a region with its
address and size in two cells each or in one, among others that are none
or have no fixed place. -/
inductive TreeLists : List DtEntry → List Region → Prop where
  | nil : TreeLists [] []
  | skip {e : DtEntry} {es : List DtEntry} {rs : List Region} :
      skippedEntry e.dName = true ∨ e.reg = none → TreeLists es rs → TreeLists (e :: es) rs
  | wide {e : DtEntry} {es : List DtEntry} {r : Region} {rs : List Region} :
      skippedEntry e.dName = false →
      e.reg = some (cells 8 r.start.toNat ++ cells 8 r.size.toNat) →
      TreeLists es rs → TreeLists (e :: es) (r :: rs)
  | narrow {e : DtEntry} {es : List DtEntry} {r : Region} {rs : List Region} :
      skippedEntry e.dName = false →
      r.start.toNat < 2 ^ 32 → r.size.toNat < 2 ^ 32 →
      e.reg = some (cells 4 r.start.toNat ++ cells 4 r.size.toNat) →
      TreeLists es rs → TreeLists (e :: es) (r :: rs)

/-- The lines list the regions, indented or not and named as reserved,
among lines that are not. -/
inductive LinesList : List (List Char) → List Region → Prop where
  | nil : LinesList [] []
  | skip {line : List Char} {lines : List (List Char)} {rs : List Region} :
      ¬ "Reserved".toList <:+: line → LinesList lines rs → LinesList (line :: lines) rs
  | reserved {k w : ℕ} {name : List Char} {lines : List (List Char)} {r : Region}
      {rs : List Region} :
      "Reserved".toList <:+: name → LinesList lines rs →
      LinesList ((List.replicate k ' ' ++ (hexField w r.start.toNat ++ '-' ::
        (hexField w r.last.toNat ++ (" : ".toList ++ name)))) :: lines) (r :: rs)

/-- The regions are in the device tree. -/
def Board.InTree (b : Board) (rs : List Region) : Prop :=
  ∃ entries, b.deviceTree = some entries ∧ TreeLists entries rs

/-- There are none in the device tree, and the regions are in
`/proc/iomem`. -/
def Board.InIomem (b : Board) (rs : List Region) : Prop :=
  (b.deviceTree = none ∨ b.InTree []) ∧
    ∃ text, b.iomem = some text ∧ LinesList (fgetsAll 512 [] text) rs

/-- A size as it is to be shown. -/
def shownSize (size : ℕ) : ℕ × SizeUnit :=
  if size / 1024 < 1024 then (size / 1024, .kb) else (size / 1024 / 1024, .mb)

/-- **The regions are recorded right**, from first byte to last and with
their sizes in bytes, and so are the total and the sizes shown. -/
structure RecordsRight (b : Board) (rs : List Region) : Prop where
  returned : (collectReservedMemory b).1 = 0
  spans : (collectReservedMemory b).2.map (fun region => (region.startAddr, region.endAddr)) =
    rs.map fun r => (r.start, r.last)
  bytes : ∀ region ∈ (collectReservedMemory b).2, region.startAddr ≤ region.endAddr ∧
    region.size.toNat = region.endAddr.toNat - region.startAddr.toNat + 1
  total : (displayReserved true (collectReservedMemory b).2).1.toNat =
    (rs.map fun r => r.size.toNat / 1024 / 1024).sum
  sizes : (displayReserved true (collectReservedMemory b).2).2.map
      (fun line => (line.value.toNat, line.unit)) =
    ((rs.map fun r => r.size.toNat).insertionSort (· ≥ ·)).map shownSize

section Scan

variable {n w k : ℕ} {c : Char} {ds rest : List Char}

/-- Nothing that a number could go on with. -/
def EndsNumber (rest : List Char) : Prop :=
  ∀ c ∈ rest.head?, hexVal c = none ∧ c ≠ 'x' ∧ c ≠ 'X'

theorem hexVal_digitChar {v : ℕ} (hv : v < 16) : hexVal v.digitChar = some v := by
  have : ∀ v : Fin 16, hexVal v.val.digitChar = some v.val := by decide
  exact this ⟨v, hv⟩

/-- What is no digit and starts no number. -/
theorem digitChar_facts {v : ℕ} (hv : v < 16) : isspace v.digitChar = false ∧
    v.digitChar ≠ '-' ∧ v.digitChar ≠ '+' ∧ v.digitChar ≠ 'x' ∧ v.digitChar ≠ 'X' := by
  have : ∀ v : Fin 16, isspace v.val.digitChar = false ∧ v.val.digitChar ≠ '-' ∧
      v.val.digitChar ≠ '+' ∧ v.val.digitChar ≠ 'x' ∧ v.val.digitChar ≠ 'X' := by decide
  exact this ⟨v, hv⟩

theorem exists_digitChar_of_mem_hexField (h : c ∈ hexField w n) :
    ∃ v, v < 16 ∧ c = v.digitChar := by
  rcases List.mem_append.1 h with hzero | hdigit
  · exact ⟨0, by decide, List.eq_of_mem_replicate hzero⟩
  · exact Numeral.exists_digitChar_of_mem_toDigits (by decide) hdigit

theorem hexField_ne_nil : hexField w n ≠ [] := by
  intro h
  have hlen := congrArg List.length h
  have hpos := Nat.length_toDigits_pos (b := 16) (n := n)
  rw [hexField, List.length_append, List.length_nil] at hlen
  omega

/-- The digits are read as a numeral is. -/
theorem hexDigits_append (acc : ℕ) (hds : ∀ c ∈ ds, ∃ v, v < 16 ∧ c = v.digitChar)
    (hrest : EndsNumber rest) :
    hexDigits acc (ds ++ rest) = ((Numeral.scan 16 acc ds).1, rest) := by
  induction ds generalizing acc with
  | nil =>
    cases rest with
    | nil => rfl
    | cons c rest =>
      rw [List.nil_append, hexDigits, (hrest c rfl).1]
      rfl
  | cons c ds ih =>
    obtain ⟨v, hv, rfl⟩ := hds c List.mem_cons_self
    rw [List.cons_append, hexDigits, hexVal_digitChar hv, Numeral.scan_digitChar (by decide) hv]
    exact ih _ fun c hc => hds c (List.mem_cons_of_mem _ hc)

/-- The zeros in front change nothing. -/
theorem scan_hexField : (Numeral.scan 16 0 (hexField w n)).1 = n := by
  have hzeros : ∀ m, Numeral.scan 16 0 (List.replicate m '0' ++ Nat.toDigits 16 n) =
      Numeral.scan 16 0 (Nat.toDigits 16 n) := by
    intro m
    induction m with
    | zero => rfl
    | succ m ih =>
      rw [List.replicate_succ, List.cons_append]
      exact (Numeral.scan_digitChar (v := 0) (by decide) (by decide)).trans ih
  have hscan := @Numeral.scan_toDigits_of_not_digit 16 n [] (by decide) (by decide) (by simp)
  rw [List.append_nil] at hscan
  rw [hexField, hzeros, hscan]

/-- **A number is read back**, behind spaces, from what it is written as. -/
theorem scanLlx_hexField (hn : n < 2 ^ 64) (hrest : EndsNumber rest) :
    scanLlx (List.replicate k ' ' ++ (hexField w n ++ rest)) = some (UInt64.ofNat n, rest) := by
  have hdigits := fun c => exists_digitChar_of_mem_hexField (c := c) (w := w) (n := n)
  have hvalue := hexDigits_append 0 hdigits hrest
  rw [scan_hexField] at hvalue
  -- the number starts with a digit, and goes on with one or with `rest`
  obtain ⟨c, ds, hfield⟩ := List.exists_cons_of_ne_nil (hexField_ne_nil (w := w) (n := n))
  rw [hfield] at hdigits hvalue ⊢
  obtain ⟨v, hv, rfl⟩ := hdigits c List.mem_cons_self
  obtain ⟨hspace, hminus, hplus, -, -⟩ := digitChar_facts hv
  have hnext : ∀ x ∈ (ds ++ rest).head?, x ≠ 'x' ∧ x ≠ 'X' := by
    intro x hx
    cases ds with
    | nil => exact (hrest x hx).2
    | cons d ds =>
      obtain ⟨u, hu, rfl⟩ := hdigits d (by simp)
      obtain rfl : u.digitChar = x := Option.some.inj hx
      exact (digitChar_facts hu).2.2.2
  have hskip : (List.replicate k ' ' ++ (v.digitChar :: ds ++ rest)).dropWhile isspace =
      v.digitChar :: (ds ++ rest) := by
    rw [List.dropWhile_append_of_pos fun c hc => by rw [List.eq_of_mem_replicate hc]; rfl,
      List.cons_append, List.dropWhile_cons_of_neg (by rw [hspace]; decide)]
  have hsign : scanSign (v.digitChar :: (ds ++ rest)) = (false, v.digitChar :: (ds ++ rest)) := by
    rw [scanSign.eq_def]
    split
    · rename_i heq
      exact absurd (List.cons.inj heq).1 hminus
    · rename_i heq
      exact absurd (List.cons.inj heq).1 hplus
    · rfl
  have hmark : skipHexMark (v.digitChar :: (ds ++ rest)) = v.digitChar :: (ds ++ rest) := by
    rw [skipHexMark.eq_def]
    split
    · rename_i c cs heq
      have hc := hnext c (by rw [(List.cons.inj heq).2]; rfl)
      rw [if_neg (not_or.2 hc), heq]
    · rfl
  rw [scanLlx]
  simp only [hskip, hsign, hmark]
  rw [if_pos (by rw [List.head?_cons, Option.bind_some, hexVal_digitChar hv]; rfl)]
  rw [List.cons_append] at hvalue
  rw [hvalue, if_neg (by omega), if_neg Bool.false_ne_true]

end Scan

section Recorded

variable {r : Region} {rs : List Region} {regions : List ReservedMemRegion} {b : Board}
  {es : List DtEntry} {lines : List (List Char)} {k w n : ℕ} {name : List Char}

theorem toNat_last : r.last.toNat = r.start.toNat + r.size.toNat - 1 := by
  have hpos := r.size_pos
  have hfits := r.fits
  have hlt := r.size.toNat_lt
  have hone : (1 : UInt64).toNat = 1 := rfl
  rw [UInt64.lt_iff_toNat_lt, UInt64.toNat_zero] at hpos
  rw [Region.last, UInt64.toNat_sub, UInt64.toNat_add, hone]
  omega

theorem start_le_last : r.start ≤ r.last := by
  have hpos := r.size_pos
  rw [UInt64.lt_iff_toNat_lt, UInt64.toNat_zero] at hpos
  rw [UInt64.le_iff_toNat_le, toNat_last]
  omega

theorem size_eq : r.size.toNat = r.last.toNat - r.start.toNat + 1 := by
  have hpos := r.size_pos
  rw [UInt64.lt_iff_toNat_lt, UInt64.toNat_zero] at hpos
  rw [toNat_last]
  omega

/-- The size, from the first and the last byte. -/
theorem last_sub_start : r.last - r.start + 1 = r.size := by
  have hle := UInt64.le_iff_toNat_le.1 (start_le_last (r := r))
  have hsize := size_eq (r := r)
  have hlt := r.size.toNat_lt
  have hone : (1 : UInt64).toNat = 1 := rfl
  rw [← UInt64.toNat_inj, UInt64.toNat_add, UInt64.toNat_sub_of_le _ _ start_le_last, hone]
  omega

theorem cell_cells (h : n < 256 ^ k) : cell (cells k n) = UInt64.ofNat n := by
  rw [cell, cells, List.reverse_reverse, leNat_leBytes h]

theorem length_cells : (cells k n).length = k := by rw [cells, List.length_reverse, length_leBytes]

/-- **A `reg` is read back**, of two cells each or of one. -/
theorem parseReg_wide :
    parseReg (cells 8 r.start.toNat ++ cells 8 r.size.toNat) = some (r.start, r.size) := by
  have hlen : (cells 8 r.start.toNat ++ cells 8 r.size.toNat).length = 16 := by
    rw [List.length_append, length_cells, length_cells]
  rw [parseReg, List.take_of_length_le hlen.le]
  simp only [hlen, if_true]
  rw [List.take_left' length_cells, List.drop_left' length_cells, cell_cells r.start.toNat_lt,
    cell_cells r.size.toNat_lt, UInt64.ofNat_toNat, UInt64.ofNat_toNat]

theorem parseReg_narrow (hstart : r.start.toNat < 2 ^ 32) (hsize : r.size.toNat < 2 ^ 32) :
    parseReg (cells 4 r.start.toNat ++ cells 4 r.size.toNat) = some (r.start, r.size) := by
  have hlen : (cells 4 r.start.toNat ++ cells 4 r.size.toNat).length = 8 := by
    rw [List.length_append, length_cells, length_cells]
  rw [parseReg, List.take_of_length_le (hlen.le.trans (by decide))]
  simp only [hlen, if_true]
  rw [if_neg (by decide), List.take_left' length_cells, List.drop_left' length_cells,
    cell_cells hstart, cell_cells hsize, UInt64.ofNat_toNat, UInt64.ofNat_toNat]

/-- A region as it is recorded, but for its name. -/
def recorded (region : ReservedMemRegion) : UInt64 × UInt64 × UInt64 :=
  (region.startAddr, region.endAddr, region.size)

/-- **The device tree** gives the regions, with their sizes. -/
theorem TreeLists.recorded (h : TreeLists es rs) :
    (es.filterMap treeRegion).map recorded = rs.map fun r => (r.start, r.last, r.size) := by
  have hread : ∀ (e : DtEntry) (r : Region), skippedEntry e.dName = false →
      e.reg.bind parseReg = some (r.start, r.size) →
      (treeRegion e).map AutoMem.recorded = some (r.start, r.last, r.size) := by
    intro e r hname hreg
    rw [treeRegion, if_neg (by rw [hname]; exact Bool.false_ne_true), hreg]
    simp only [if_pos r.size_pos]
    rfl
  have hcons : ∀ (e : DtEntry) (es : List DtEntry) (r : Region),
      (treeRegion e).map AutoMem.recorded = some (r.start, r.last, r.size) →
      ((e :: es).filterMap treeRegion).map AutoMem.recorded =
        (r.start, r.last, r.size) :: (es.filterMap treeRegion).map AutoMem.recorded := by
    intro e es r he
    obtain ⟨region, hregion, hrec⟩ := Option.map_eq_some_iff.1 he
    rw [List.filterMap_cons_some hregion, List.map_cons, hrec]
  induction h with
  | nil => rfl
  | @skip e es rs hbare _ ih =>
    have hnone : treeRegion e = none := by
      rw [treeRegion]
      rcases hbare with hname | hreg
      · rw [if_pos hname]
      · rw [hreg]
        split <;> rfl
    rw [List.filterMap_cons_none hnone, ih]
  | @wide e es r rs hname hreg _ ih =>
    rw [hcons e es r (hread e r hname (by rw [hreg]; exact parseReg_wide)), ih, List.map_cons]
  | @narrow e es r rs hname hstart hsize hreg _ ih =>
    rw [hcons e es r (hread e r hname (by rw [hreg]; exact parseReg_narrow hstart hsize)), ih,
      List.map_cons]

variable (r k w name) in
/-- **A line is read back**: its first and last byte. -/
theorem scanRange_line : scanRange (List.replicate k ' ' ++ (hexField w r.start.toNat ++ '-' ::
    (hexField w r.last.toNat ++ (" : ".toList ++ name)))) = some (r.start, r.last) := by
  have hfirst : ∀ rest, EndsNumber ('-' :: rest) := by
    intro rest c hc
    obtain rfl : '-' = c := Option.some.inj hc
    decide
  have hlast : EndsNumber (" : ".toList ++ name) := by
    intro c hc
    obtain rfl : ' ' = c := Option.some.inj hc
    decide
  have hscan := scanLlx_hexField (k := 0) (w := w) r.last.toNat_lt hlast
  rw [List.replicate_zero, List.nil_append, UInt64.ofNat_toNat] at hscan
  rw [scanRange, scanLlx_hexField r.start.toNat_lt (hfirst _), UInt64.ofNat_toNat]
  simp only [hscan]

/-- **The lines** give the regions, with their sizes in kilobytes. -/
theorem LinesList.recorded (h : LinesList lines rs) :
    (lines.filterMap iomemRegion).map recorded =
      rs.map fun r => (r.start, r.last, r.size / 1024) := by
  induction h with
  | nil => rfl
  | @skip line lines rs hline _ ih =>
    have hnone : iomemRegion line = none := by
      rw [iomemRegion, strstr_of_not_infix hline]
      cases strchr line ':' <;> rfl
    rw [List.filterMap_cons_none hnone, ih]
  | @reserved k w name lines r rs hname _ ih =>
    have hrange := scanRange_line r k w name
    obtain ⟨region, hregion, hrec⟩ : ∃ region, iomemRegion (List.replicate k ' ' ++
        (hexField w r.start.toNat ++ '-' :: (hexField w r.last.toNat ++
          (" : ".toList ++ name)))) = some region ∧
        AutoMem.recorded region = (r.start, r.last, r.size / 1024) := by
      generalize hline : List.replicate k ' ' ++ (hexField w r.start.toNat ++ '-' ::
        (hexField w r.last.toNat ++ (" : ".toList ++ name))) = line at hrange ⊢
      have hcolon : ':' ∈ line := by
        rw [← hline]
        simp
      have hinfix : "Reserved".toList <:+: line := by
        rw [← hline]
        have hend : name <:+ '-' :: (hexField w r.last.toNat ++ (" : ".toList ++ name)) :=
          ((List.suffix_append _ _).trans (List.suffix_append _ _)).trans (List.suffix_cons _ _)
        exact hname.trans
          (hend.trans ((List.suffix_append _ _).trans (List.suffix_append _ _))).isInfix
      obtain ⟨pre, post, heq, hpre⟩ := List.eq_append_cons_of_mem hcolon
      have hchr : strchr line ':' = some (':' :: post) := by rw [heq, strchr_append hpre]
      rw [iomemRegion, hchr]
      simp only [if_pos (isSome_strstr hinfix), hrange]
      refine ⟨_, rfl, ?_⟩
      rw [AutoMem.recorded, last_sub_start]
    rw [List.filterMap_cons_some hregion, List.map_cons, hrec, ih, List.map_cons]

/-- **All of it is recorded** where there is room. -/
theorem record_eq {α : Type} {f : α → Option ReservedMemRegion} {as : List α}
    (h : (regions ++ as.filterMap f).length ≤ maxReservedRegions) :
    record f as regions = regions ++ as.filterMap f := by
  induction as generalizing regions with
  | nil => rw [record, List.filterMap_nil, List.append_nil]
  | cons a as ih =>
    have hcons : (a :: as).filterMap f = (f a).toList ++ as.filterMap f := by
      cases ha : f a with
      | none => rw [List.filterMap_cons_none ha, Option.toList_none, List.nil_append]
      | some region => rw [List.filterMap_cons_some ha, Option.toList_some, List.singleton_append]
    rw [hcons, ← List.append_assoc] at h ⊢
    rw [record]
    by_cases hroom : regions.length < maxReservedRegions
    · rw [if_pos hroom, ih h]
    · have hempty : (f a).toList ++ as.filterMap f = [] := by
        rw [List.append_assoc, List.length_append] at h
        exact List.length_eq_zero_iff.1 (by omega)
      rw [if_neg hroom, List.append_assoc, hempty, List.append_nil]

theorem treeRegions_of_inTree (h : b.InTree rs) (hlen : rs.length ≤ maxReservedRegions) :
    (treeRegions b).map recorded = rs.map fun r => (r.start, r.last, r.size) := by
  obtain ⟨es, htree, hlists⟩ := h
  have hrec := hlists.recorded
  have hcount := congrArg List.length hrec
  rw [List.length_map, List.length_map] at hcount
  rw [treeRegions, htree]
  simp only
  rw [record_eq (by rw [List.nil_append, hcount]; exact hlen), List.nil_append, hrec]

/-- **What is collected** of regions in the device tree. -/
theorem collect_of_inTree (h : b.InTree rs) (hlen : rs.length ≤ maxReservedRegions)
    (hne : rs ≠ []) : (collectReservedMemory b).1 = 0 ∧
      (collectReservedMemory b).2.map recorded = rs.map fun r => (r.start, r.last, r.size) := by
  have hrec := treeRegions_of_inTree h hlen
  have hcount := congrArg List.length hrec
  rw [List.length_map, List.length_map] at hcount
  have hpos := List.length_pos_iff.2 hne
  rw [collectReservedMemory, if_neg (by omega)]
  exact ⟨rfl, hrec⟩

/-- **What is collected** of regions in `/proc/iomem`: their sizes in
kilobytes. -/
theorem collect_of_inIomem (h : b.InIomem rs) (hlen : rs.length ≤ maxReservedRegions) :
    (collectReservedMemory b).1 = 0 ∧
      (collectReservedMemory b).2.map recorded =
        rs.map fun r => (r.start, r.last, r.size / 1024) := by
  obtain ⟨htree, text, hiomem, hlists⟩ := h
  have hnone : treeRegions b = [] := by
    rcases htree with hnone | hempty
    · rw [treeRegions, hnone]
    · exact List.map_eq_nil_iff.1 (treeRegions_of_inTree hempty (Nat.zero_le _))
  have hrec := hlists.recorded
  have hcount := congrArg List.length hrec
  rw [List.length_map, List.length_map] at hcount
  rw [collectReservedMemory, hnone, List.length_nil, if_pos rfl, hiomem]
  simp only
  rw [record_eq (by rw [List.nil_append, hcount]; exact hlen), List.nil_append]
  exact ⟨trivial, hrec⟩

end Recorded

section Shown

variable {regions : List ReservedMemRegion} {total : UInt64}

/-- **The total** is the sum, in megabytes. -/
theorem toNat_reservedTotalMb (h : regions.length ≤ maxReservedRegions) :
    (reservedTotalMb regions).toNat =
      (regions.map fun region => region.size.toNat / 1024 / 1024).sum := by
  have hstep : ∀ (l : List ReservedMemRegion) (total : UInt64),
      total.toNat + l.length * 2 ^ 44 < 2 ^ 64 →
      (l.foldl (fun total region => total + region.size / 1024 / 1024) total).toNat =
        total.toNat + (l.map fun region => region.size.toNat / 1024 / 1024).sum := by
    intro l
    induction l with
    | nil => exact fun total _ => rfl
    | cons region l ih =>
      intro total hroom
      have hlt := region.size.toNat_lt
      have hkilo : (1024 : UInt64).toNat = 1024 := rfl
      have hadd : (total + region.size / 1024 / 1024).toNat =
          total.toNat + region.size.toNat / 1024 / 1024 := by
        rw [UInt64.toNat_add, UInt64.toNat_div, UInt64.toNat_div, hkilo]
        rw [List.length_cons] at hroom
        omega
      rw [List.length_cons] at hroom
      rw [List.foldl_cons, ih _ (by rw [hadd]; omega), hadd, List.map_cons, List.sum_cons,
        Nat.add_assoc]
  have hmax : maxReservedRegions = 100 := rfl
  have hzero : (0 : UInt64).toNat = 0 := rfl
  rw [reservedTotalMb, hstep _ _ (by rw [hzero]; omega), hzero, Nat.zero_add]

/-- **The sizes shown** are those recorded, in descending order. -/
theorem sizes_displayReserved :
    (displayReserved true regions).2.map (fun line => (line.value.toNat, line.unit)) =
      ((regions.map fun region => region.size.toNat).insertionSort (· ≥ ·)).map shownSize := by
  have hline : ∀ item : ReservedItem,
      (item.line.value.toNat, item.line.unit) = shownSize item.size.toNat := by
    intro item
    have hkilo : (1024 : UInt64).toNat = 1024 := rfl
    have hsmall : item.size / 1024 < 1024 ↔ item.size.toNat / 1024 < 1024 := by
      rw [UInt64.lt_iff_toNat_lt, UInt64.toNat_div, hkilo]
    rw [ReservedItem.line, shownSize]
    by_cases h : item.size / 1024 < 1024
    · rw [if_pos h, if_pos (hsmall.1 h), UInt64.toNat_div, hkilo]
    · rw [if_neg h, if_neg (mt hsmall.2 h), UInt64.toNat_div, UInt64.toNat_div, hkilo]
  have hlt : ∀ a b : ReservedItem,
      decide (a.size < b.size) = true ↔ a.size.toNat < b.size.toNat := by
    intro a b
    rw [decide_eq_true_eq, UInt64.lt_iff_toNat_lt]
  have hsort := map_bubbleSort
    (regions.map fun region => ⟨region.name.take (maxNameLen - 1), region.size⟩) hlt
  rw [List.map_map] at hsort
  have hshown : ∀ items : List ReservedItem,
      (items.map ReservedItem.line).map (fun line => (line.value.toNat, line.unit)) =
        (items.map fun item => item.size.toNat).map shownSize := by
    intro items
    rw [List.map_map, List.map_map]
    exact List.map_congr_left fun item _ => hline item
  rw [displayReserved, if_pos rfl, hshown, sortedReserved, hsort]
  rfl

end Shown

section Sources

variable {b : Board} {rs : List Region}

/-- **What is recorded with its size in bytes** is shown right. -/
theorem recordsRight_of_recorded (hreturned : (collectReservedMemory b).1 = 0)
    (hrec : (collectReservedMemory b).2.map recorded = rs.map fun r => (r.start, r.last, r.size))
    (hlen : rs.length ≤ maxReservedRegions) : RecordsRight b rs := by
  have hmap : ∀ {γ : Type} (f : UInt64 × UInt64 × UInt64 → γ),
      (collectReservedMemory b).2.map (f ∘ recorded) =
        rs.map fun r => f (r.start, r.last, r.size) := by
    intro γ f
    rw [← List.map_map, hrec, List.map_map]
    rfl
  have hcount := congrArg List.length hrec
  rw [List.length_map, List.length_map] at hcount
  refine ⟨hreturned, hmap fun t => (t.1, t.2.1), fun region hregion => ?_, ?_, ?_⟩
  · have hmem := List.mem_map_of_mem (f := recorded) hregion
    rw [hrec] at hmem
    obtain ⟨r, -, hr⟩ := List.mem_map.1 hmem
    obtain ⟨hstart, hlast, hsize⟩ : r.start = region.startAddr ∧ r.last = region.endAddr ∧
        r.size = region.size := by simpa [recorded] using hr
    rw [← hstart, ← hlast, ← hsize]
    exact ⟨start_le_last, size_eq⟩
  · rw [displayReserved, toNat_reservedTotalMb (hcount.trans_le hlen)]
    exact congrArg List.sum (hmap fun t => t.2.2.toNat / 1024 / 1024)
  · rw [sizes_displayReserved]
    exact congrArg (fun l => (l.insertionSort (· ≥ ·)).map shownSize)
      (hmap fun t => t.2.2.toNat)

/-- **The regions are recorded right** exactly where the device tree has
them, or there are none. -/
theorem recordsRight_iff (hlen : rs.length ≤ maxReservedRegions)
    (h : b.InTree rs ∧ rs ≠ [] ∨ b.InIomem rs) : RecordsRight b rs ↔ b.InTree rs ∨ rs = [] := by
  rcases h with ⟨htree, hne⟩ | hiomem
  · obtain ⟨hreturned, hrec⟩ := collect_of_inTree htree hlen hne
    exact iff_of_true (recordsRight_of_recorded hreturned hrec hlen) (.inl htree)
  · obtain ⟨hreturned, hrec⟩ := collect_of_inIomem hiomem hlen
    cases rs with
    | nil => exact iff_of_true (recordsRight_of_recorded hreturned hrec hlen) (.inr rfl)
    | cons r rs =>
      refine iff_of_false (fun hright => ?_) ?_
      · obtain ⟨region, regions, hregions⟩ := List.exists_cons_of_ne_nil
          (List.ne_nil_of_length_pos (l := (collectReservedMemory b).2)
            (by rw [← List.length_map recorded, hrec]; exact Nat.succ_pos _))
        rw [hregions, List.map_cons, List.map_cons] at hrec
        obtain ⟨hstart, hlast, hsize⟩ : region.startAddr = r.start ∧ region.endAddr = r.last ∧
            region.size = r.size / 1024 := by simpa [recorded] using (List.cons.inj hrec).1
        have hbytes := (hright.bytes region (by rw [hregions]; exact List.mem_cons_self)).2
        have hpos := UInt64.lt_iff_toNat_lt.1 r.size_pos
        have hkilo : (1024 : UInt64).toNat = 1024 := rfl
        rw [hstart, hlast, hsize, ← size_eq, UInt64.toNat_div, hkilo] at hbytes
        rw [UInt64.toNat_zero] at hpos
        omega
      · rintro (htree | hnil)
        · rcases hiomem.1 with hnone | hempty
          · obtain ⟨es, hsome, -⟩ := htree
            rw [hnone] at hsome
            cases hsome
          · have hcount := congrArg List.length ((treeRegions_of_inTree hempty
              (Nat.zero_le _)).symm.trans (treeRegions_of_inTree htree hlen))
            rw [List.length_map, List.length_map] at hcount
            cases hcount
        · cases hnil

end Sources

/-- A frame buffer of 24 MB. -/
def frameBuffer : Region := ⟨0x9E800000, 0x1800000, by decide, by decide⟩

/-- The frame buffer in the device tree, behind a property of the node. -/
def treeBoard : Board where
  deviceTree := some [⟨"name".toList, none⟩,
    ⟨"framebuffer@9e800000".toList,
      some (cells 8 frameBuffer.start.toNat ++ cells 8 frameBuffer.size.toNat)⟩]
  iomem := none

/-- A board without the node. -/
def iomemBoard : Board where
  deviceTree := none
  iomem := some "80000000-9e7fffff : System RAM\n9e800000-9fffffff : Reserved\n".toList

theorem recordsRight_treeBoard : RecordsRight treeBoard [frameBuffer] := by
  have hlists : TreeLists [⟨"name".toList, none⟩, ⟨"framebuffer@9e800000".toList,
      some (cells 8 frameBuffer.start.toNat ++ cells 8 frameBuffer.size.toNat)⟩] [frameBuffer] :=
    .skip (.inr rfl) (.wide (by decide) rfl .nil)
  exact (recordsRight_iff (by decide) (.inl ⟨⟨_, rfl, hlists⟩, by simp⟩)).2 (.inl ⟨_, rfl, hlists⟩)

/-- Of the same 24 MB in `/proc/iomem`, 24 KB are shown, and none of them
in the total. -/
theorem not_recordsRight : (¬ ∀ b rs, rs.length ≤ maxReservedRegions →
      b.InTree rs ∧ rs ≠ [] ∨ b.InIomem rs → RecordsRight b rs) ∧
    (displayReserved true (collectReservedMemory treeBoard).2).1 = 24 ∧
    (displayReserved true (collectReservedMemory iomemBoard).2).1 = 0 ∧
    (displayReserved true (collectReservedMemory iomemBoard).2).2.map
      (fun line => (line.value, line.unit)) = [(24, .kb)] := by
  have hlines : fgetsAll 512 []
      "80000000-9e7fffff : System RAM\n9e800000-9fffffff : Reserved\n".toList =
        ["80000000-9e7fffff : System RAM\n".toList,
          List.replicate 0 ' ' ++ (hexField 8 frameBuffer.start.toNat ++ '-' ::
            (hexField 8 frameBuffer.last.toNat ++ (" : ".toList ++ "Reserved\n".toList)))] := by
    decide +kernel
  have hiomem : iomemBoard.InIomem [frameBuffer] := by
    refine ⟨.inl rfl, _, rfl, ?_⟩
    rw [hlines]
    exact .skip (by decide) (.reserved (by decide) .nil)
  refine ⟨fun hall => ?_, by decide +kernel, by decide +kernel, by decide +kernel⟩
  have hkilo : ¬ ∀ region ∈ (collectReservedMemory iomemBoard).2,
      region.startAddr ≤ region.endAddr ∧
        region.size.toNat = region.endAddr.toNat - region.startAddr.toNat + 1 := by
    decide +kernel
  exact hkilo (hall _ _ (by decide) (.inr hiomem)).bytes

end AutoMem

end ObcSdk
