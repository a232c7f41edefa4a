import ObcSdk.Amp.Heap4
import ObcSdk.Lib.Spans
import ObcSdk.Lib.Masks
/-!
# The free list of the heap

What the headers in memory say, read as a list of spans: the loop of
`prvInsertBlockIntoFreeList` finds the spans before a block and behind it,
and its stores put the block back among them. The loop of `pvPortMalloc`
finds the first span that is large enough.
-/

namespace ObcSdk

namespace Amp

open ObcSdk.Span ObcSdk.Spans

variable {mem mem' : Mem} {p q v w : ℕ} {l pre post free : List Span} {a b n : Span} {fuel : ℕ}

/-! ## Headers -/

theorem next_setNext :
    pxNextFreeBlock (setNext mem p v) q = if q = p then v else pxNextFreeBlock mem q :=
  Function.update_apply mem p v q

theorem size_setNext :
    xBlockSize (setNext mem p v) q = if q + 8 = p then v else xBlockSize mem q :=
  Function.update_apply mem p v (q + 8)

theorem next_setSize :
    pxNextFreeBlock (setSize mem p v) q = if q = p + 8 then v else pxNextFreeBlock mem q :=
  Function.update_apply mem (p + 8) v q

theorem size_setSize :
    xBlockSize (setSize mem p v) q = if q = p then v else xBlockSize mem q := by
  simp only [xBlockSize, setSize, Function.update_apply, Nat.add_right_cancel_iff]

theorem setNext_of_ne (h : w ≠ p) : setNext mem p v w = mem w := Function.update_of_ne h _ _

theorem setSize_of_ne (h : w ≠ p + 8) : setSize mem p v w = mem w := Function.update_of_ne h _ _

/-! ## Linked headers -/

/-- Where a list of spans begins, or what is behind it. -/
def first (q : ℕ) : List Span → ℕ
  | [] => q
  | a :: _ => a.start

/-- The last header of a list, or the one before it. -/
def last (p : ℕ) : List Span → ℕ
  | [] => p
  | a :: l => last a.start l

/-- The headers from the one behind `p` on are linked as the spans of a
list, and lead to `q`. -/
def Linked (mem : Mem) : ℕ → List Span → ℕ → Prop
  | p, [], q => pxNextFreeBlock mem p = q
  | p, a :: l, q =>
    pxNextFreeBlock mem p = a.start ∧ xBlockSize mem a.start = a.size ∧ Linked mem a.start l q

theorem Linked.next_eq (h : Linked mem p l q) : pxNextFreeBlock mem p = first q l := by
  cases l with
  | nil => exact h
  | cons a l => exact h.1

theorem linked_append : Linked mem p (pre ++ post) q ↔
    Linked mem p pre (first q post) ∧ Linked mem (last p pre) post q := by
  induction pre generalizing p with
  | nil => exact ⟨fun h => ⟨h.next_eq, h⟩, fun h => h.2⟩
  | cons a pre ih => simp only [List.cons_append, Linked, last, ih, and_assoc]

theorem last_concat : last p (pre ++ [a]) = a.start := by
  induction pre generalizing p with
  | nil => rfl
  | cons c pre ih => exact ih

theorem linked_concat : Linked mem p (pre ++ [a]) q ↔
    Linked mem p pre a.start ∧ xBlockSize mem a.start = a.size ∧
      pxNextFreeBlock mem a.start = q := by
  induction pre generalizing p with
  | nil => exact Iff.rfl
  | cons c pre ih => simp only [List.cons_append, Linked, ih, and_assoc]

/-- Headers that no store has touched are linked as they were. -/
theorem Linked.congr (h : Linked mem p l q) (hp : pxNextFreeBlock mem' v = pxNextFreeBlock mem p)
    (hl : ∀ a ∈ l, pxNextFreeBlock mem' a.start = pxNextFreeBlock mem a.start ∧
      xBlockSize mem' a.start = xBlockSize mem a.start) : Linked mem' v l q := by
  induction l generalizing p v with
  | nil => exact hp.trans h
  | cons a l ih =>
    obtain ⟨hnext, hsize, hrest⟩ := h
    obtain ⟨hnext', hsize'⟩ := hl a List.mem_cons_self
    exact ⟨hp.trans hnext, hsize'.trans hsize,
      ih hrest hnext' fun c hc => hl c (List.mem_cons_of_mem _ hc)⟩

/-! ## Where a block may lie -/

variable {lay : Layout}

/-- The first byte of the heap that blocks are cut from. -/
def base (lay : Layout) : ℕ := (alignedHeap lay).1

theorem xHeapStructSize_eq : xHeapStructSize = 16 := by decide

theorem heapMinimumBlockSize_eq : heapMinimumBlockSize = 32 := by decide

theorem and_alignment : w &&& portByteAlignmentMask = w % 16 := Masks.and_low (k := 4)

theorem and_complement_alignment (h : w < 2 ^ 64) :
    w &&& complement portByteAlignmentMask = 16 * (w / 16) :=
  Masks.and_not_low (k := 4) h (by decide)

theorem addSize_of_lt (h : v + w < 2 ^ 64) : addSize v w = v + w := Nat.mod_eq_of_lt h

theorem subSize_of_le (h : w ≤ v) (hv : v < 2 ^ 64) : subSize v w = v - w := by
  rw [subSize]
  omega

theorem alignedHeap_eq (lay : Layout) : alignedHeap lay =
    (16 * ((lay.ucHeap + 15) / 16),
      lay.ucHeap + configTotalHeapSize - 16 * ((lay.ucHeap + 15) / 16)) := by
  have hfits := lay.ucHeap_fits
  rw [configTotalHeapSize] at hfits
  rw [alignedHeap, and_alignment, configTotalHeapSize]
  split_ifs with hodd
  · rw [show portByteAlignment - 1 = 15 from rfl, addSize_of_lt (by omega),
      and_complement_alignment (by omega)]
    dsimp only
    rw [subSize_of_le (w := lay.ucHeap) (by omega) (by omega), subSize_of_le (by omega) (by omega)]
    exact Prod.ext rfl (by simp only; omega)
  · exact Prod.ext (by simp only; omega) (by simp only; omega)

theorem endMarker_eq (lay : Layout) :
    endMarker lay = 16 * ((lay.ucHeap + configTotalHeapSize - 16) / 16) := by
  have hfits := lay.ucHeap_fits
  have hlarge : 16 * ((lay.ucHeap + 15) / 16) ≤ lay.ucHeap + configTotalHeapSize := by
    rw [configTotalHeapSize]
    omega
  rw [endMarker, alignedHeap_eq, addSize_of_lt (by simp only; omega), xHeapStructSize_eq]
  simp only [Nat.add_sub_cancel' hlarge]
  rw [subSize_of_le (by rw [configTotalHeapSize]; omega) hfits,
    and_complement_alignment (by omega)]

/-- **The heap between its ends**: aligned, the end marker inside with its
header, and room for a block before it. -/
theorem alignedHeap_spec (lay : Layout) :
    base lay % 16 = 0 ∧ endMarker lay % 16 = 0 ∧ lay.ucHeap ≤ base lay ∧
      base lay + 48 < endMarker lay ∧ endMarker lay + 16 ≤ lay.ucHeap + configTotalHeapSize := by
  rw [endMarker_eq, base, alignedHeap_eq, configTotalHeapSize]
  omega

/-- A span that may be a block: aligned, and between the ends of the
heap. -/
structure Placed (lay : Layout) (x : Span) : Prop where
  start_mod : x.start % 16 = 0
  size_mod : x.size % 16 = 0
  base_le : base lay ≤ x.start
  stop_le : x.stop ≤ endMarker lay

variable {x y : Span}

namespace Placed

theorem of_mem_covered (hx : Placed lay x) (hw : w ∈ x.bytes) :
    lay.ucHeap ≤ w ∧ w + 16 < lay.ucHeap + configTotalHeapSize := by
  have hspec := alignedHeap_spec lay
  have := hx.base_le
  have := hx.stop_le
  rw [mem_bytes] at hw
  omega

theorem size_ge (hx : Placed lay x) (hpos : 0 < x.size) : 16 ≤ x.size := by
  have := hx.size_mod
  omega

theorem size_lt (hx : Placed lay x) : x.size < 2 ^ 63 := by
  have hspec := alignedHeap_spec lay
  have := hx.base_le
  have := hx.stop_le
  rw [stop] at this
  rw [configTotalHeapSize] at hspec
  omega

/-- The header of a block is in the block, and not that of `xStart`. -/
theorem start_ne_xStart (hx : Placed lay x) (hpos : 0 < x.size) :
    x.start ≠ lay.xStart ∧ x.start + 8 ≠ lay.xStart ∧ x.start ≠ lay.xStart + 8 ∧
      lay.xStart + 8 ∉ x.bytes ∧ lay.xStart ∉ x.bytes := by
  have hspec := alignedHeap_spec lay
  have hapart := lay.xStart_apart
  have := hx.base_le
  have := hx.stop_le
  have := hx.size_ge hpos
  rw [mem_bytes, mem_bytes]
  simp only [sizeofBlockLink, stop] at *
  omega

end Placed

/-! ## The loop to the place of a block -/

/-- The loop stops at the last header before the block. -/
theorem seekInsertion_eq (h : Linked mem p pre q) (hpre : ∀ a ∈ pre, a.start < v) (hq : v ≤ q)
    (hfuel : pre.length < fuel) : seekInsertion mem v fuel p = some (last p pre) := by
  induction pre generalizing p fuel with
  | nil =>
    obtain ⟨fuel, rfl⟩ : ∃ k, fuel = k + 1 := ⟨fuel - 1, by simp at hfuel; omega⟩
    have hnext : pxNextFreeBlock mem p = q := h
    rw [seekInsertion, hnext, if_neg (by omega), last]
  | cons a pre ih =>
    obtain ⟨fuel, rfl⟩ : ∃ k, fuel = k + 1 := ⟨fuel - 1, by simp at hfuel; omega⟩
    obtain ⟨hnext, -, hrest⟩ := h
    have ha := hpre a List.mem_cons_self
    rw [seekInsertion, hnext, if_pos ha, last]
    refine ih hrest (fun c hc => hpre c (List.mem_cons_of_mem _ hc)) ?_
    rw [List.length_cons] at hfuel
    omega

/-! ## The three stores -/

/-- Two spans that are blocks and do not overlap have their headers apart. -/
theorem Placed.header_ne (hx : Placed lay x) (hy : Placed lay y) (h : x.stop ≤ y.start)
    (hpos : 0 < x.size) : x.start ≠ y.start ∧ x.start ≠ y.start + 8 ∧ x.start + 8 ≠ y.start := by
  have := hx.start_mod
  have := hy.start_mod
  rw [stop] at h
  omega

/-- Sizes of blocks that do not overlap do not add up to more than the
heap. -/
theorem Placed.addSize_eq (hy : Placed lay y) (h : x.stop ≤ y.start) :
    addSize x.size y.size = x.size + y.size := by
  have hspec := alignedHeap_spec lay
  have hfits := lay.ucHeap_fits
  have := hy.stop_le
  refine addSize_of_lt ?_
  simp only [stop] at *
  omega

/-- Stores to the header of a block leave the headers of the others. -/
theorem Linked.congr_of_ne (h : Linked mem p l q) (hl : ∀ c ∈ l, Placed lay c)
    (hnext : pxNextFreeBlock mem' v = pxNextFreeBlock mem p) (hn : Placed lay n)
    (hne : ∀ c ∈ l, c.start ≠ n.start)
    (hmem : ∀ w, w ≠ n.start → w ≠ n.start + 8 → mem' w = mem w) : Linked mem' v l q := by
  refine h.congr hnext fun c hc => ?_
  have := (hl c hc).start_mod
  have := hn.start_mod
  have := hne c hc
  exact ⟨hmem _ (by omega) (by omega), hmem _ (by omega) (by omega)⟩

/-- **The block is made one with what is behind it**, if the two meet:
what `joinRight` says, in the block's own header. -/
theorem mergeBehind_spec (hnext : pxNextFreeBlock mem p = first (endMarker lay) post)
    (hsize : xBlockSize mem n.start = n.size) (hpost : ∀ c ∈ post, Placed lay c ∧ 0 < c.size)
    (hn : Placed lay n) (hpos : 0 < n.size) (hp : p ≠ n.start + 8)
    (hapart : Apart post) (hle : ∀ c ∈ post, n.stop ≤ c.start)
    (hlink : Linked mem p post (endMarker lay)) :
    ∃ s rest, joinRight n post = ⟨n.start, s⟩ :: rest ∧
      xBlockSize (mergeBehind (endMarker lay) mem p n.start) n.start = s ∧
      Linked (mergeBehind (endMarker lay) mem p n.start) n.start rest (endMarker lay) ∧
      ∀ w, w ≠ n.start → w ≠ n.start + 8 →
        mergeBehind (endMarker lay) mem p n.start w = mem w := by
  have hspec := alignedHeap_spec lay
  have hnpos := hn.size_ge hpos
  cases post with
  | nil =>
    refine ⟨n.size, [], rfl, ?_⟩
    have hboth : mergeBehind (endMarker lay) mem p n.start =
        setNext mem n.start (endMarker lay) := by
      rw [mergeBehind, hnext, first]
      simp
    rw [hboth]
    refine ⟨?_, ?_, fun w hw _ => setNext_of_ne hw⟩
    · rw [size_setNext, if_neg (by omega), hsize]
    · rw [Linked, next_setNext, if_pos rfl]
  | cons c post =>
    obtain ⟨-, hcsize, hrest⟩ := hlink
    obtain ⟨hc, hcpos⟩ := hpost c List.mem_cons_self
    have hnc := hle c List.mem_cons_self
    have hcge := hc.size_ge hcpos
    have hcend : c.start ≠ endMarker lay := by
      have := hc.stop_le
      rw [stop] at this
      omega
    obtain ⟨hne, hne8, h8ne⟩ := hn.header_ne hc hnc hpos
    have hgap := (apart_cons.1 hapart).2.1
    have hpne : ∀ d ∈ post, d.start ≠ n.start := by
      intro d hd
      have := hgap d hd
      simp only [stop] at *
      omega
    have hpost' : ∀ d ∈ post, Placed lay d := fun d hd => (hpost d (List.mem_cons_of_mem _ hd)).1
    rw [joinRight]
    by_cases hmeet : n.start + n.size = c.start
    · have hmerged : mergeBehind (endMarker lay) mem p n.start =
          setNext (setSize mem n.start (n.size + c.size)) n.start (pxNextFreeBlock mem c.start) := by
        rw [mergeBehind, hnext, first, hsize, if_pos hmeet, if_pos hcend, hcsize,
          hc.addSize_eq hnc]
        dsimp only
        rw [next_setSize (q := p), if_neg hp, hnext, first, next_setSize, if_neg (by omega)]
      have hmem : ∀ w, w ≠ n.start → w ≠ n.start + 8 →
          mergeBehind (endMarker lay) mem p n.start w = mem w := by
        intro w hw hw8
        rw [hmerged, setNext_of_ne hw, setSize_of_ne hw8]
      refine ⟨n.size + c.size, post, if_pos hmeet, ?_, ?_, hmem⟩
      · rw [hmerged, size_setNext, if_neg (by omega), size_setSize, if_pos rfl]
      · refine hrest.congr_of_ne hpost' ?_ hn hpne hmem
        rw [hmerged, next_setNext, if_pos rfl]
    · have hplain : mergeBehind (endMarker lay) mem p n.start = setNext mem n.start c.start := by
        rw [mergeBehind, hnext, first, hsize, if_neg hmeet]
      have hmem : ∀ w, w ≠ n.start → w ≠ n.start + 8 →
          mergeBehind (endMarker lay) mem p n.start w = mem w := by
        intro w hw _
        rw [hplain, setNext_of_ne hw]
      refine ⟨n.size, c :: post, if_neg hmeet, ?_, ⟨?_, ?_, ?_⟩, hmem⟩
      · rw [hplain, size_setNext, if_neg (by omega), hsize]
      · rw [hplain, next_setNext, if_pos rfl]
      · rw [hplain, size_setNext, if_neg (by omega), hcsize]
      · refine hrest.congr_of_ne hpost' ?_ hn hpne hmem
        rw [hplain, next_setNext, if_neg (by omega)]

/-- The header before the place of a block: that of `xStart`, or of the
span before. -/
theorem last_eq (p : ℕ) (pre : List Span) : last p pre = p ∨ ∃ a ∈ pre, last p pre = a.start := by
  rcases List.eq_nil_or_concat' pre with rfl | ⟨pre, a, rfl⟩
  · exact .inl rfl
  · exact .inr ⟨a, by simp, last_concat⟩

theorem mem_of_joinRight {s : ℕ} {rest : List Span} (h : joinRight n post = ⟨v, s⟩ :: rest)
    (ha : a ∈ rest) : a ∈ post := by
  cases post with
  | nil =>
    obtain ⟨-, rfl⟩ := List.cons_eq_cons.1 h
    exact ha
  | cons c post =>
    rw [joinRight] at h
    split_ifs at h
    · obtain ⟨-, rfl⟩ := List.cons_eq_cons.1 h
      exact List.mem_cons_of_mem _ ha
    · obtain ⟨-, rfl⟩ := List.cons_eq_cons.1 h
      exact ha

/-- The header before the place of a block is none of those from the block
on. -/
theorem last_ne (hpre : ∀ a ∈ pre, Placed lay a ∧ 0 < a.size ∧ a.stop ≤ n.start)
    (hx : Placed lay x) (hpos : 0 < x.size) (hle : n.start ≤ x.start) :
    last lay.xStart pre ≠ x.start ∧ last lay.xStart pre ≠ x.start + 8 := by
  rcases last_eq lay.xStart pre with heq | ⟨a, ha, heq⟩
  · obtain ⟨h1, h2, -⟩ := hx.start_ne_xStart hpos
    rw [heq]
    exact ⟨h1.symm, h2.symm⟩
  · obtain ⟨ha, hapos, hstop⟩ := hpre a ha
    obtain ⟨h1, h2, -⟩ := ha.header_ne hx (hstop.trans hle) hapos
    rw [heq]
    exact ⟨h1, h2⟩

/-- The spans before are linked to the block, once the header before it
leads there. -/
theorem Linked.relink (h : Linked mem lay.xStart pre q)
    (hpre : ∀ a ∈ pre, Placed lay a ∧ 0 < a.size) (hapart : Apart pre)
    (hlast : pxNextFreeBlock mem' (last lay.xStart pre) = v)
    (hmem : ∀ a ∈ pre, xBlockSize mem' a.start = xBlockSize mem a.start)
    (hnext : ∀ w, w ≠ last lay.xStart pre → (w = lay.xStart ∨ ∃ a ∈ pre, w = a.start) →
      mem' w = mem w) : Linked mem' lay.xStart pre v := by
  rcases List.eq_nil_or_concat' pre with rfl | ⟨pre, a, rfl⟩
  · exact hlast
  · rw [last_concat] at hlast hnext
    rw [linked_concat] at h ⊢
    obtain ⟨hlink, hsize, -⟩ := h
    have ha := hpre a (by simp)
    refine ⟨hlink.congr ?_ ?_, (hmem a (by simp)).trans hsize, hlast⟩
    · exact hnext _ (ha.1.start_ne_xStart ha.2).1.symm (.inl rfl)
    · intro c hc
      have hgap := (apart_append.1 hapart).2.2 c hc a (by simp)
      have hne : c.start ≠ a.start := by
        rw [stop] at hgap
        omega
      exact ⟨hnext _ hne (.inr ⟨c, by simp [hc], rfl⟩), hmem c (by simp [hc])⟩

/-- **A block that does not meet the one before** is linked between it and
what is behind. -/
theorem linkBefore_spec (hlink : Linked mem lay.xStart (pre ++ post) (endMarker lay))
    (hpre : ∀ a ∈ pre, Placed lay a ∧ 0 < a.size ∧ a.stop ≤ n.start)
    (hpost : ∀ c ∈ post, Placed lay c ∧ 0 < c.size) (hapart : Apart (pre ++ post))
    (hsize : xBlockSize mem n.start = n.size) (hn : Placed lay n) (hpos : 0 < n.size)
    (hle : ∀ c ∈ post, n.stop ≤ c.start) :
    Linked (linkBefore (mergeBehind (endMarker lay) mem (last lay.xStart pre) n.start)
        (last lay.xStart pre) n.start) lay.xStart (pre ++ joinRight n post) (endMarker lay) ∧
      ∀ w, w ≠ n.start → w ≠ n.start + 8 → w ≠ last lay.xStart pre →
        linkBefore (mergeBehind (endMarker lay) mem (last lay.xStart pre) n.start)
          (last lay.xStart pre) n.start w = mem w := by
  obtain ⟨hlpre, hlpost⟩ := linked_append.1 hlink
  obtain ⟨hapre, hapost, -⟩ := apart_append.1 hapart
  obtain ⟨hne, hne8⟩ := last_ne hpre hn hpos (le_refl _)
  obtain ⟨s, rest, hjoin, hs, hrest, hmem⟩ := mergeBehind_spec hlpost.next_eq hsize hpost hn hpos
    hne8 hapost hle hlpost
  have hlinked : linkBefore (mergeBehind (endMarker lay) mem (last lay.xStart pre) n.start)
      (last lay.xStart pre) n.start = setNext (mergeBehind (endMarker lay) mem
        (last lay.xStart pre) n.start) (last lay.xStart pre) n.start := if_pos hne
  rw [hlinked, hjoin]
  have hframe : ∀ w, w ≠ n.start → w ≠ n.start + 8 → w ≠ last lay.xStart pre →
      setNext (mergeBehind (endMarker lay) mem (last lay.xStart pre) n.start)
        (last lay.xStart pre) n.start w = mem w := by
    intro w hw hw8 hwl
    rw [setNext_of_ne hwl, hmem w hw hw8]
  refine ⟨linked_append.2 ⟨?_, ?_, ?_, ?_⟩, hframe⟩
  · -- the spans before keep their headers, but for the last one's link
    refine hlpre.relink (fun a ha => ⟨(hpre a ha).1, (hpre a ha).2.1⟩) hapre ?_ ?_ ?_
    · rw [next_setNext, if_pos rfl, first]
    · intro a ha
      obtain ⟨hap, hapos, hstop⟩ := hpre a ha
      obtain ⟨h1, h2, h3⟩ := hap.header_ne hn hstop hapos
      refine hframe _ h3 (by omega) ?_
      rcases last_eq lay.xStart pre with heq | ⟨c, hc, heq⟩
      · rw [heq]
        exact (hap.start_ne_xStart hapos).2.1
      · rw [heq]
        have := hap.start_mod
        have := (hpre c hc).1.start_mod
        omega
    · rintro w hw (rfl | ⟨a, ha, rfl⟩)
      · obtain ⟨h1, h2, -⟩ := hn.start_ne_xStart hpos
        exact hframe _ h1.symm h2.symm hw
      · obtain ⟨hap, hapos, hstop⟩ := hpre a ha
        obtain ⟨h1, h2, -⟩ := hap.header_ne hn hstop hapos
        exact hframe _ h1 h2 hw
  · rw [next_setNext, if_pos rfl]
  · rw [size_setNext, if_neg hne8.symm]
    exact hs
  · refine hrest.congr ?_ ?_
    · rw [next_setNext, if_neg hne.symm]
    · intro c hc
      have hcp := hpost c (mem_of_joinRight hjoin hc)
      have hcle := hle c (mem_of_joinRight hjoin hc)
      obtain ⟨h1, h2⟩ := last_ne hpre hcp.1 hcp.2 (by rw [stop] at hcle; omega)
      rw [next_setNext, if_neg h1.symm, size_setNext, if_neg h2.symm]
      exact ⟨rfl, rfl⟩

theorem Linked.next_last (h : Linked mem p l q) : pxNextFreeBlock mem (last p l) = q := by
  induction l generalizing p with
  | nil => exact h
  | cons a l ih => exact ih h.2.2

/-- **A block that meets the one before** grows that one. -/
theorem mergeBefore_spec (hlink : Linked mem lay.xStart (pre ++ a :: post) (endMarker lay))
    (hall : ∀ x ∈ pre ++ a :: post, Placed lay x) (hapart : Apart (pre ++ a :: post))
    (hsize : xBlockSize mem b.start = b.size) (hb : Placed lay b) (hmeet : a.stop = b.start)
    (hle : ∀ c ∈ post, b.stop ≤ c.start) :
    ∃ mem', mergeBefore mem a.start b.start = (mem', a.start) ∧
      Linked (mergeBehind (endMarker lay) mem' a.start a.start) lay.xStart
        (pre ++ joinRight ⟨a.start, a.size + b.size⟩ post) (endMarker lay) ∧
      ∀ w, w ≠ a.start → w ≠ a.start + 8 →
        mergeBehind (endMarker lay) mem' a.start a.start w = mem w := by
  obtain ⟨hlpre, hlast, hasize, hlpost⟩ := linked_append.1 hlink
  obtain ⟨hapre, hapost, hcross⟩ := apart_append.1 hapart
  obtain ⟨hapos, hgap, hrest⟩ := apart_cons.1 hapost
  have ha : Placed lay a := hall a (by simp)
  have hpost : ∀ c ∈ post, Placed lay c := fun c hc => hall c (by simp [hc])
  have hn : Placed lay ⟨a.start, a.size + b.size⟩ := by
    have := hb.size_mod
    have := ha.size_mod
    have := hb.stop_le
    refine ⟨ha.start_mod, by simp only; omega, ha.base_le, ?_⟩
    simp only [stop] at *
    omega
  have hne : ∀ c ∈ post, c.start ≠ a.start := by
    intro c hc
    have := hgap c hc
    rw [stop] at this
    omega
  refine ⟨setSize mem a.start (a.size + b.size), ?_, ?_⟩
  · rw [mergeBefore, hasize, if_pos (show a.start + a.size = b.start from hmeet), hsize,
      hb.addSize_eq hmeet.le]
  have hmem1 : ∀ w, w ≠ a.start → w ≠ a.start + 8 →
      setSize mem a.start (a.size + b.size) w = mem w := fun w _ hw => setSize_of_ne hw
  have hlpost1 : Linked (setSize mem a.start (a.size + b.size)) a.start post (endMarker lay) := by
    refine hlpost.congr_of_ne hpost ?_ ha hne hmem1
    rw [next_setSize, if_neg (by omega)]
  obtain ⟨s, rest, hjoin, hs, hlrest, hmem⟩ := mergeBehind_spec
    (n := ⟨a.start, a.size + b.size⟩) hlpost1.next_eq (by rw [size_setSize, if_pos rfl])
    (fun c hc => ⟨hpost c hc, hrest.size_pos c hc⟩) hn (by simp only; omega)
    (by simp only; omega) hrest (fun c hc => by
      have := hle c hc
      simp only [stop] at *
      omega) hlpost1
  simp only at hjoin hs hlrest hmem
  have hframe : ∀ w, w ≠ a.start → w ≠ a.start + 8 → mergeBehind (endMarker lay)
      (setSize mem a.start (a.size + b.size)) a.start a.start w = mem w := by
    intro w hw hw8
    rw [hmem w hw hw8, hmem1 w hw hw8]
  have hpre' : Linked (mergeBehind (endMarker lay) (setSize mem a.start (a.size + b.size))
      a.start a.start) lay.xStart pre a.start := by
    obtain ⟨h1, h2, -⟩ := ha.start_ne_xStart hapos
    refine hlpre.congr_of_ne (fun c hc => hall c (by simp [hc])) (hframe _ h1.symm h2.symm) ha
      ?_ hframe
    intro c hc
    have := hcross c hc a List.mem_cons_self
    rw [stop] at this
    omega
  rw [hjoin]
  exact ⟨linked_append.2 ⟨hpre', hpre'.next_last, hs, hlrest⟩, hframe⟩

/-- The free list is not longer than the walk that is allowed. -/
theorem length_lt_walkFuel (hapart : Apart free) (hplaced : ∀ x ∈ free, Placed lay x) :
    free.length < walkFuel := by
  have hspec := alignedHeap_spec lay
  have h1 := hapart.length_le_total
  have h2 := hapart.total_le (fun x hx => (hplaced x hx).base_le)
    (fun x hx => (hplaced x hx).stop_le) (by omega)
  rw [walkFuel]
  omega

/-- The header of a block among others is where they cover. -/
theorem header_mem (hn : Placed lay n) (hpos : 0 < n.size) (h : ∀ w ∈ n.bytes, w ∈ covered l) :
    n.start ∈ covered l ∧ n.start + 8 ∈ covered l := by
  have hge := hn.size_ge hpos
  refine ⟨h _ ?_, h _ ?_⟩
  · rw [mem_bytes, stop]
    omega
  · rw [mem_bytes, stop]
    omega

/-- **`prvInsertBlockIntoFreeList` puts the block back.** Its loop ends,
the list is that of the spans with the block released among them, and
nothing is stored but in the headers of these. -/
theorem prvInsert_spec (hlink : Linked mem lay.xStart free (endMarker lay))
    (hstart : xBlockSize mem lay.xStart = 0) (hapart : Apart free)
    (hplaced : ∀ x ∈ free, Placed lay x) (hb : Placed lay b) (hpos : 0 < b.size)
    (hfree : Disjoint b.bytes (covered free)) (hsize : xBlockSize mem b.start = b.size) :
    ∃ mem', prvInsertBlockIntoFreeList lay (endMarker lay) mem b.start = some mem' ∧
      Linked mem' lay.xStart (release b free) (endMarker lay) ∧
      ∀ w, w ≠ lay.xStart → w ∉ covered (release b free) → mem' w = mem w := by
  have hlen := length_lt_walkFuel hapart hplaced
  have hbmem := header_mem (l := release b free) hb hpos
    fun w hw => mem_covered_release.2 (.inl hw)
  have hmem : ∀ a ∈ free, a.start ∈ covered (release b free) ∧
      a.start + 8 ∈ covered (release b free) := fun a ha =>
    header_mem (hplaced a ha) (hapart.size_pos a ha)
      fun w hw => mem_covered_release.2 (.inr ⟨a, ha, hw⟩)
  obtain ⟨pre, post, rfl, hpre, hpost⟩ := hapart.exists_split hpos hfree
  have hlpre := (linked_append.1 hlink).1
  obtain ⟨hapre, hapost, hcross⟩ := apart_append.1 hapart
  have hppre : ∀ a ∈ pre, Placed lay a ∧ 0 < a.size ∧ a.stop ≤ b.start := fun a ha =>
    ⟨hplaced a (List.mem_append_left _ ha), hapre.size_pos a ha, hpre a ha⟩
  have hppost : ∀ a ∈ post, Placed lay a ∧ 0 < a.size := fun a ha =>
    ⟨hplaced a (List.mem_append_right _ ha), hapost.size_pos a ha⟩
  have hbefore : ∀ a ∈ pre, a.start < b.start := by
    intro a ha
    obtain ⟨-, h1, h2⟩ := hppre a ha
    rw [stop] at h2
    omega
  have hbehind : ∀ c ∈ post, b.start < c.start := by
    intro c hc
    have := hpost c hc
    rw [stop] at this
    omega
  have hfirst : b.start ≤ first (endMarker lay) post := by
    cases post with
    | nil =>
      have := hb.stop_le
      rw [stop] at this
      rw [first]
      omega
    | cons c post => exact (hbehind c List.mem_cons_self).le
  have hshort : pre.length < walkFuel := by
    rw [List.length_append] at hlen
    omega
  have hseek := seekInsertion_eq hlpre hbefore hfirst hshort
  rw [prvInsertBlockIntoFreeList, hseek, Option.map_some]
  refine ⟨_, rfl, ?_⟩
  by_cases hmeet : ∃ pre' a, pre = pre' ++ [a] ∧ a.stop = b.start
  · obtain ⟨pre, a, rfl, hmeet⟩ := hmeet
    have hassoc : pre ++ [a] ++ post = pre ++ a :: post := by simp
    have hapos := (hppre a (by simp)).2.1
    have hrelease : release b (pre ++ a :: post) =
        pre ++ joinRight ⟨a.start, a.size + b.size⟩ post := by
      rw [release_append, release_meet hapos hmeet]
      intro c hc
      exact ((apart_append.1 hapre).2.2 c hc a (by simp)).trans (hbefore a (by simp))
    rw [hassoc] at hlink hapart hplaced hmem ⊢
    obtain ⟨mem', hbef, hlink', hframe⟩ := mergeBefore_spec hlink hplaced hapart hsize hb hmeet
      hpost
    rw [last_concat, hbef, hrelease]
    simp only [linkBefore, ne_eq, not_true_eq_false, if_false]
    refine ⟨hlink', fun w _ hw => hframe w ?_ ?_⟩
    · rintro rfl
      exact hw (hrelease ▸ (hmem a (by simp)).1)
    · rintro rfl
      exact hw (hrelease ▸ (hmem a (by simp)).2)
  · have hgap : ∀ a ∈ pre, a.stop < b.start := by
      intro a ha
      refine lt_of_le_of_ne (hpre a ha) fun heq => ?_
      obtain ⟨l, r, rfl⟩ := List.append_of_mem ha
      rcases List.eq_nil_or_concat' r with rfl | ⟨r, c, rfl⟩
      · exact hmeet ⟨l, a, rfl, heq⟩
      · have h1 := (apart_cons.1 (apart_append.1 hapre).2.1).2.1 c (by simp)
        have h2 := hbefore c (by simp)
        omega
    have hrelease : release b (pre ++ post) = pre ++ joinRight b post := by
      rw [release_append hgap, release_eq_joinRight hbehind]
    have hno : ¬ last lay.xStart pre + xBlockSize mem (last lay.xStart pre) = b.start := by
      rcases List.eq_nil_or_concat' pre with rfl | ⟨pre, a, rfl⟩
      · rw [last, hstart]
        exact (hb.start_ne_xStart hpos).1.symm
      · have hasize := (linked_concat.1 hlpre).2.1
        have := hgap a (by simp)
        rw [last_concat, hasize]
        exact this.ne
    have hbef : mergeBefore mem (last lay.xStart pre) b.start = (mem, b.start) := if_neg hno
    obtain ⟨hlink', hframe⟩ := linkBefore_spec hlink hppre hppost hapart hsize hb hpos hpost
    rw [hbef, hrelease]
    refine ⟨hlink', fun w hxs hw => hframe w ?_ ?_ ?_⟩
    · rintro rfl
      exact hw (hrelease ▸ hbmem.1)
    · rintro rfl
      exact hw (hrelease ▸ hbmem.2)
    · rintro rfl
      rcases last_eq lay.xStart pre with heq | ⟨a, ha, heq⟩
      · exact hxs heq
      · rw [heq] at hw
        exact hw (hrelease ▸ (hmem a (List.mem_append_left _ ha)).1)

end Amp

end ObcSdk
