import ObcSdk.Properties.HeapList
import ObcSdk.Lib.Arena
/-!
# The calls of the heap

A heap stands for an arena: its free list is what is free, and the headers
of the blocks handed out say so. `prvHeapInit` makes the heap of an
untouched arena, `pvPortMalloc` takes the first span that fits, or nothing
where none does, and `vPortFree` gives a span back.
-/

namespace ObcSdk

namespace Amp

open ObcSdk.Span ObcSdk.Spans

variable {lay : Layout} {mem : Mem} {g g' : Heap} {l : List Span} {x : Span} {p q v w fuel : ℕ}
  {xWantedSize pv : ℕ} {A : Arena (base lay) (endMarker lay)}

theorem base_lt (lay : Layout) : base lay < endMarker lay := by
  have := alignedHeap_spec lay
  omega

/-- **A heap that stands for an arena.** -/
structure Represents (lay : Layout) (g : Heap) (A : Arena (base lay) (endMarker lay)) :
    Prop where
  pxEnd : g.pxEnd = endMarker lay
  bit : g.xBlockAllocatedBit = 2 ^ 63
  linked : Linked g.mem lay.xStart A.free (endMarker lay)
  start_size : xBlockSize g.mem lay.xStart = 0
  end_size : xBlockSize g.mem (endMarker lay) = 0
  end_next : pxNextFreeBlock g.mem (endMarker lay) = 0
  aligned : ∀ x, x ∈ A.free ∨ x ∈ A.live → x.start % 16 = 0 ∧ x.size % 16 = 0
  owned : ∀ x ∈ A.live,
    pxNextFreeBlock g.mem x.start = 0 ∧ xBlockSize g.mem x.start = x.size + 2 ^ 63
  remaining : g.xFreeBytesRemaining = total A.free

theorem Represents.placed (h : Represents lay g A) (hx : x ∈ A.free ∨ x ∈ A.live) :
    Placed lay x := by
  obtain ⟨hstart, hsize⟩ := h.aligned x hx
  rcases hx with hx | hx
  · exact ⟨hstart, hsize, (A.free_inside hx).1, (A.free_inside hx).2⟩
  · exact ⟨hstart, hsize, (A.inside x hx).1, (A.inside x hx).2⟩

theorem Represents.pos (A : Arena (base lay) (endMarker lay)) (hx : x ∈ A.free ∨ x ∈ A.live) :
    0 < x.size :=
  hx.elim (A.apart.size_pos x) (A.live_pos x)

/-! ## `prvHeapInit` -/

/-- **An initialised heap stands for an untouched arena.** -/
theorem prvHeapInit_spec (lay : Layout) (g : Heap) :
    Represents lay (prvHeapInit lay g) (.untouched (base_lt lay)) ∧
      ∀ w, w ≠ lay.xStart → w ≠ lay.xStart + 8 →
        (w < base lay ∨ endMarker lay + 16 ≤ w) → (prvHeapInit lay g).mem w = g.mem w := by
  have hspec := alignedHeap_spec lay
  have hfits := lay.ucHeap_fits
  have hapart := lay.xStart_apart
  have hbase : (alignedHeap lay).1 = base lay := rfl
  rw [sizeofBlockLink] at hapart
  have hsub : subSize (endMarker lay) (base lay) = endMarker lay - base lay :=
    subSize_of_le (by omega) (by omega)
  refine ⟨⟨rfl, rfl, ⟨?_, ?_, ?_⟩, ?_, ?_, ?_, ?_, by simp [Arena.untouched], ?_⟩, ?_⟩
  all_goals
    simp only [prvHeapInit, Arena.untouched, hbase, next_setNext, next_setSize, size_setNext,
      size_setSize, hsub, Linked, total_cons, total_nil, List.mem_singleton, List.not_mem_nil]
  · split_ifs <;> omega
  · split_ifs <;> omega
  · split_ifs <;> omega
  · split_ifs <;> omega
  · split_ifs <;> omega
  · split_ifs <;> omega
  · rintro x (rfl | hx)
    · simp only
      omega
    · exact hx.elim
  · split_ifs <;> omega
  · intro w hxs hxs8 hout
    simp only [setNext, setSize, Function.update_apply]
    split_ifs <;> omega

/-! ## `pvPortMalloc` -/

/-- The bytes of the block for a request: with its header, and rounded
up. -/
def need (xWantedSize : ℕ) : ℕ := 16 * ((xWantedSize + 31) / 16)

theorem need_pos : 0 < need xWantedSize := by
  rw [need]
  omega

/-- No request below the top bit is too large for a size, and what it is
made is aligned. -/
theorem blockSizeFor_eq (h : xWantedSize < 2 ^ 63) : blockSizeFor xWantedSize =
    some (if xWantedSize = 0 then 0 else need xWantedSize) := by
  rw [blockSizeFor, xHeapStructSize_eq, addSize_of_lt (by omega), portByteAlignment]
  dsimp only
  rw [and_alignment]
  by_cases h0 : xWantedSize = 0
  · simp [h0]
  rw [if_pos ⟨by omega, by omega⟩, if_neg h0]
  rw [addSize_of_lt (by omega), need, and_alignment]
  by_cases hmod : (xWantedSize + 16) % 16 = 0
  · rw [if_neg (by omega)]
    exact congrArg some (by omega)
  · -- the assertion after rounding holds
    rw [if_pos hmod, if_pos (by omega), if_pos (by omega)]
    exact congrArg some (by omega)

/-- **The loop stops at the first span that fits**, or at the end
marker. -/
theorem seekFit_spec (hlink : Linked mem p l (endMarker lay))
    (hnext : pxNextFreeBlock mem (endMarker lay) = 0)
    (hplaced : ∀ x ∈ l, Placed lay x) (hfuel : l.length < fuel) :
    (∃ f : Fit w l, seekFit mem w fuel p (pxNextFreeBlock mem p) =
        some (last p f.pre, f.span.start)) ∨
      (IsEmpty (Fit w l) ∧ ∃ v, seekFit mem w fuel p (pxNextFreeBlock mem p) =
        some (v, endMarker lay)) := by
  have hspec := alignedHeap_spec lay
  have hheap := lay.ucHeap_pos
  obtain ⟨fuel, rfl⟩ : ∃ k, fuel = k + 1 := ⟨fuel - 1, by omega⟩
  induction l generalizing p fuel with
  | nil =>
    refine .inr ⟨Fit.isEmpty_iff.2 (by simp), p, ?_⟩
    have hp : pxNextFreeBlock mem p = endMarker lay := hlink
    rw [hp, seekFit, hnext, if_neg (by simp)]
  | cons a l ih =>
    obtain ⟨hp, hasize, hrest⟩ := hlink
    have hne : pxNextFreeBlock mem a.start ≠ 0 := by
      rw [hrest.next_eq]
      cases l with
      | nil =>
        rw [first]
        omega
      | cons c l =>
        have := (hplaced c (by simp)).base_le
        rw [first]
        omega
    rw [hp, seekFit, hasize]
    by_cases hw : a.size < w
    · rw [if_pos ⟨hw, hne⟩]
      rw [List.length_cons] at hfuel
      obtain ⟨fuel, rfl⟩ : ∃ k, fuel = k + 1 := ⟨fuel - 1, by omega⟩
      have hshort : l.length < fuel + 1 := by omega
      rcases ih hrest (fun x hx => hplaced x (List.mem_cons_of_mem _ hx)) fuel hshort with
        ⟨f, hf⟩ | ⟨hnone, v, hv⟩
      · refine .inl ⟨⟨a :: f.pre, f.span, f.post, ?_, f.le_size, ?_⟩, hf⟩
        · rw [List.cons_append, ← f.eq]
        · exact List.forall_mem_cons.2 ⟨hw, f.smaller⟩
      · refine .inr ⟨?_, v, hv⟩
        rw [Fit.isEmpty_iff] at hnone ⊢
        exact List.forall_mem_cons.2 ⟨hw, hnone⟩
    · rw [if_neg fun h => hw h.1]
      exact .inl ⟨⟨[], a, l, rfl, by omega, by simp⟩, rfl⟩

variable {pre post : List Span} {mem' : Mem}

/-- A span is taken out of the list when the header before it is linked to
what is behind it. -/
theorem Linked.unlink (h : Linked mem lay.xStart (pre ++ x :: post) (endMarker lay))
    (hplaced : ∀ y ∈ pre ++ x :: post, Placed lay y) (hapart : Apart (pre ++ x :: post)) :
    Linked (setNext mem (last lay.xStart pre) (pxNextFreeBlock mem x.start)) lay.xStart
      (pre ++ post) (endMarker lay) := by
  obtain ⟨hpre, -, -, hpost⟩ := linked_append.1 h
  obtain ⟨hapre, hapost, hcross⟩ := apart_append.1 hapart
  obtain ⟨hxpos, hgap, hapost⟩ := apart_cons.1 hapost
  have hall : ∀ a ∈ pre, Placed lay a ∧ 0 < a.size ∧ a.stop ≤ x.start := fun a ha =>
    ⟨hplaced a (by simp [ha]), hapre.size_pos a ha, (hcross a ha x List.mem_cons_self).le⟩
  refine linked_append.2 ⟨?_, ?_⟩
  · refine hpre.relink (fun a ha => ⟨(hall a ha).1, (hall a ha).2.1⟩) hapre ?_ ?_ ?_
    · rw [next_setNext, if_pos rfl, hpost.next_eq]
    · intro a ha
      refine setNext_of_ne ?_
      rcases last_eq lay.xStart pre with heq | ⟨c, hc, heq⟩
      · rw [heq]
        exact ((hall a ha).1.start_ne_xStart (hall a ha).2.1).2.1
      · have := (hall a ha).1.start_mod
        have := (hall c hc).1.start_mod
        rw [heq]
        omega
    · intro w hw _
      exact setNext_of_ne hw
  · refine hpost.congr ?_ ?_
    · rw [next_setNext, if_pos rfl]
    · intro c hc
      have hlt := hgap c hc
      obtain ⟨h1, h2⟩ := last_ne hall (hplaced c (by simp [hc])) (hapost.size_pos c hc)
        (by rw [stop] at hlt; omega)
      rw [next_setNext, if_neg h1.symm, size_setNext, if_neg h2.symm]
      exact ⟨rfl, rfl⟩

/-- **A block that is taken is split** where enough would be left, and what
is left goes back into the list. -/
theorem splitBlock_spec (hlink : Linked mem lay.xStart (pre ++ post) (endMarker lay))
    (hstart : xBlockSize mem lay.xStart = 0) (hsize : xBlockSize mem x.start = x.size)
    (hplaced : ∀ y ∈ pre ++ x :: post, Placed lay y) (hapart : Apart (pre ++ x :: post))
    (hw : w % 16 = 0) (hpos : 0 < w) (hle : w ≤ x.size) :
    ∃ mem', splitBlock lay (endMarker lay) mem x.start w = some mem' ∧
      Linked mem' lay.xStart (pre ++ leftover 32 w x ++ post) (endMarker lay) ∧
      xBlockSize mem' x.start = (taken 32 w x).size ∧
      ∀ v, v ≠ lay.xStart → v ∉ covered (pre ++ x :: post) → mem' v = mem v := by
  have hspec := alignedHeap_spec lay
  have hfits := lay.ucHeap_fits
  obtain ⟨hapre, hapost, hcross⟩ := apart_append.1 hapart
  obtain ⟨hxpos, hgap, -⟩ := apart_cons.1 hapost
  have hx : Placed lay x := hplaced x (by simp)
  have hstop := hx.stop_le
  rw [stop] at hstop
  have hsub : subSize x.size w = x.size - w := subSize_of_le hle (by omega)
  rw [splitBlock, heapMinimumBlockSize_eq, hsize, hsub]
  by_cases hm : 32 < x.size - w
  · have hxmod := hx.start_mod
    have hxsize := hx.size_mod
    have hb : Placed lay ⟨x.start + w, x.size - w⟩ := by
      refine ⟨by simp only; omega, by simp only; omega, ?_, ?_⟩
      · have := hx.base_le
        simp only
        omega
      · simp only [stop]
        omega
    have hrelease : release ⟨x.start + w, x.size - w⟩ (pre ++ post) =
        pre ++ leftover 32 w x ++ post := by
      rw [leftover, if_pos hm]
      refine release_between ?_ ?_
      · intro a ha
        have := hcross a ha x List.mem_cons_self
        simp only
        omega
      · intro c hc
        have := hgap c hc
        simp only [stop] at *
        omega
    have hwsize : w + 16 ≤ x.size := by omega
    have hmem2 : ∀ v, v ≠ x.start + w + 8 → v ≠ x.start + 8 →
        setSize (setSize mem (x.start + w) (x.size - w)) x.start w v = mem v := by
      intro v hv hv8
      rw [setSize_of_ne hv8, setSize_of_ne hv]
    have hout : ∀ c ∈ pre ++ post, c.stop < x.start ∨ x.stop < c.start := by
      intro c hc
      rcases List.mem_append.1 hc with hc | hc
      · exact .inl (hcross c hc x List.mem_cons_self)
      · exact .inr (hgap c hc)
    have hall : ∀ c ∈ pre ++ post, Placed lay c ∧ 0 < c.size := by
      intro c hc
      rcases List.mem_append.1 hc with hc | hc
      · exact ⟨hplaced c (by simp [hc]), hapre.size_pos c hc⟩
      · exact ⟨hplaced c (by simp [hc]), hapost.size_pos c (List.mem_cons_of_mem _ hc)⟩
    obtain ⟨hb1, hb2, -⟩ := hb.start_ne_xStart (by simp only; omega)
    obtain ⟨hx1, hx2, hx3, hx4, hx5⟩ := hx.start_ne_xStart hxpos
    rw [mem_bytes, stop] at hx4 hx5
    have hlink2 : Linked (setSize (setSize mem (x.start + w) (x.size - w)) x.start w) lay.xStart
        (pre ++ post) (endMarker lay) := by
      refine hlink.congr (hmem2 _ hb2.symm hx2.symm) ?_
      intro c hc
      have hcpos := (hall c hc).1.size_ge (hall c hc).2
      have hside := hout c hc
      simp only [stop] at hside
      exact ⟨hmem2 _ (by omega) (by omega), hmem2 _ (by omega) (by omega)⟩
    obtain ⟨mem', hins, hlink', hframe⟩ := prvInsert_spec hlink2
      ((hmem2 _ (by omega) (by omega)).trans hstart)
      (apart_append.2 ⟨hapre, (apart_cons.1 hapost).2.2,
        fun a ha c hc => hcross a ha c (List.mem_cons_of_mem _ hc)⟩)
      (fun c hc => (hall c hc).1) hb (by simp only; omega)
      (by
        refine Set.disjoint_left.2 ?_
        rintro n hn ⟨c, hc, hnc⟩
        have hside := hout c hc
        rw [mem_bytes] at hn hnc
        simp only [stop] at *
        omega)
      (by
        simp only [size_setSize]
        rw [if_neg (by omega), if_pos trivial])
    rw [if_pos hm, if_pos (by rw [and_alignment]; omega)]
    rw [hrelease] at hlink' hframe
    refine ⟨mem', hins, hlink', ?_, ?_⟩
    · have hnot : x.start + 8 ∉ covered (pre ++ leftover 32 w x ++ post) := by
        rw [hapart.mem_covered_take hle]
        rintro ⟨-, h⟩
        refine h (mem_bytes.2 ⟨by simp, ?_⟩)
        rw [taken, if_pos hm, stop_mk]
        omega
      rw [xBlockSize, hframe _ hx2 hnot, setSize, Function.update_self, taken, if_pos hm]
    · intro v hv hnot
      have hxv : v ∉ x.bytes := fun h =>
        hnot (mem_covered_append.2 (.inr (mem_covered_cons.2 (.inl h))))
      rw [mem_bytes, stop] at hxv
      rw [hframe v hv fun h => hnot ((hapart.mem_covered_take hle).1 h).1,
        hmem2 v (by omega) (by omega)]
  · rw [if_neg hm, leftover, if_neg hm, taken, if_neg hm, List.append_nil]
    exact ⟨mem, rfl, hlink, hsize, fun _ _ _ => rfl⟩

/-- What stores among the free spans leave as it was: the sizes of the two
ends, and the headers of what is handed out. -/
theorem Represents.kept (h : Represents lay g A) (B : Arena (base lay) (endMarker lay))
    (hlive : ∀ x ∈ B.live, x ∈ A.live) (hfree : ∀ x ∈ B.free, Placed lay x)
    (hframe : ∀ v, v ≠ lay.xStart → v ∉ covered B.free → mem' v = g.mem v) :
    xBlockSize mem' lay.xStart = 0 ∧ xBlockSize mem' (endMarker lay) = 0 ∧
      pxNextFreeBlock mem' (endMarker lay) = 0 ∧ ∀ x ∈ B.live,
        pxNextFreeBlock mem' x.start = 0 ∧ xBlockSize mem' x.start = x.size + 2 ^ 63 := by
  have hspec := alignedHeap_spec lay
  have hapart := lay.xStart_apart
  rw [sizeofBlockLink] at hapart
  have hout : ∀ v, v < base lay ∨ endMarker lay ≤ v → v ∉ covered B.free := by
    rintro v hv ⟨x, hx, hn⟩
    have := (hfree x hx).base_le
    have := (hfree x hx).stop_le
    rw [mem_bytes] at hn
    omega
  refine ⟨?_, ?_, ?_, ?_⟩
  · exact (hframe _ (by omega) (hout _ (by omega))).trans h.start_size
  · exact (hframe _ (by omega) (hout _ (by omega))).trans h.end_size
  · exact (hframe _ (by omega) (hout _ (by omega))).trans h.end_next
  · intro x hx
    have hplaced := h.placed (.inr (hlive x hx))
    have hpos := A.live_pos x (hlive x hx)
    obtain ⟨h1, h2, -⟩ := hplaced.start_ne_xStart hpos
    have hge := hplaced.size_ge hpos
    have hdis := Set.disjoint_left.1 (B.disjoint_free hx)
    obtain ⟨hnext, hsize⟩ := h.owned x (hlive x hx)
    refine ⟨(hframe _ h1 (hdis ?_)).trans hnext, (hframe _ h2 (hdis ?_)).trans hsize⟩
    · rw [mem_bytes, stop]
      omega
    · rw [mem_bytes, stop]
      omega

theorem Represents.aligned_take (h : Represents lay g A) (hw : w % 16 = 0) (hpos : 0 < w)
    (f : Fit w A.free) : ∀ x, x ∈ (A.take 32 hpos f).free ∨ x ∈ (A.take 32 hpos f).live →
      x.start % 16 = 0 ∧ x.size % 16 = 0 := by
  obtain ⟨hstart, hsize⟩ := h.aligned _ (.inl f.mem)
  have hold : ∀ y ∈ f.pre ++ f.span :: f.post, y.start % 16 = 0 ∧ y.size % 16 = 0 := by
    rw [← f.eq]
    exact fun y hy => h.aligned y (.inl hy)
  rintro y (hy | hy)
  · change y ∈ f.pre ++ leftover 32 w f.span ++ f.post at hy
    rw [List.mem_append, List.mem_append] at hy
    rcases hy with (hy | hy) | hy
    · exact hold y (by simp [hy])
    · rw [leftover] at hy
      split_ifs at hy
      · rw [List.mem_singleton] at hy
        rw [hy]
        simp only
        omega
      · simp at hy
    · exact hold y (by simp [hy])
  · rcases List.mem_cons.1 hy with rfl | hy
    · refine ⟨hstart, ?_⟩
      rw [taken]
      split_ifs
      · exact hw
      · exact hsize
    · exact h.aligned y (.inr hy)

/-- What a call that hands out a block leaves: the heap of the arena with
the span taken, the counters, and all memory that was not free. -/
structure Takes (lay : Layout) (g : Heap) (A : Arena (base lay) (endMarker lay)) (hpos : 0 < w)
    (f : Fit w A.free) (g' : Heap) : Prop where
  represents : Represents lay g' (A.take 32 hpos f)
  minimumEver : g'.xMinimumEverFreeBytesRemaining =
    min g.xMinimumEverFreeBytesRemaining g'.xFreeBytesRemaining
  allocations : g'.xNumberOfSuccessfulAllocations = addSize g.xNumberOfSuccessfulAllocations 1
  frees : g'.xNumberOfSuccessfulFrees = g.xNumberOfSuccessfulFrees
  frame : ∀ v, v ≠ lay.xStart → v ∉ covered A.free → g'.mem v = g.mem v

/-- **Taking a block** makes the heap of the arena with the span taken. -/
theorem takeBlock_spec (h : Represents lay g A) (hw : w % 16 = 0) (hpos : 0 < w)
    (f : Fit w A.free) : ∃ g', takeBlock lay g w (last lay.xStart f.pre) f.span.start =
      some (g', f.span.start + 16) ∧ Takes lay g A hpos f g' := by
  have hfits := lay.ucHeap_fits
  have hspec := alignedHeap_spec lay
  have hmem := f.mem
  have hx : Placed lay f.span := h.placed (.inl hmem)
  have hxpos := A.apart.size_pos _ hmem
  have hfree : ∀ y ∈ A.free, Placed lay y := fun y hy => h.placed (.inl hy)
  have hlink := h.linked
  have hapart := A.apart
  have hplaced := hfree
  rw [f.eq] at hlink hapart hplaced
  obtain ⟨-, hprev, hsize, -⟩ := linked_append.1 hlink
  obtain ⟨hapre, -, hcross⟩ := apart_append.1 hapart
  have hall : ∀ a ∈ f.pre, Placed lay a ∧ 0 < a.size ∧ a.stop ≤ f.span.start := fun a ha =>
    ⟨hplaced a (by simp [ha]), hapre.size_pos a ha, (hcross a ha _ List.mem_cons_self).le⟩
  obtain ⟨-, hl8⟩ := last_ne hall hx hxpos (le_refl _)
  obtain ⟨hx1, hx2, hx3, -⟩ := hx.start_ne_xStart hxpos
  have hlast : ∀ v, v ≠ lay.xStart → (∀ a ∈ f.pre, v ≠ a.start) → v ≠ last lay.xStart f.pre := by
    intro v hv ha
    rcases last_eq lay.xStart f.pre with heq | ⟨a, hmem, heq⟩
    · rw [heq]
      exact hv
    · rw [heq]
      exact ha a hmem
  have hin : ∀ y ∈ A.free, y.start ∈ covered A.free ∧ y.start + 8 ∈ covered A.free :=
    fun y hy => header_mem (hfree y hy) (A.apart.size_pos y hy) fun w hw => ⟨y, hy, hw⟩
  have hpre : ∀ a ∈ f.pre, a ∈ A.free := by
    intro a ha
    rw [f.eq]
    simp [ha]
  -- the list without the block, then with what is left of it
  have hstart0 : lay.xStart + 8 ≠ last lay.xStart f.pre := hlast _ (by omega) fun a ha =>
    ((hall a ha).1.start_ne_xStart (hall a ha).2.1).2.2.1.symm
  obtain ⟨mem1, hsplit, hlink1, hsize1, hframe1⟩ := splitBlock_spec (w := w)
    (hlink.unlink hplaced hapart) (by rw [size_setNext, if_neg hstart0, h.start_size])
    (by rw [size_setNext, if_neg hl8.symm, hsize]) hplaced hapart hw hpos f.le_size
  rw [← f.eq] at hframe1
  have hstop := hx.stop_le
  have hle := size_taken_le (m := 32) f.le_size
  rw [stop] at hstop
  have htop : (taken 32 w f.span).size < 2 ^ 63 := by
    have := hx.base_le
    rw [configTotalHeapSize] at hspec
    omega
  have htotal := f.total_take (m := 32)
  have hbudget := A.budget
  have hframe : ∀ v, v ≠ lay.xStart → v ∉ covered A.free →
      setNext (setSize mem1 f.span.start ((taken 32 w f.span).size + 2 ^ 63)) f.span.start 0 v =
        g.mem v := by
    intro v hv hnot
    have hne : v ≠ f.span.start := fun heq => hnot (heq ▸ (hin _ hmem).1)
    have hne8 : v ≠ f.span.start + 8 := fun heq => hnot (heq ▸ (hin _ hmem).2)
    have hnel := hlast v hv fun a ha heq => hnot (heq ▸ (hin a (hpre a ha)).1)
    rw [setNext_of_ne hne, setSize_of_ne hne8, hframe1 v hv hnot, setNext_of_ne hnel]
  have hsub : subSize (total A.free) (taken 32 w f.span).size =
      total (A.take 32 hpos f).free := by
    rw [subSize_of_le (by omega) (by omega)]
    change _ = total (f.pre ++ leftover 32 w f.span ++ f.post)
    omega
  have htake : takeBlock lay g w (last lay.xStart f.pre) f.span.start = some (
      { g with
        mem := setNext (setSize mem1 f.span.start ((taken 32 w f.span).size + 2 ^ 63))
          f.span.start 0
        xFreeBytesRemaining := total (A.take 32 hpos f).free
        xMinimumEverFreeBytesRemaining :=
          if total (A.take 32 hpos f).free < g.xMinimumEverFreeBytesRemaining then
            total (A.take 32 hpos f).free
          else g.xMinimumEverFreeBytesRemaining
        xNumberOfSuccessfulAllocations := addSize g.xNumberOfSuccessfulAllocations 1 },
      f.span.start + 16) := by
    rw [takeBlock, hprev, h.pxEnd, hsplit, Option.map_some, hsize1, h.bit, h.remaining,
      xHeapStructSize_eq, Masks.or_top htop, hsub]
  have haligned := h.aligned_take hw hpos f
  refine ⟨_, htake, ⟨?_, ?_, rfl, rfl, hframe⟩⟩
  · obtain ⟨hk1, hk2, hk3, hk4⟩ := h.kept A (fun _ hx => hx) hfree hframe
    refine ⟨h.pxEnd, h.bit, ?_, hk1, hk2, hk3, haligned, List.forall_mem_cons.2 ⟨⟨?_, ?_⟩, hk4⟩,
      rfl⟩
    · refine hlink1.congr_of_ne (n := f.span) ?_ ?_ hx ?_ ?_
      · intro c hc
        obtain ⟨h1, h2⟩ := haligned c (.inl hc)
        obtain ⟨h3, h4⟩ := (A.take 32 hpos f).free_inside hc
        exact ⟨h1, h2, h3, h4⟩
      · rw [next_setNext, if_neg hx1.symm, next_setSize, if_neg hx2.symm]
      · intro c hc heq
        have hcov : c.start ∈ covered (A.take 32 hpos f).free := by
          have := (A.take 32 hpos f).apart.size_pos c hc
          exact ⟨c, hc, mem_bytes.2 ⟨le_refl _, by rw [stop]; omega⟩⟩
        refine Set.disjoint_left.1 ((A.take 32 hpos f).disjoint_free (Arena.taken_mem hpos f))
          (mem_bytes.2 ?_) hcov
        have := le_size_taken (m := 32) f.le_size
        rw [taken_start, stop, taken_start, heq]
        omega
      · exact fun v hv hv8 => (setNext_of_ne hv).trans (setSize_of_ne hv8)
    · rw [taken_start, next_setNext, if_pos rfl]
    · rw [taken_start, size_setNext, if_neg (by omega), size_setSize, if_pos rfl]
  · simp only
    split_ifs <;> omega

/-- **`pvPortMalloc` takes the first span that fits**, and returns `NULL`
where none does, or the request is nothing or has the top bit set. -/
theorem mallocFrom_spec (h : Represents lay g A) (hsize : xWantedSize < 2 ^ 64) :
    (∃ (f : Fit (need xWantedSize) A.free) (g' : Heap), 0 < xWantedSize ∧ xWantedSize < 2 ^ 63 ∧
        mallocFrom lay g xWantedSize = some (g', f.span.start + 16) ∧ Takes lay g A need_pos f g') ∨
      (mallocFrom lay g xWantedSize = some (g, 0) ∧
        (xWantedSize = 0 ∨ 2 ^ 63 ≤ xWantedSize ∨ IsEmpty (Fit (need xWantedSize) A.free))) := by
  rw [mallocFrom, h.bit]
  by_cases htop : xWantedSize < 2 ^ 63
  swap
  · rw [if_neg (mt (Masks.and_top hsize).1 htop)]
    exact .inr ⟨rfl, .inr (.inl (by omega))⟩
  rw [if_pos ((Masks.and_top hsize).2 htop), blockSizeFor_eq htop, Option.bind_some]
  by_cases h0 : xWantedSize = 0
  · rw [if_pos h0]
    exact .inr ⟨if_neg (by simp), .inl h0⟩
  rw [if_neg h0, h.remaining, h.pxEnd]
  by_cases htotal : need xWantedSize ≤ total A.free
  swap
  · refine .inr ⟨if_neg fun hboth => htotal hboth.2, .inr (.inr (Fit.isEmpty_iff.2 fun x hx => ?_))⟩
    have := size_le_total hx
    omega
  dsimp only
  rw [if_pos ⟨need_pos, htotal⟩]
  have hfree : ∀ y ∈ A.free, Placed lay y := fun y hy => h.placed (.inl hy)
  rcases seekFit_spec (w := need xWantedSize) h.linked h.end_next hfree
    (length_lt_walkFuel A.apart hfree) with ⟨f, hf⟩ | ⟨hnone, v, hv⟩
  · obtain ⟨g', htake, htakes⟩ := takeBlock_spec h (by rw [need]; omega) need_pos f
    have hne : f.span.start ≠ endMarker lay := by
      have := (hfree _ f.mem).stop_le
      have := A.apart.size_pos _ f.mem
      rw [stop] at *
      omega
    refine .inl ⟨f, g', by omega, htop, ?_, htakes⟩
    rw [hf, Option.bind_some]
    dsimp only
    rw [if_pos hne, htake]
  · refine .inr ⟨?_, .inr (.inr hnone)⟩
    rw [hv, Option.bind_some]
    exact if_neg (by simp)

/-- Its last assertion holds. -/
theorem pvPortMalloc_eq (h : Represents lay g A) (hsize : xWantedSize < 2 ^ 64) :
    pvPortMalloc lay g xWantedSize = mallocFrom lay g xWantedSize := by
  have hspec := alignedHeap_spec lay
  rw [pvPortMalloc, h.pxEnd, if_neg (by omega)]
  rcases mallocFrom_spec h hsize with ⟨f, g', -, -, hf, -⟩ | ⟨hnull, -⟩
  · rw [hf, Option.bind_some]
    have := (h.aligned _ (.inl f.mem)).1
    dsimp only
    rw [if_pos (by rw [and_alignment]; omega)]
  · rw [hnull, Option.bind_some]
    exact if_pos (Nat.zero_and _)

/-- The first call initialises the heap. -/
theorem pvPortMalloc_of_cold (h : g.pxEnd = 0) :
    pvPortMalloc lay g xWantedSize = pvPortMalloc lay (prvHeapInit lay g) xWantedSize := by
  have hspec := alignedHeap_spec lay
  have hend : (prvHeapInit lay g).pxEnd = endMarker lay := rfl
  rw [pvPortMalloc, pvPortMalloc, h, if_pos rfl, hend, if_neg (by omega)]

/-! ## `vPortFree` -/

/-- What a call that is given a block back leaves. -/
structure Gives (lay : Layout) (g : Heap) (A : Arena (base lay) (endMarker lay)) (hx : x ∈ A.live)
    (g' : Heap) : Prop where
  represents : Represents lay g' (A.give x hx)
  minimumEver : g'.xMinimumEverFreeBytesRemaining = g.xMinimumEverFreeBytesRemaining
  allocations : g'.xNumberOfSuccessfulAllocations = g.xNumberOfSuccessfulAllocations
  frees : g'.xNumberOfSuccessfulFrees = addSize g.xNumberOfSuccessfulFrees 1
  frame : ∀ v, v ≠ lay.xStart → v ∉ covered (A.give x hx).free → g'.mem v = g.mem v

theorem aligned_joinRight {b y : Span} (hl : ∀ c ∈ l, c.start % 16 = 0 ∧ c.size % 16 = 0)
    (hb : b.start % 16 = 0 ∧ b.size % 16 = 0) (hy : y ∈ joinRight b l) :
    y.start % 16 = 0 ∧ y.size % 16 = 0 := by
  cases l with
  | nil =>
    rw [joinRight, List.mem_singleton] at hy
    exact hy ▸ hb
  | cons c l =>
    have hc := hl c List.mem_cons_self
    rw [joinRight] at hy
    split_ifs at hy
    · rcases List.mem_cons.1 hy with rfl | hy
      · exact ⟨hb.1, by simp only; omega⟩
      · exact hl y (List.mem_cons_of_mem _ hy)
    · rcases List.mem_cons.1 hy with rfl | hy
      · exact hb
      · exact hl y hy

theorem aligned_release {b y : Span} (hl : ∀ c ∈ l, c.start % 16 = 0 ∧ c.size % 16 = 0)
    (hb : b.start % 16 = 0 ∧ b.size % 16 = 0) (hy : y ∈ release b l) :
    y.start % 16 = 0 ∧ y.size % 16 = 0 := by
  induction l with
  | nil =>
    rw [release, List.mem_singleton] at hy
    exact hy ▸ hb
  | cons c l ih =>
    have hc := hl c List.mem_cons_self
    have hrest : ∀ c ∈ l, c.start % 16 = 0 ∧ c.size % 16 = 0 := fun c hc =>
      hl c (List.mem_cons_of_mem _ hc)
    rw [release] at hy
    split_ifs at hy
    · exact aligned_joinRight hl hb hy
    · exact aligned_joinRight (b := ⟨c.start, c.size + b.size⟩) hrest
        ⟨hc.1, by simp only; omega⟩ hy
    · rcases List.mem_cons.1 hy with rfl | hy
      · exact hc
      · exact ih hrest hy

/-- **`vPortFree` gives a block back**: its assertions hold, and the block
is put among the free ones. -/
theorem vPortFree_spec (h : Represents lay g A) (hx : x ∈ A.live) :
    ∃ g', vPortFree lay g (x.start + 16) = some g' ∧ Gives lay g A hx g' := by
  have hspec := alignedHeap_spec lay
  have hfits := lay.ucHeap_fits
  have hplaced := h.placed (.inr hx)
  have hpos := A.live_pos x hx
  have hge := hplaced.size_ge hpos
  have hstop := hplaced.stop_le
  rw [stop] at hstop
  have hfree : ∀ y ∈ A.free, Placed lay y := fun y hy => h.placed (.inl hy)
  have htop : x.size < 2 ^ 63 := by
    have := hplaced.base_le
    rw [configTotalHeapSize] at hspec
    omega
  obtain ⟨hnext, hsize⟩ := h.owned x hx
  obtain ⟨hx1, hx2, -⟩ := hplaced.start_ne_xStart hpos
  have hbit : x.size + 2 ^ 63 &&& 2 ^ 63 ≠ 0 := by
    rw [Ne, Masks.and_top (by omega)]
    omega
  have hclear : (x.size + 2 ^ 63) &&& complement (2 ^ 63) = x.size :=
    Masks.add_top_and_not_top (k := 63) htop
  -- no free block has its header there
  have hne : ∀ c ∈ A.free, c.stop ≤ x.start ∨ x.stop ≤ c.start := by
    intro c hc
    have := le_or_le_of_disjoint hpos (A.apart.size_pos c hc)
      (disjoint_of_mem (A.disjoint_free hx) hc)
    exact this.symm
  have hlink : Linked (setSize g.mem x.start x.size) lay.xStart A.free (endMarker lay) := by
    refine h.linked.congr ?_ ?_
    · rw [next_setSize, if_neg hx2.symm]
    · intro c hc
      have hcge := (hfree c hc).size_ge (A.apart.size_pos c hc)
      have hside := hne c hc
      simp only [stop] at hside
      rw [next_setSize, if_neg (by omega), size_setSize, if_neg (by omega)]
      exact ⟨rfl, rfl⟩
  obtain ⟨mem', hins, hlink', hframe⟩ := prvInsert_spec hlink
    (by rw [size_setSize, if_neg hx1.symm, h.start_size]) A.apart hfree hplaced hpos
    (A.disjoint_free hx) (by rw [size_setSize, if_pos rfl])
  have hgives : ∀ v, v ≠ lay.xStart → v ∉ covered (A.give x hx).free → mem' v = g.mem v := by
    intro v hv hnot
    rw [hframe v hv hnot, setSize_of_ne]
    rintro rfl
    exact hnot (mem_covered_release.2 (.inl (mem_bytes.2 ⟨by omega, by rw [stop]; omega⟩)))
  have hbudget := A.budget
  have htotal : addSize (total A.free) x.size = total (A.give x hx).free := by
    have hle := size_le_total hx
    rw [addSize_of_lt (by omega)]
    exact (Nat.add_comm _ _).trans total_release.symm
  have hcall : vPortFree lay g (x.start + 16) = some
      { g with
        mem := mem'
        xFreeBytesRemaining := total (A.give x hx).free
        xNumberOfSuccessfulFrees := addSize g.xNumberOfSuccessfulFrees 1 } := by
    rw [vPortFree, if_pos (by omega), xHeapStructSize_eq, Nat.add_sub_cancel]
    dsimp only
    rw [hsize, h.bit, if_pos ⟨hbit, hnext⟩, hclear, h.pxEnd, hins, Option.map_some, size_setSize,
      if_pos rfl, h.remaining, htotal]
  have haligned : ∀ y, y ∈ (A.give x hx).free ∨ y ∈ (A.give x hx).live →
      y.start % 16 = 0 ∧ y.size % 16 = 0 := by
    rintro y (hy | hy)
    · exact aligned_release (fun c hc => h.aligned c (.inl hc)) (h.aligned x (.inr hx)) hy
    · exact h.aligned y (.inr (List.mem_of_mem_erase hy))
  have hplaced' : ∀ y ∈ (A.give x hx).free, Placed lay y := fun y hy =>
    ⟨(haligned y (.inl hy)).1, (haligned y (.inl hy)).2, ((A.give x hx).free_inside hy).1,
      ((A.give x hx).free_inside hy).2⟩
  obtain ⟨hk1, hk2, hk3, hk4⟩ := h.kept (A.give x hx) (fun y hy => List.mem_of_mem_erase hy)
    hplaced' hgives
  exact ⟨_, hcall, ⟨h.pxEnd, h.bit, hlink', hk1, hk2, hk3, haligned, hk4, rfl⟩, rfl, rfl, rfl,
    hgives⟩

end Amp

end ObcSdk
