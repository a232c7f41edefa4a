import ObcSdk.Properties.HeapAccounts
/-!
# Users of the heap

`vPortGetHeapStats` tells what the free list holds, and by its largest
block which requests will be granted, as long as the list holds a block at
all. `xTaskCreate` leaves the free list as a request finds it where it
fails, and `prvDeleteTCB` of the task where it does not.
-/

namespace ObcSdk

namespace Amp

open ObcSdk.Span ObcSdk.Spans

variable {lay : Layout} {mem mem' : Mem} {W W' V : World} {past : List (World × Call)}
  {A : Arena (base lay) (endMarker lay)} {g g' : Heap} {a x : Span} {l : List Span} {n pv fuel : ℕ}
  {s s' : HeapWalk} {h : Held} {B : Arena (base lay) (endMarker lay)}
  {sizeofTCB usStackDepth pxTCB pxStack : ℕ}

/-! ## `vPortGetHeapStats` -/

/-- What a walk over some blocks has counted, from a count before. -/
structure Counts (s : HeapWalk) (l : List Span) (s' : HeapWalk) : Prop where
  xBlocks : s'.xBlocks = s.xBlocks + l.length
  xMaxSize : s.xMaxSize ≤ s'.xMaxSize ∧ (∀ x ∈ l, x.size ≤ s'.xMaxSize) ∧
    (s'.xMaxSize = s.xMaxSize ∨ ∃ x ∈ l, s'.xMaxSize = x.size)
  xMinSize : s'.xMinSize ≤ s.xMinSize ∧ (∀ x ∈ l, s'.xMinSize ≤ x.size) ∧
    (s'.xMinSize = s.xMinSize ∨ ∃ x ∈ l, s'.xMinSize = x.size)

theorem Counts.visit (h : Counts (s.visit a.size) l s') (hblocks : s.xBlocks + 1 < 2 ^ 64) :
    Counts s (a :: l) s' := by
  obtain ⟨hb, ⟨hmax, hmaxl, hmaxe⟩, hmin, hminl, hmine⟩ := h
  simp only [HeapWalk.visit] at *
  refine ⟨?_, ⟨?_, List.forall_mem_cons.2 ⟨?_, hmaxl⟩, ?_⟩, ?_,
    List.forall_mem_cons.2 ⟨?_, hminl⟩, ?_⟩
  · rw [hb, addSize_of_lt hblocks, List.length_cons]
    omega
  · split_ifs at hmax <;> omega
  · split_ifs at hmax <;> omega
  · rcases hmaxe with heq | ⟨x, hx, heq⟩
    · split_ifs at heq
      · exact .inr ⟨a, List.mem_cons_self, heq⟩
      · exact .inl heq
    · exact .inr ⟨x, List.mem_cons_of_mem _ hx, heq⟩
  · split_ifs at hmin <;> omega
  · split_ifs at hmin <;> omega
  · rcases hmine with heq | ⟨x, hx, heq⟩
    · split_ifs at heq
      · exact .inr ⟨a, List.mem_cons_self, heq⟩
      · exact .inl heq
    · exact .inr ⟨x, List.mem_cons_of_mem _ hx, heq⟩

/-- **The loop counts every block** from one on, and ends at the end
marker. -/
theorem walkHeap_spec (hlink : Linked mem a.start l (endMarker lay))
    (hsize : xBlockSize mem a.start = a.size)
    (hplaced : ∀ x ∈ a :: l, Placed lay x ∧ 0 < x.size) (hfuel : l.length < fuel)
    (hblocks : s.xBlocks + l.length + 1 < 2 ^ 64) :
    ∃ s', walkHeap mem (endMarker lay) fuel a.start s = some s' ∧ Counts s (a :: l) s' := by
  have hheap := lay.ucHeap_pos
  have hspec := alignedHeap_spec lay
  obtain ⟨fuel, rfl⟩ : ∃ k, fuel = k + 1 := ⟨fuel - 1, by omega⟩
  have hane : a.start ≠ 0 := by
    have := (hplaced a List.mem_cons_self).1.base_le
    omega
  rw [walkHeap, if_neg hane, hsize]
  induction l generalizing a s fuel with
  | nil =>
    have hnext : pxNextFreeBlock mem a.start = endMarker lay := hlink
    rw [hnext, if_neg (by simp)]
    refine ⟨_, rfl, Counts.visit ⟨by simp, ⟨le_refl _, by simp, .inl rfl⟩, le_refl _, by simp,
      .inl rfl⟩ (by omega)⟩
  | cons b l ih =>
    obtain ⟨hnext, hbsize, hrest⟩ := hlink
    have hb := hplaced b (by simp)
    have hbend : b.start ≠ endMarker lay := by
      have := hb.1.stop_le
      have := hb.2
      rw [stop] at *
      omega
    have hbne : b.start ≠ 0 := by
      have := hb.1.base_le
      omega
    rw [List.length_cons] at hfuel hblocks
    obtain ⟨fuel, rfl⟩ : ∃ k, fuel = k + 1 := ⟨fuel - 1, by omega⟩
    have hvisit : (s.visit a.size).xBlocks = s.xBlocks + 1 := addSize_of_lt (by omega)
    obtain ⟨s', hs', hcounts⟩ := ih (s := s.visit a.size) hrest hbsize
      (fun x hx => hplaced x (List.mem_cons_of_mem _ hx)) (by omega) fuel (by omega) hbne
    refine ⟨s', ?_, hcounts.visit (by omega)⟩
    rw [hnext, if_pos hbend, walkHeap, if_neg hbne, hbsize]
    exact hs'

/-- The statistics of a list of blocks; where there is none, the loop goes
past the end marker, to a header at `NULL`. -/
theorem vPortGetHeapStats_spec (hend : g.pxEnd = endMarker lay)
    (hlink : Linked g.mem lay.xStart l (endMarker lay))
    (hnext : pxNextFreeBlock g.mem (endMarker lay) = 0)
    (hplaced : ∀ x ∈ l, Placed lay x ∧ 0 < x.size) (hfuel : l.length < walkFuel) :
    (l = [] ∧ vPortGetHeapStats lay g = none) ∨
      ∃ stats, vPortGetHeapStats lay g = some stats ∧ stats.xNumberOfFreeBlocks = l.length ∧
        stats.xAvailableHeapSpaceInBytes = g.xFreeBytesRemaining ∧
        (∃ x ∈ l, stats.xSizeOfSmallestFreeBlockInBytes = x.size ∧ ∀ y ∈ l, x.size ≤ y.size) ∧
        ∃ x ∈ l, stats.xSizeOfLargestFreeBlockInBytes = x.size ∧ ∀ y ∈ l, y.size ≤ x.size := by
  have hheap := lay.ucHeap_pos
  have hspec := alignedHeap_spec lay
  have hne : endMarker lay ≠ 0 := by omega
  cases l with
  | nil =>
    have hfirst : pxNextFreeBlock g.mem lay.xStart = endMarker lay := hlink
    refine .inl ⟨rfl, ?_⟩
    rw [vPortGetHeapStats, hfirst, hend, if_pos hne, walkFuel, walkHeap, if_neg hne, hnext,
      if_pos hne.symm, configTotalHeapSize, walkHeap, if_pos rfl, Option.map_none]
  | cons a l =>
    obtain ⟨hfirst, hsize, hrest⟩ := hlink
    have ha := hplaced a List.mem_cons_self
    have hane : a.start ≠ 0 := by
      have := ha.1.base_le
      omega
    have hlen : l.length + 1 < 2 ^ 64 := by
      rw [List.length_cons, walkFuel, configTotalHeapSize] at hfuel
      omega
    have hshort : l.length < walkFuel := by
      rw [List.length_cons] at hfuel
      omega
    obtain ⟨s', hwalk, hcounts⟩ := walkHeap_spec (s := ⟨0, 0, portMaxDelay⟩)
      hrest hsize hplaced hshort (by simp only; omega)
    obtain ⟨hblocks, ⟨-, hmaxl, hmaxe⟩, -, hminl, hmine⟩ := hcounts
    refine .inr ⟨_, by rw [vPortGetHeapStats, hfirst, if_pos hane, hend, hwalk, Option.map_some],
      ?_, rfl, ?_, ?_⟩
    · simpa using hblocks
    · rcases hmine with heq | ⟨x, hx, heq⟩
      · -- no block is as large as the largest number
        have hle := hminl a List.mem_cons_self
        have hlt := ha.1.size_lt
        simp only [portMaxDelay] at heq
        omega
      · exact ⟨x, hx, heq, fun y hy => heq ▸ hminl y hy⟩
    · rcases hmaxe with heq | ⟨x, hx, heq⟩
      · have hle := hmaxl a List.mem_cons_self
        simp only at heq
        omega
      · exact ⟨x, hx, heq, fun y hy => heq ▸ hmaxl y hy⟩

/-- **The largest free block tells which requests are granted.** In every
world of a run with bytes remaining, `vPortGetHeapStats` counts the blocks
of the free list, the largest and the smallest it tells are among them, and
a request is granted exactly if its block is no larger than the largest.
Where none remain, the loop goes past the end marker, to a header at
`NULL`. -/
theorem heapStats_spec (hrun : Run lay (.cold mem) past W) (hinit : W.heap.pxEnd ≠ 0) :
    (W.heap.xFreeBytesRemaining = 0 → vPortGetHeapStats lay W.heap = none) ∧
      (0 < W.heap.xFreeBytesRemaining → ∃ stats free,
        vPortGetHeapStats lay W.heap = some stats ∧
        Linked W.heap.mem lay.xStart free W.heap.pxEnd ∧
        stats.xNumberOfFreeBlocks = free.length ∧ stats.xAvailableHeapSpaceInBytes = total free ∧
        (∃ x ∈ free, stats.xSizeOfSmallestFreeBlockInBytes = x.size ∧
          ∀ y ∈ free, x.size ≤ y.size) ∧
        (∃ x ∈ free, stats.xSizeOfLargestFreeBlockInBytes = x.size ∧
          ∀ y ∈ free, y.size ≤ x.size) ∧
        ∀ n g' pv, 0 < n → n < 2 ^ 63 → pvPortMalloc lay W.heap n = some (g', pv) →
          (pv ≠ 0 ↔ need n ≤ stats.xSizeOfLargestFreeBlockInBytes)) := by
  obtain ⟨A, hb⟩ := hrun.kept_cold.booked hinit
  have hrep := hb.represents
  have hplaced : ∀ x ∈ A.free, Placed lay x ∧ 0 < x.size := fun x hx =>
    ⟨hrep.placed (.inl hx), A.apart.size_pos x hx⟩
  rcases vPortGetHeapStats_spec hrep.pxEnd hrep.linked hrep.end_next hplaced
    (length_lt_walkFuel A.apart fun x hx => (hplaced x hx).1) with
    ⟨hnil, hnone⟩ | ⟨stats, hstats, hblocks, havail, hsmall, x, hx, hlarge, hmax⟩
  · refine ⟨fun _ => hnone, fun hpos => ?_⟩
    rw [hrep.remaining, hnil, total_nil] at hpos
    omega
  · refine ⟨fun hzero => ?_, fun _ => ⟨stats, A.free, hstats, ?_, hblocks, ?_, hsmall,
      ⟨x, hx, hlarge, hmax⟩, fun n g' pv hpos hn hcall => ?_⟩⟩
    · have hle := size_le_total hx
      have hxpos := (hplaced x hx).2
      rw [hrep.remaining] at hzero
      omega
    · rw [hrep.pxEnd]
      exact hrep.linked
    · rw [havail, hrep.remaining]
    · rw [hlarge, ← not_iff_not, not_not, not_le, hb.malloc_null hpos hn hcall, Fit.isEmpty_iff]
      exact ⟨fun h => h x hx, fun h y hy => (hmax y hy).trans_lt h⟩

theorem heapStats_sample : ∃ stats free,
    vPortGetHeapStats sampleLayout sampleWorld.heap = some stats ∧
    Linked sampleWorld.heap.mem 0x8f000040 free sampleWorld.heap.pxEnd ∧
    stats.xNumberOfFreeBlocks = free.length := by
  obtain ⟨stats, free, hstats, hlink, hblocks, -⟩ :=
    (heapStats_spec sampleRun (by decide)).2 (by decide)
  exact ⟨stats, free, hstats, hlink, hblocks⟩

/-! ## Tasks -/

/-- The heap as a request finds it: initialised first, where none was made
before. -/
def Heap.found (lay : Layout) (g : Heap) : Heap := if g.pxEnd = 0 then prvHeapInit lay g else g

theorem pvPortMalloc_found : pvPortMalloc lay (g.found lay) n = pvPortMalloc lay g n := by
  rw [Heap.found]
  split_ifs with h
  · exact (pvPortMalloc_of_cold h).symm
  · rfl

theorem xTaskCreate_found :
    xTaskCreate lay sizeofTCB (g.found lay) usStackDepth =
      xTaskCreate lay sizeofTCB g usStackDepth := by
  rw [xTaskCreate, xTaskCreate, pvPortMalloc_found]

/-- In every world of a run the books are right once the heap is as a
request finds it. -/
theorem Run.booked_found (hrun : Run lay (.cold mem) past W) :
    ∃ A, Booked lay ⟨W.heap.found lay, W.held⟩ A := by
  rcases hrun.kept_cold with ⟨mem, rfl⟩ | ⟨A, hb⟩
  · exact ⟨_, booked_initialised lay mem⟩
  · rw [Heap.found, if_neg hb.pxEnd_ne]
    exact ⟨A, hb⟩

/-- A run goes on with the request that the heap as found is asked. -/
theorem Run.malloc_found (hrun : Run lay (.cold mem) past W) (hn : n < 2 ^ 64)
    (hcall : (World.mk (W.heap.found lay) W.held).call lay (.pvPortMalloc n) = some W') :
    Run lay (.cold mem) ((W, .pvPortMalloc n) :: past) W' := by
  refine hrun.call (c := .pvPortMalloc n) hn ?_
  rw [World.call, pvPortMalloc_found] at hcall
  exact hcall

/-- Two heaps have the same free list and as many bytes remaining. -/
def SameFree (lay : Layout) (g g' : Heap) : Prop :=
  g'.xFreeBytesRemaining = g.xFreeBytesRemaining ∧
    ∃ free, Linked g.mem lay.xStart free g.pxEnd ∧ Linked g'.mem lay.xStart free g'.pxEnd

theorem Booked.sameFree (hb : Booked lay W A) (hb' : Booked lay W' B) (hfree : B.free = A.free) :
    SameFree lay W.heap W'.heap := by
  refine ⟨?_, A.free, ?_, ?_⟩
  · rw [hb'.represents.remaining, hfree, hb.represents.remaining]
  · rw [hb.represents.pxEnd]
    exact hb.represents.linked
  · rw [hb'.represents.pxEnd, ← hfree]
    exact hb'.represents.linked

/-- What was given out is freed, as a run frees it. -/
theorem Booked.free_of_books (hb : Booked lay W A) (hh : h ∈ W.held) (hx : x ∈ A.live)
    (hbooks : Books h x) : ∃ g', vPortFree lay W.heap h.pv = some g' ∧
      Run lay W [(W, .vPortFree h.pv)] ⟨g', W.held.eraseP (·.pv = h.pv)⟩ ∧
      Booked lay ⟨g', W.held.eraseP (·.pv = h.pv)⟩ (A.give x hx) := by
  obtain ⟨y, hy, g', hbooks', hfree, hcall, -, hb'⟩ := hb.free hh
  obtain rfl : y = x := by
    refine A.live_inj hy hx ?_
    have := hbooks.pv
    have := hbooks'.pv
    omega
  exact ⟨g', hfree, .call (c := .vPortFree _) .nil (.inr ⟨h, hh, rfl⟩) hcall, hb'⟩

/-- The stack that a task is given. -/
def stackOf (usStackDepth pxStack : ℕ) : Held := ⟨pxStack, mulSize usStackDepth sizeofStackType⟩

variable (usStackDepth) in
theorem stackOf_lt : mulSize usStackDepth sizeofStackType < 2 ^ 64 :=
  Nat.mod_lt _ (Nat.two_pow_pos 64)

variable (usStackDepth) in
/-- **`xTaskCreate` asks for the stack, then for the `TCB_t`**, and gives
the stack back where there is no room for the second. -/
theorem Booked.xTaskCreate (hb : Booked lay W A) (hTCB : sizeofTCB < 2 ^ 64) :
    ∃ W₁ calls g', W.call lay (.pvPortMalloc (mulSize usStackDepth sizeofStackType)) = some W₁ ∧
      ((∃ (f : Fit (need (mulSize usStackDepth sizeofStackType)) A.free)
          (f' : Fit (need sizeofTCB) (A.take 32 need_pos f).free),
          xTaskCreate lay sizeofTCB W.heap usStackDepth =
            some (g', some (f'.span.start + 16, f.span.start + 16)) ∧
          Run lay W₁ calls ⟨g', ⟨f'.span.start + 16, sizeofTCB⟩ ::
            stackOf usStackDepth (f.span.start + 16) :: W.held⟩ ∧
          Booked lay ⟨g', ⟨f'.span.start + 16, sizeofTCB⟩ ::
            stackOf usStackDepth (f.span.start + 16) :: W.held⟩
            ((A.take 32 need_pos f).take 32 need_pos f')) ∨
        (xTaskCreate lay sizeofTCB W.heap usStackDepth = some (g', none) ∧
          Run lay W₁ calls ⟨g', W.held⟩ ∧ ∃ B, Booked lay ⟨g', W.held⟩ B ∧ B.free = A.free)) := by
  rcases hb.malloc (stackOf_lt usStackDepth) with
    ⟨f, g₁, hf, hcall₁, -, hb₁⟩ | ⟨hnull, hcall₁, -⟩
  swap
  · refine ⟨W, [], W.heap, hcall₁, .inr ⟨?_, .nil, A, hb, rfl⟩⟩
    rw [Amp.xTaskCreate, hnull, Option.bind_some]
    exact if_neg (by simp)
  have hstack : f.span.start + 16 ≠ 0 := by omega
  rcases hb₁.malloc hTCB with ⟨f', g₂, hf', hcall₂, -, hb₂⟩ | ⟨hnull, hcall₂, -⟩
  · refine ⟨_, _, g₂, hcall₁, .inl ⟨f, f', ?_, .call (c := .pvPortMalloc _) .nil hTCB hcall₂, hb₂⟩⟩
    rw [Amp.xTaskCreate, hf, Option.bind_some]
    dsimp only
    rw [if_pos hstack, hf', Option.bind_some]
    exact if_pos (by omega)
  · -- no room for the `TCB_t`: the stack is freed again
    have hmem : stackOf usStackDepth (f.span.start + 16) ∈
        stackOf usStackDepth (f.span.start + 16) :: W.held := List.mem_cons_self
    have hbooks : Books (stackOf usStackDepth (f.span.start + 16)) (taken 32 (need _) f.span) :=
      List.forall₂_cons.1 hb₁.books |>.1
    obtain ⟨g₃, hfree, hrun₃, hb₃⟩ := hb₁.free_of_books hmem (Arena.taken_mem need_pos f) hbooks
    rw [List.eraseP_cons_of_pos (by simp [stackOf])] at hrun₃ hb₃
    have hfree : vPortFree lay g₁ (f.span.start + 16) = some g₃ := hfree
    refine ⟨_, _, g₃, hcall₁, .inr ⟨?_, hrun₃, _, hb₃, Arena.free_give_take need_pos f⟩⟩
    rw [Amp.xTaskCreate, hf, Option.bind_some]
    dsimp only
    rw [if_pos hstack, hnull, Option.bind_some]
    dsimp only
    rw [if_neg (by simp), hfree, Option.map_some]

/-- **A task gets its stack and its TCB, or the heap is as it was.** In
every world of a run, and before the first request as after, `xTaskCreate`
comes back: with two pieces of memory that the run goes on with, or with
none, and then the run goes on with the free list and the bytes remaining
that a request would have found. -/
theorem xTaskCreate_all_or_nothing (hrun : Run lay (.cold mem) past W)
    (hTCB : sizeofTCB < 2 ^ 64) :
    ∃ g' past', past <:+ past' ∧ ((∃ pxTCB pxStack,
        xTaskCreate lay sizeofTCB W.heap usStackDepth = some (g', some (pxTCB, pxStack)) ∧
        Run lay (.cold mem) past'
          ⟨g', ⟨pxTCB, sizeofTCB⟩ :: stackOf usStackDepth pxStack :: W.held⟩) ∨
      (xTaskCreate lay sizeofTCB W.heap usStackDepth = some (g', none) ∧
        Run lay (.cold mem) past' ⟨g', W.held⟩ ∧ SameFree lay (W.heap.found lay) g')) := by
  obtain ⟨A, hb⟩ := hrun.booked_found
  obtain ⟨W₁, calls, g', hcall, hout⟩ := hb.xTaskCreate usStackDepth hTCB
  have hrun₁ := hrun.malloc_found (stackOf_lt usStackDepth) hcall
  have hlater : past <:+ calls ++
      (W, .pvPortMalloc (mulSize usStackDepth sizeofStackType)) :: past :=
    List.suffix_append_of_suffix (List.suffix_cons _ past)
  simp only [xTaskCreate_found] at hout
  rcases hout with ⟨f, f', hcreate, hrun', -⟩ | ⟨hcreate, hrun', B, hb', hfree⟩
  · exact ⟨g', _, hlater, .inl ⟨_, _, hcreate, hrun₁.trans hrun'⟩⟩
  · exact ⟨g', _, hlater, .inr ⟨hcreate, hrun₁.trans hrun', hb.sameFree hb' hfree⟩⟩

theorem xTaskCreate_sample : ∃ g' past', [] <:+ past' ∧ ((∃ pxTCB pxStack,
      xTaskCreate sampleLayout 200 (World.cold fun _ => 0).heap 393190 =
        some (g', some (pxTCB, pxStack)) ∧
      Run sampleLayout (.cold fun _ => 0) past' ⟨g', [⟨pxTCB, 200⟩, stackOf 393190 pxStack]⟩) ∨
    (xTaskCreate sampleLayout 200 (World.cold fun _ => 0).heap 393190 = some (g', none) ∧
      Run sampleLayout (.cold fun _ => 0) past' ⟨g', []⟩ ∧
      SameFree sampleLayout ((World.cold fun _ => 0).heap.found sampleLayout) g')) :=
  xTaskCreate_all_or_nothing .nil (by decide)

/-- **A task that is deleted gives back what its creation took.** Wherever
`xTaskCreate` makes a task, `prvDeleteTCB` of it comes back, and the run
goes on with what was held before the task, the free list and the bytes
remaining that its creation found. -/
theorem prvDeleteTCB_gives_back (hrun : Run lay (.cold mem) past W) (hTCB : sizeofTCB < 2 ^ 64)
    (hcreate : xTaskCreate lay sizeofTCB W.heap usStackDepth = some (g, some (pxTCB, pxStack))) :
    ∃ g' past', past <:+ past' ∧ prvDeleteTCB lay g pxTCB pxStack = some g' ∧
      Run lay (.cold mem) past' ⟨g', W.held⟩ ∧ SameFree lay (W.heap.found lay) g' := by
  obtain ⟨A, hb⟩ := hrun.booked_found
  obtain ⟨W₁, calls, g₂, hcall, hout⟩ := hb.xTaskCreate usStackDepth hTCB
  have hrun₁ := hrun.malloc_found (stackOf_lt usStackDepth) hcall
  simp only [xTaskCreate_found, hcreate, Option.some_inj, Prod.mk.injEq, reduceCtorEq, and_false,
    false_and, or_false] at hout
  obtain ⟨f, f', ⟨rfl, rfl, rfl⟩, hrun₂, hb₂⟩ := hout
  obtain ⟨hbTCB, hrest⟩ := List.forall₂_cons.1 hb₂.books
  have hbStack := (List.forall₂_cons.1 hrest).1
  have hne : f'.span.start ≠ f.span.start :=
    Arena.fit_start_ne (x := taken 32 (need _) f.span) f' (Arena.taken_mem need_pos f)
  -- first the stack, which is the second of what is held
  obtain ⟨g₃, hfree₃, hrun₃, hb₃⟩ := hb₂.free_of_books (by simp)
    (List.mem_cons_of_mem _ (Arena.taken_mem need_pos f)) hbStack
  rw [List.eraseP_cons_of_neg (by simpa [stackOf] using hne),
    List.eraseP_cons_of_pos (by simp)] at hrun₃ hb₃
  -- then the `TCB_t`
  have hlive := Arena.live_give_take_take (m := 32) need_pos f need_pos f'
    (List.mem_cons_of_mem _ (Arena.taken_mem need_pos f))
  obtain ⟨g₄, hfree₄, hrun₄, hb₄⟩ := hb₃.free_of_books List.mem_cons_self
    (hlive ▸ List.mem_cons_self) hbTCB
  rw [List.eraseP_cons_of_pos (by simp)] at hrun₄ hb₄
  refine ⟨g₄, _, ?_, ?_, ((hrun₁.trans hrun₂).trans hrun₃).trans hrun₄, hb.sameFree hb₄ ?_⟩
  · refine List.suffix_append_of_suffix (List.suffix_append_of_suffix ?_)
    exact List.suffix_append_of_suffix (List.suffix_cons _ past)
  · have hstack : vPortFree lay g (f.span.start + 16) = some g₃ := hfree₃
    rw [prvDeleteTCB, hstack, Option.bind_some]
    exact hfree₄
  · refine Arena.free_eq (congrArg covered ?_)
    change List.erase (Arena.give _ (taken 32 _ f.span) _).live _ = _
    rw [hlive, List.erase_cons_head]

/-- A task beside the piece that is held. -/
def sampleTask : Heap :=
  ((xTaskCreate sampleLayout 200 sampleWorld.heap 1024).get (by decide)).1

theorem xTaskCreate_sampleTask : xTaskCreate sampleLayout 200 sampleWorld.heap 1024 =
    some (sampleTask, some (0x8f1020b0, 0x8f1000a0)) :=
  (Option.some_get (by decide)).symm.trans (congrArg some (Prod.ext rfl (by decide)))

theorem prvDeleteTCB_sample : ∃ g' past',
    [(World.cold fun _ => 0, .pvPortMalloc 100)] <:+ past' ∧
    prvDeleteTCB sampleLayout sampleTask 0x8f1020b0 0x8f1000a0 = some g' ∧
    Run sampleLayout (.cold fun _ => 0) past' ⟨g', sampleWorld.held⟩ ∧
    SameFree sampleLayout (sampleWorld.heap.found sampleLayout) g' :=
  prvDeleteTCB_gives_back sampleRun (by decide) xTaskCreate_sampleTask

end Amp

end ObcSdk
