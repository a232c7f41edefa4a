import ObcSdk.Properties.HeapRuns
/-!
# What the heap knows of itself

A request is refused only where there is no room for it. The free list and
the bytes remaining depend on what is held and on nothing else that
happened before, the smallest number of bytes that ever remained is that
number, and the counters of calls tell how many pieces are held.
-/

namespace ObcSdk

namespace Amp

open ObcSdk.Span ObcSdk.Spans

variable {lay : Layout} {mem mem' : Mem} {W W' V : World} {c : Call}
  {past past' : List (World × Call)} {h : Held} {A : Arena (base lay) (endMarker lay)} {g' : Heap}
  {x : Span} {n pv : ℕ}

/-- A world that is not initialised is that before the first call, and in
others the books are right. -/
theorem Kept.booked (hs : Kept lay W) (hinit : W.heap.pxEnd ≠ 0) : ∃ A, Booked lay W A := by
  rcases hs with ⟨mem, rfl⟩ | hb
  · exact absurd rfl hinit
  · exact hb

theorem Booked.pxEnd_ne (hb : Booked lay W A) : W.heap.pxEnd ≠ 0 := by
  have := alignedHeap_spec lay
  rw [hb.represents.pxEnd]
  omega

/-! ## Room -/

theorem Booked.malloc_null (hb : Booked lay W A) (hpos : 0 < n) (hn : n < 2 ^ 63)
    (hcall : pvPortMalloc lay W.heap n = some (g', pv)) :
    pv = 0 ↔ IsEmpty (Fit (need n) A.free) := by
  rcases hb.malloc (n := n) (by omega) with ⟨f, g'', hf, -⟩ | ⟨hnull, -, hwhy⟩
  · rw [hcall, Option.some_inj, Prod.mk.injEq] at hf
    rw [hf.2]
    exact ⟨fun h => by omega, fun h => (h.false f).elim⟩
  · rw [hcall, Option.some_inj, Prod.mk.injEq] at hnull
    rw [hnull.2]
    rcases hwhy with hzero | hlarge | hempty
    · omega
    · omega
    · exact ⟨fun _ => hempty, fun _ => rfl⟩

theorem Booked.malloc_null_iff (hb : Booked lay W A) (hpos : 0 < n) (hn : n < 2 ^ 63)
    (hcall : pvPortMalloc lay W.heap n = some (g', pv)) :
    pv = 0 ↔ ¬ ∃ a, base lay ≤ a ∧ a + need n ≤ endMarker lay ∧
      ∀ h ∈ W.held, Disjoint (Set.Ico a (a + need n)) (W.block h).bytes := by
  have hlive : (∀ a, (∀ h ∈ W.held, Disjoint (Set.Ico a (a + need n)) (W.block h).bytes) ↔
      ∀ x ∈ A.live, Disjoint (Set.Ico a (a + need n)) x.bytes) := by
    intro a
    rw [← hb.map_block, List.forall_mem_map]
  simp only [hlive]
  rw [← A.isEmpty_fit_iff need_pos, hb.malloc_null hpos hn hcall]

/-- **A request is refused exactly where there is no room.** In every world
a run comes to, `pvPortMalloc` returns `NULL` just when no stretch of the
bytes the block needs is clear of all blocks that are held: what was freed
before is never lost to it, in however many pieces and in whatever order
it was. -/
theorem malloc_null_iff_no_room (hrun : Run lay (.cold mem) past W) (hpos : 0 < n)
    (hn : n < 2 ^ 63) (hcall : pvPortMalloc lay W.heap n = some (g', pv)) :
    pv = 0 ↔ ¬ ∃ a, base lay ≤ a ∧ a + need n ≤ endMarker lay ∧
      ∀ h ∈ W.held, Disjoint (Set.Ico a (a + need n)) (W.block h).bytes := by
  rcases hrun.kept_cold with ⟨mem, rfl⟩ | ⟨A, hb⟩
  · -- the first call initialises the heap
    rw [World.cold, pvPortMalloc_of_cold rfl] at hcall
    exact ((booked_initialised lay mem).malloc_null_iff hpos hn hcall).trans
      (by simp [World.cold, World.initialised])
  · exact hb.malloc_null_iff hpos hn hcall

theorem malloc_null_iff_no_room_sample : ∃ g' pv,
    pvPortMalloc sampleLayout sampleWorld.heap 3145600 = some (g', pv) ∧
    (pv = 0 ↔ ¬ ∃ a, base sampleLayout ≤ a ∧
      a + need 3145600 ≤ endMarker sampleLayout ∧ ∀ h ∈ sampleWorld.held,
        Disjoint (Set.Ico a (a + need 3145600)) (sampleWorld.block h).bytes) := by
  have hsome : (pvPortMalloc sampleLayout sampleWorld.heap 3145600).isSome := by decide
  refine ⟨_, _, (Option.some_get hsome).symm, ?_⟩
  exact malloc_null_iff_no_room sampleRun (by decide) (by decide) (Option.some_get hsome).symm

/-! ## The free list -/

/-- **The free list depends on what is held, and on nothing else.** Two
runs that have come to hold the same blocks have the same free list and the
same number of bytes remaining, whatever they did before. -/
theorem free_list_determined (hrun : Run lay (.cold mem) past W)
    (hrun' : Run lay (.cold mem') past' W') (hinit : W.heap.pxEnd ≠ 0) (hinit' : W'.heap.pxEnd ≠ 0)
    (hsame : covered (W.held.map W.block) = covered (W'.held.map W'.block)) :
    W.heap.xFreeBytesRemaining = W'.heap.xFreeBytesRemaining ∧
      ∃ free, Linked W.heap.mem lay.xStart free W.heap.pxEnd ∧
        Linked W'.heap.mem lay.xStart free W'.heap.pxEnd := by
  obtain ⟨A, hb⟩ := hrun.kept_cold.booked hinit
  obtain ⟨B, hb'⟩ := hrun'.kept_cold.booked hinit'
  rw [hb.map_block, hb'.map_block] at hsame
  have hfree := Arena.free_eq hsame
  refine ⟨?_, A.free, ?_, ?_⟩
  · rw [hb.represents.remaining, hb'.represents.remaining, hfree]
  · rw [hb.represents.pxEnd]
    exact hb.represents.linked
  · rw [hb'.represents.pxEnd, hfree]
    exact hb'.represents.linked

/-- **Once everything is freed the heap is whole again**: one free block
from end to end, as at the first call. -/
theorem heap_whole_again (hrun : Run lay (.cold mem) past W) (hinit : W.heap.pxEnd ≠ 0)
    (hheld : W.held = []) :
    W.heap.xFreeBytesRemaining = endMarker lay - base lay ∧
      Linked W.heap.mem lay.xStart [⟨base lay, endMarker lay - base lay⟩] W.heap.pxEnd := by
  obtain ⟨A, hb⟩ := hrun.kept_cold.booked hinit
  have hlive : A.live = [] := by
    rw [← hb.map_block, hheld, List.map_nil]
  have hfree := A.free_of_live_nil (base_lt lay) hlive
  refine ⟨?_, ?_⟩
  · rw [hb.represents.remaining, hfree, total_cons, total_nil]
    rfl
  · rw [hb.represents.pxEnd, ← hfree]
    exact hb.represents.linked

/-- Of two pieces one is held again. -/
def sampleBack : World :=
  (sampleTwo.call sampleLayout (.vPortFree 0x8f1000a0)).get (by decide)

theorem sampleBackRun : Run sampleLayout (.cold fun _ => 0)
    [(sampleTwo, .vPortFree 0x8f1000a0), (sampleWorld, .pvPortMalloc 50),
      (.cold fun _ => 0, .pvPortMalloc 100)] sampleBack :=
  sampleTwoRun.call (c := .vPortFree 0x8f1000a0)
    (.inr ⟨⟨0x8f1000a0, 50⟩, by decide, rfl⟩) (Option.some_get _).symm

theorem free_list_determined_sample :
    sampleWorld.heap.xFreeBytesRemaining = sampleBack.heap.xFreeBytesRemaining ∧
      ∃ free, Linked sampleWorld.heap.mem 0x8f000040 free sampleWorld.heap.pxEnd ∧
        Linked sampleBack.heap.mem 0x8f000040 free sampleBack.heap.pxEnd :=
  free_list_determined sampleRun sampleBackRun (by decide) (by decide)
    (congrArg covered (by decide))

/-- Nothing is held. -/
def sampleNone : World :=
  (sampleBack.call sampleLayout (.vPortFree 0x8f100020)).get (by decide)

theorem heap_whole_again_sample :
    sampleNone.heap.xFreeBytesRemaining = endMarker sampleLayout - base sampleLayout ∧
      Linked sampleNone.heap.mem 0x8f000040
        [⟨base sampleLayout, endMarker sampleLayout - base sampleLayout⟩] sampleNone.heap.pxEnd :=
  heap_whole_again
    (sampleBackRun.call (c := .vPortFree 0x8f100020)
      (.inr ⟨⟨0x8f100020, 100⟩, by decide, rfl⟩) (Option.some_get _).symm)
    (by decide) (by decide)

/-! ## The numbers -/

/-- The counters of a world against all worlds of its run: allocations less
frees are what is held, and the minimum is the least number of bytes that
remained in any of them. -/
structure Tallies (W : World) (worlds : List World) : Prop where
  calls : W.heap.xNumberOfSuccessfulAllocations =
    addSize W.heap.xNumberOfSuccessfulFrees W.held.length
  lowest : ∀ V ∈ worlds, V.heap.pxEnd ≠ 0 →
    W.heap.xMinimumEverFreeBytesRemaining ≤ V.heap.xFreeBytesRemaining
  attained : ∃ V ∈ worlds, V.heap.pxEnd ≠ 0 ∧
    V.heap.xFreeBytesRemaining = W.heap.xMinimumEverFreeBytesRemaining

/-- The counters after a call. -/
theorem Booked.call_counters (hb : Booked lay W A) (hallowed : W.Allowed c)
    (hcall : W.call lay c = some W')
    (hmin : W.heap.xMinimumEverFreeBytesRemaining ≤ W.heap.xFreeBytesRemaining)
    (hcalls : W.heap.xNumberOfSuccessfulAllocations =
      addSize W.heap.xNumberOfSuccessfulFrees W.held.length) :
    W'.heap.xMinimumEverFreeBytesRemaining =
        min W.heap.xMinimumEverFreeBytesRemaining W'.heap.xFreeBytesRemaining ∧
      W'.heap.xNumberOfSuccessfulAllocations =
        addSize W'.heap.xNumberOfSuccessfulFrees W'.held.length := by
  have hsame : W'.heap.xMinimumEverFreeBytesRemaining = W.heap.xMinimumEverFreeBytesRemaining →
      W.heap.xFreeBytesRemaining ≤ W'.heap.xFreeBytesRemaining →
      W'.heap.xMinimumEverFreeBytesRemaining =
        min W.heap.xMinimumEverFreeBytesRemaining W'.heap.xFreeBytesRemaining := by
    intro h1 h2
    rw [h1, min_eq_left (hmin.trans h2)]
  cases c with
  | pvPortMalloc n =>
    rcases hb.malloc hallowed with ⟨f, g', -, hcall', htakes, -⟩ | ⟨-, hcall', -⟩
    · rw [hcall, Option.some_inj] at hcall'
      rw [hcall']
      refine ⟨htakes.minimumEver, ?_⟩
      simp only [htakes.allocations, htakes.frees, hcalls, addSize, List.length_cons]
      omega
    · rw [hcall, Option.some_inj] at hcall'
      rw [hcall']
      exact ⟨(min_eq_left hmin).symm, hcalls⟩
  | vPortFree pv =>
    rcases hallowed with rfl | ⟨h, hh, rfl⟩
    · rw [hb.free_null, Option.some_inj] at hcall
      rw [← hcall]
      exact ⟨(min_eq_left hmin).symm, hcalls⟩
    · obtain ⟨x, hx, g', -, -, hcall', hgives, -⟩ := hb.free hh
      rw [hcall, Option.some_inj] at hcall'
      rw [hcall'] at hsame ⊢
      refine ⟨hsame hgives.minimumEver ?_, ?_⟩
      · have htotal : total (A.give x hx).free = x.size + total A.free := total_release
        simp only [hgives.represents.remaining, hb.represents.remaining, htotal]
        omega
      · have hlen := List.length_eraseP_of_mem hh
          (p := fun k => k.pv = h.pv) (by simp)
        have hpos := List.length_pos_of_mem hh
        simp only [hgives.allocations, hgives.frees, hcalls, addSize, hlen]
        omega
  | store w v =>
    rw [World.call, Option.some_inj] at hcall
    rw [← hcall]
    exact ⟨(min_eq_left hmin).symm, hcalls⟩

/-- The counters after a call, against those of the run so far. -/
theorem Booked.tallies (hb : Booked lay W A) {worlds : List World}
    (hacc : Tallies W (W :: worlds)) (hallowed : W.Allowed c)
    (hcall : W.call lay c = some W') (hinit : W'.heap.pxEnd ≠ 0) :
    Tallies W' (W' :: W :: worlds) := by
  obtain ⟨hmin, hcalls⟩ := hb.call_counters hallowed hcall
    (hacc.lowest W List.mem_cons_self hb.pxEnd_ne) hacc.calls
  refine ⟨hcalls, List.forall_mem_cons.2 ⟨fun _ => ?_, fun V hV hVinit => ?_⟩, ?_⟩
  · rw [hmin]
    exact min_le_right _ _
  · rw [hmin]
    exact (min_le_left _ _).trans (hacc.lowest V hV hVinit)
  · rw [hmin]
    rcases le_total W.heap.xMinimumEverFreeBytesRemaining W'.heap.xFreeBytesRemaining with
      hle | hle
    · obtain ⟨V, hV, hVinit, hVeq⟩ := hacc.attained
      exact ⟨V, List.mem_cons_of_mem _ hV, hVinit, hVeq.trans (min_eq_left hle).symm⟩
    · exact ⟨W', List.mem_cons_self, hinit, (min_eq_right hle).symm⟩

/-- And after the first, which finds the heap whole. -/
theorem tallies_initialised {worlds : List World}
    (hcold : ∀ V ∈ worlds, V.heap.pxEnd = 0) (hallowed : (World.initialised lay mem).Allowed c)
    (hcall : (World.initialised lay mem).call lay c = some W') (hb' : Booked lay W' A) :
    Tallies W' (W' :: worlds) := by
  have hb := booked_initialised lay mem
  obtain ⟨hmin, hcalls⟩ := hb.call_counters hallowed hcall (le_refl _) rfl
  have hwhole : (World.initialised lay mem).heap.xMinimumEverFreeBytesRemaining =
      endMarker lay - base lay := by
    change (World.initialised lay mem).heap.xFreeBytesRemaining = _
    rw [hb.represents.remaining]
    simp [Arena.untouched]
  have hle : W'.heap.xFreeBytesRemaining ≤ endMarker lay - base lay := by
    have := A.budget
    rw [hb'.represents.remaining]
    omega
  rw [hwhole, min_eq_right hle] at hmin
  refine ⟨hcalls, List.forall_mem_cons.2 ⟨fun _ => hmin.le, fun V hV hV' => ?_⟩,
    W', List.mem_cons_self, hb'.pxEnd_ne, hmin.symm⟩
  exact absurd (hcold V hV) hV'

theorem Run.tallies (hrun : Run lay (.cold mem) past W) :
    ((∃ mem, W = .cold mem) ∧ ∀ V ∈ W :: past.map Prod.fst, V.heap.pxEnd = 0) ∨
      ((∃ A, Booked lay W A) ∧ Tallies W (W :: past.map Prod.fst)) := by
  induction hrun with
  | nil => exact .inl ⟨⟨mem, rfl⟩, by simp [World.cold, Heap.cold]⟩
  | @call past W W' c hrun hallowed hcall ih =>
    rw [List.map_cons]
    rcases ih with ⟨⟨mem, rfl⟩, hpast⟩ | ⟨⟨A, hb⟩, hacc⟩
    · rcases call_cold lay hallowed with ⟨hfirst, hallowed'⟩ | hsame
      · obtain ⟨V, B, hV, hb'⟩ := (booked_initialised lay mem).call hallowed'
        rw [hfirst] at hcall
        obtain rfl : W' = V := Option.some_inj.1 (hcall.symm.trans hV)
        exact .inr ⟨⟨B, hb'⟩, tallies_initialised hpast hallowed' hcall hb'⟩
      · obtain rfl : W' = .cold mem := Option.some_inj.1 (hcall.symm.trans hsame)
        exact .inl ⟨⟨mem, rfl⟩, List.forall_mem_cons.2 ⟨rfl, hpast⟩⟩
    · obtain ⟨V, B, hV, hb'⟩ := hb.call hallowed
      obtain rfl : W' = V := Option.some_inj.1 (hcall.symm.trans hV)
      exact .inr ⟨⟨B, hb'⟩, hb.tallies hacc hallowed hcall hb'.pxEnd_ne⟩

/-- **The numbers of the heap are right in every run.** The bytes remaining
and the blocks held make up the heap, the allocations less the frees are
the pieces held, and the smallest number of bytes that ever remained is the
least that remained in any world of the run. -/
theorem heap_numbers (hrun : Run lay (.cold mem) past W) (hinit : W.heap.pxEnd ≠ 0) :
    W.heap.xFreeBytesRemaining + total (W.held.map W.block) = endMarker lay - base lay ∧
      Tallies W (W :: past.map Prod.fst) := by
  rcases hrun.tallies with ⟨⟨mem, rfl⟩, -⟩ | ⟨⟨A, hb⟩, hacc⟩
  · exact absurd rfl hinit
  · rw [hb.map_block, hb.represents.remaining]
    exact ⟨A.budget, hacc⟩

theorem heap_numbers_sample :
    sampleBack.heap.xFreeBytesRemaining + total (sampleBack.held.map sampleBack.block) =
        endMarker sampleLayout - base sampleLayout ∧
      Tallies sampleBack [sampleBack, sampleTwo, sampleWorld, .cold fun _ => 0] :=
  heap_numbers sampleBackRun (by decide)

end Amp

end ObcSdk
