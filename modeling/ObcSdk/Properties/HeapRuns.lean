import ObcSdk.Properties.HeapCalls
/-!
# The heap over whole runs

Any number of calls, one after the other, with stores to the memory handed
out between them. The caller frees only what it was given and stores only
where it may; nothing else is asked of it.
-/

namespace ObcSdk

namespace Amp

open ObcSdk.Span ObcSdk.Spans

/-- Memory that the caller holds: the pointer it was given, and what it
asked for. -/
structure Held where
  pv : ℕ
  xWantedSize : ℕ
deriving DecidableEq

/-- The heap, and what the callers hold of it. -/
structure World where
  heap : Heap
  held : List Held

/-- What a caller may do: the two calls, and a store to a word of
memory. -/
inductive Call where
  | pvPortMalloc (xWantedSize : ℕ)
  | vPortFree (pv : ℕ)
  | store (w v : ℕ)

/-- The bytes of what is held, with the header before them. -/
def Held.bytes (h : Held) : Set ℕ := Set.Ico (h.pv - xHeapStructSize) (h.pv + h.xWantedSize)

/-- What is asked of the caller. -/
def World.Allowed (W : World) : Call → Prop
  | .pvPortMalloc xWantedSize => xWantedSize < 2 ^ 64
  | .vPortFree pv => pv = 0 ∨ ∃ h ∈ W.held, h.pv = pv
  | .store w _ => w % 8 = 0 ∧ ∃ h ∈ W.held, h.pv ≤ w ∧ w < h.pv + h.xWantedSize

/-- A call, and what is held then. -/
def World.call (lay : Layout) (W : World) : Call → Option World
  | .pvPortMalloc xWantedSize => (pvPortMalloc lay W.heap xWantedSize).map fun (g, pv) =>
      ⟨g, if pv = 0 then W.held else ⟨pv, xWantedSize⟩ :: W.held⟩
  | .vPortFree pv => (vPortFree lay W.heap pv).map fun g => ⟨g, W.held.eraseP (·.pv = pv)⟩
  | .store w v => some { W with heap := { W.heap with mem := Function.update W.heap.mem w v } }

/-- **A run**: the calls made, each with the world it was made in, the last
one first. -/
inductive Run (lay : Layout) (W₀ : World) : List (World × Call) → World → Prop
  | nil : Run lay W₀ [] W₀
  | call {past : List (World × Call)} {W W' : World} {c : Call} : Run lay W₀ past W →
      W.Allowed c → W.call lay c = some W' → Run lay W₀ ((W, c) :: past) W'

/-- Before the first call. -/
def World.cold (mem : Mem) : World := ⟨.cold mem, []⟩

variable {lay : Layout} {mem : Mem} {W W' W₀ : World} {c : Call} {past : List (World × Call)}
  {h : Held} {A : Arena (base lay) (endMarker lay)} {x : Span} {n pv v w : ℕ}

/-! ## The invariant -/

/-- What is held of a block. -/
structure Books (h : Held) (x : Span) : Prop where
  pv : h.pv = x.start + 16
  size_le : h.xWantedSize + 16 ≤ x.size

/-- **The books are right**: the heap stands for an arena of which exactly
the blocks of what is held are handed out. -/
structure Booked (lay : Layout) (W : World) (A : Arena (base lay) (endMarker lay)) : Prop where
  represents : Represents lay W.heap A
  books : List.Forall₂ Books W.held A.live

/-- A world is not initialised, or its books are right. -/
def Kept (lay : Layout) (W : World) : Prop :=
  (∃ mem, W = .cold mem) ∨ ∃ A, Booked lay W A

theorem exists_of_forall₂ {hs : List Held} {xs : List Span} (hbooks : List.Forall₂ Books hs xs)
    (hh : h ∈ hs) : ∃ x ∈ xs, Books h x := by
  induction hbooks with
  | nil => simp at hh
  | @cons k x hs xs hx hrest ih =>
    rcases List.mem_cons.1 hh with rfl | hh
    · exact ⟨x, List.mem_cons_self, hx⟩
    · obtain ⟨y, hy, hhy⟩ := ih hh
      exact ⟨y, List.mem_cons_of_mem _ hy, hhy⟩

theorem Booked.exists_span (hb : Booked lay W A) (hh : h ∈ W.held) : ∃ x ∈ A.live, Books h x :=
  exists_of_forall₂ hb.books hh

theorem forall₂_erase {hs : List Held} {xs : List Span} (hbooks : List.Forall₂ Books hs xs)
    (hx : ∀ y ∈ xs, y.start = x.start → y = x) :
    List.Forall₂ Books (hs.eraseP (·.pv = x.start + 16)) (xs.erase x) := by
  induction hbooks with
  | nil => exact .nil
  | @cons h y hs xs hy hrest ih =>
    by_cases heq : y = x
    · subst heq
      rw [List.erase_cons_head, List.eraseP_cons_of_pos (by simpa using hy.pv)]
      exact hrest
    · have hne : h.pv ≠ x.start + 16 := by
        intro hpv
        refine heq (hx y List.mem_cons_self ?_)
        have := hy.pv
        omega
      rw [List.erase_cons_tail (by simpa using heq), List.eraseP_cons_of_neg (by simpa using hne)]
      exact .cons hy (ih fun z hz => hx z (List.mem_cons_of_mem _ hz))

/-! ## One call -/

/-- A request: it is granted out of the first span that fits, or nothing
changes. -/
theorem Booked.malloc (hb : Booked lay W A) (hn : n < 2 ^ 64) :
    (∃ (f : Fit (need n) A.free) (g' : Heap),
      pvPortMalloc lay W.heap n = some (g', f.span.start + 16) ∧
      W.call lay (.pvPortMalloc n) = some ⟨g', ⟨f.span.start + 16, n⟩ :: W.held⟩ ∧
      Takes lay W.heap A need_pos f g' ∧
      Booked lay ⟨g', ⟨f.span.start + 16, n⟩ :: W.held⟩ (A.take 32 need_pos f)) ∨
    (pvPortMalloc lay W.heap n = some (W.heap, 0) ∧ W.call lay (.pvPortMalloc n) = some W ∧
      (n = 0 ∨ 2 ^ 63 ≤ n ∨ IsEmpty (Fit (need n) A.free))) := by
  rw [World.call, pvPortMalloc_eq hb.represents hn]
  rcases mallocFrom_spec hb.represents hn with ⟨f, g', -, -, hf, htakes⟩ | ⟨hnull, hwhy⟩
  · refine .inl ⟨f, g', hf, ?_, htakes, htakes.represents, .cons ⟨rfl, ?_⟩ hb.books⟩
    · rw [hf, Option.map_some]
      exact congrArg some (congrArg (World.mk g') (if_neg (by omega)))
    · have := le_size_taken (m := 32) f.le_size
      simp only [need] at *
      omega
  · refine .inr ⟨hnull, ?_, hwhy⟩
    rw [hnull, Option.map_some]
    exact congrArg some (congrArg (World.mk W.heap) (if_pos rfl))

/-- What is held is freed. -/
theorem Booked.free (hb : Booked lay W A) (hh : h ∈ W.held) :
    ∃ (x : Span) (hx : x ∈ A.live) (g' : Heap), Books h x ∧
      vPortFree lay W.heap h.pv = some g' ∧
      W.call lay (.vPortFree h.pv) = some ⟨g', W.held.eraseP (·.pv = h.pv)⟩ ∧
      Gives lay W.heap A hx g' ∧ Booked lay ⟨g', W.held.eraseP (·.pv = h.pv)⟩ (A.give x hx) := by
  obtain ⟨x, hx, hbooks⟩ := hb.exists_span hh
  obtain ⟨g', hfree, hgives⟩ := vPortFree_spec hb.represents hx
  refine ⟨x, hx, g', hbooks, hbooks.pv ▸ hfree, ?_, hgives, hgives.represents, ?_⟩
  · rw [World.call, hbooks.pv, hfree, Option.map_some]
  · rw [hbooks.pv]
    exact forall₂_erase hb.books fun y hy heq => A.live_inj hy hx heq

/-- To free `NULL` does nothing. -/
theorem Booked.free_null (hb : Booked lay W A) : W.call lay (.vPortFree 0) = some W := by
  have hheld : W.held.eraseP (·.pv = 0) = W.held := by
    refine List.eraseP_of_forall_not fun h hh => ?_
    obtain ⟨x, -, hbooks⟩ := hb.exists_span hh
    have := hbooks.pv
    simp only [decide_eq_true_eq]
    omega
  rw [World.call, vPortFree, if_neg (by simp), Option.map_some, hheld]

/-- A store to memory that is held touches no header. -/
theorem Booked.store (hb : Booked lay W A) (hallowed : W.Allowed (.store w v)) :
    Booked lay ⟨{ W.heap with mem := Function.update W.heap.mem w v }, W.held⟩ A := by
  obtain ⟨hw8, h, hh, hle, hlt⟩ := hallowed
  obtain ⟨x, hx, hbooks⟩ := hb.exists_span hh
  have hspec := alignedHeap_spec lay
  have hpv := hbooks.pv
  have hsize := hbooks.size_le
  have hplaced := hb.represents.placed (.inr hx)
  have hstop := hplaced.stop_le
  have hbase := hplaced.base_le
  obtain ⟨-, -, -, hxs8, hxs⟩ := hplaced.start_ne_xStart (A.live_pos x hx)
  rw [mem_bytes, stop] at hxs hxs8
  rw [stop] at hstop
  have hwmem : w ∈ x.bytes := by
    rw [mem_bytes, stop]
    omega
  have hend : endMarker lay ≠ w := by omega
  -- the header of any block is elsewhere
  have hne : ∀ y, y ∈ A.free ∨ y ∈ A.live → y.start ≠ w ∧ y.start + 8 ≠ w := by
    intro y hy
    have hge := (hb.represents.placed hy).size_ge (Represents.pos A hy)
    have hself : y = x ∨ Disjoint y.bytes x.bytes := by
      rcases hy with hy | hy
      · exact .inr ((A.disjoint_free hx).symm.mono_left fun n hn =>
          (⟨y, hy, hn⟩ : ∃ z ∈ A.free, n ∈ z.bytes))
      · rcases eq_or_ne y x with heq | hyx
        · exact .inl heq
        · have hsymm : Std.Symm fun x y : Span => Disjoint x.bytes y.bytes :=
            ⟨fun _ _ h => h.symm⟩
          exact .inr (A.disjoint.forall hy hx hyx)
    rcases hself with rfl | hdis
    · omega
    · have hout : w ∉ y.bytes := fun hwy => Set.disjoint_left.1 hdis hwy hwmem
      rw [mem_bytes, stop] at hout
      omega
  have hmem : ∀ u, u ≠ w → Function.update W.heap.mem w v u = W.heap.mem u := fun u hu =>
    Function.update_of_ne hu _ _
  obtain ⟨⟨h1, h2, h3, h4, h5, h6, h7, h8, h9⟩, hbk⟩ := hb
  have hnext : pxNextFreeBlock (Function.update W.heap.mem w v) (endMarker lay) = 0 := by
    rw [pxNextFreeBlock, hmem _ hend]
    exact h6
  refine ⟨⟨h1, h2, ?_, (hmem _ (by omega)).trans h4, (hmem _ (by omega)).trans h5,
    hnext, h7, ?_, h9⟩, hbk⟩
  · refine h3.congr (hmem _ (by omega)) fun c hc => ?_
    obtain ⟨hc1, hc2⟩ := hne c (.inl hc)
    exact ⟨hmem _ hc1, hmem _ hc2⟩
  · intro y hy
    obtain ⟨hy1, hy2⟩ := hne y (.inr hy)
    exact ⟨(hmem _ hy1).trans (h8 y hy).1, (hmem _ hy2).trans (h8 y hy).2⟩

/-- **An allowed call goes through**, and the books stay right. -/
theorem Booked.call (hb : Booked lay W A) (hallowed : W.Allowed c) :
    ∃ W' B, W.call lay c = some W' ∧ Booked lay W' B := by
  cases c with
  | pvPortMalloc n =>
    rcases hb.malloc hallowed with ⟨f, g', -, hcall, -, hb'⟩ | ⟨-, hcall, -⟩
    · exact ⟨_, _, hcall, hb'⟩
    · exact ⟨_, _, hcall, hb⟩
  | vPortFree pv =>
    rcases hallowed with rfl | ⟨h, hh, rfl⟩
    · exact ⟨_, _, hb.free_null, hb⟩
    · obtain ⟨x, hx, g', -, -, hcall, -, hb'⟩ := hb.free hh
      exact ⟨_, _, hcall, hb'⟩
  | store w v => exact ⟨_, _, rfl, hb.store hallowed⟩

/-- The world that the first call initialises. -/
def World.initialised (lay : Layout) (mem : Mem) : World := ⟨prvHeapInit lay (.cold mem), []⟩

theorem booked_initialised (lay : Layout) (mem : Mem) :
    Booked lay (.initialised lay mem) (.untouched (base_lt lay)) :=
  ⟨(prvHeapInit_spec lay _).1, .nil⟩

/-- The calls allowed before the first one: a request, which initialises
the heap, or to free `NULL`. -/
theorem call_cold (lay : Layout) (hallowed : (World.cold mem).Allowed c) :
    ((World.cold mem).call lay c = (World.initialised lay mem).call lay c ∧
        (World.initialised lay mem).Allowed c) ∨
      (World.cold mem).call lay c = some (.cold mem) := by
  cases c with
  | pvPortMalloc n =>
    refine .inl ⟨?_, hallowed⟩
    rw [World.call, World.call, World.cold, pvPortMalloc_of_cold rfl]
    rfl
  | vPortFree pv =>
    rcases hallowed with rfl | ⟨h, hh, -⟩
    · exact .inr rfl
    · simp [World.cold] at hh
  | store w v =>
    obtain ⟨-, h, hh, -⟩ := hallowed
    simp [World.cold] at hh

theorem Kept.call (hs : Kept lay W) (hallowed : W.Allowed c) :
    ∃ W', W.call lay c = some W' ∧ Kept lay W' := by
  rcases hs with ⟨mem, rfl⟩ | ⟨A, hb⟩
  · rcases call_cold lay hallowed with ⟨hcall, hallowed'⟩ | hcall
    · obtain ⟨W', B, hW', hb'⟩ := (booked_initialised lay mem).call hallowed'
      exact ⟨W', hcall.trans hW', .inr ⟨B, hb'⟩⟩
    · exact ⟨_, hcall, .inl ⟨mem, rfl⟩⟩
  · obtain ⟨W', B, hW', hb'⟩ := hb.call hallowed
    exact ⟨W', hW', .inr ⟨B, hb'⟩⟩

theorem Run.kept (hrun : Run lay W₀ past W) (hs : Kept lay W₀) : Kept lay W := by
  induction hrun with
  | nil => exact hs
  | call _ hallowed hcall ih =>
    obtain ⟨W'', hcall', hs'⟩ := ih.call hallowed
    rw [hcall, Option.some_inj] at hcall'
    exact hcall' ▸ hs'

/-- A run goes on from where another has come to. -/
theorem Run.trans {past' : List (World × Call)} (hrun : Run lay W₀ past W)
    (hrun' : Run lay W past' W') : Run lay W₀ (past' ++ past) W' := by
  induction hrun' with
  | nil => exact hrun
  | call _ hallowed hcall ih => exact ih.call hallowed hcall

theorem Run.kept_cold (hrun : Run lay (.cold mem) past W) : Kept lay W :=
  hrun.kept (.inl ⟨mem, rfl⟩)

/-- What is held lies in the block of it. -/
theorem Books.bytes_subset (hb : Books h x) : h.bytes ⊆ x.bytes := by
  intro n hn
  have hpv := hb.pv
  have hsize := hb.size_le
  rw [Held.bytes, xHeapStructSize_eq, Set.mem_Ico] at hn
  rw [mem_bytes, stop]
  omega

theorem Booked.pairwise_disjoint (hb : Booked lay W A) :
    W.held.Pairwise fun h k => Disjoint h.bytes k.bytes := by
  have hdis := A.disjoint
  have hbooks := hb.books
  generalize W.held = hs at *
  generalize A.live = xs at *
  induction hbooks with
  | nil => exact .nil
  | @cons h x hs xs hx hrest ih =>
    rw [List.pairwise_cons] at hdis ⊢
    refine ⟨fun k hk => ?_, ih hdis.2⟩
    obtain ⟨y, hy, hky⟩ := exists_of_forall₂ hrest hk
    exact (hdis.1 y hy).mono hx.bytes_subset hky.bytes_subset

/-- **In every run the heap hands out memory that is fit for use.** What is
held is aligned and lies in the heap with its headers, no two pieces of it
overlap, and no call that is allowed comes to a failed assertion or a loop
without end. -/
theorem heap_safe (hrun : Run lay (.cold mem) past W) :
    (∀ h ∈ W.held, h.pv % portByteAlignment = 0 ∧
        h.bytes ⊆ Set.Ico lay.ucHeap (lay.ucHeap + configTotalHeapSize)) ∧
      (W.held.Pairwise fun h k => Disjoint h.bytes k.bytes) ∧
      ∀ c, W.Allowed c → (W.call lay c).isSome := by
  have hs := hrun.kept_cold
  have hcall : ∀ c, W.Allowed c → (W.call lay c).isSome := by
    intro c hallowed
    obtain ⟨W', hW', -⟩ := hs.call hallowed
    rw [hW']
    rfl
  rcases hs with ⟨mem, rfl⟩ | ⟨A, hb⟩
  · exact ⟨by simp [World.cold], .nil, hcall⟩
  refine ⟨fun h hh => ?_, hb.pairwise_disjoint, hcall⟩
  obtain ⟨x, hx, hbooks⟩ := hb.exists_span hh
  have hplaced := hb.represents.placed (.inr hx)
  have hpv := hbooks.pv
  have hmod := hplaced.start_mod
  refine ⟨by rw [portByteAlignment]; omega, fun n hn => ?_⟩
  have := hplaced.of_mem_covered (hbooks.bytes_subset hn)
  rw [Set.mem_Ico]
  omega

/-- `ucHeap` at an odd multiple of 8, so that its first block is not at its
start. -/
def sampleLayout : Layout where
  ucHeap := 0x8f100008
  xStart := 0x8f000040
  ucHeap_pos := by decide
  ucHeap_fits := by decide
  xStart_apart := by decide

/-- One piece is held. -/
def sampleWorld : World :=
  ((World.cold fun _ => 0).call sampleLayout (.pvPortMalloc 100)).get (by decide)

theorem sampleRun : Run sampleLayout (.cold fun _ => 0)
    [(.cold fun _ => 0, .pvPortMalloc 100)] sampleWorld :=
  .call (c := .pvPortMalloc 100) .nil (by decide : 100 < 2 ^ 64) (Option.some_get _).symm

/-- Two pieces are held. -/
def sampleTwo : World :=
  (sampleWorld.call sampleLayout (.pvPortMalloc 50)).get (by decide)

theorem sampleTwoRun : Run sampleLayout (.cold fun _ => 0)
    [(sampleWorld, .pvPortMalloc 50), (.cold fun _ => 0, .pvPortMalloc 100)] sampleTwo :=
  sampleRun.call (c := .pvPortMalloc 50) (by decide : 50 < 2 ^ 64) (Option.some_get _).symm

theorem heap_safe_sample : (∀ h ∈ sampleTwo.held, h.pv % portByteAlignment = 0 ∧
      h.bytes ⊆ Set.Ico 0x8f100008 (0x8f100008 + configTotalHeapSize)) ∧
    (sampleTwo.held.Pairwise fun h k => Disjoint h.bytes k.bytes) ∧
    ∀ c, sampleTwo.Allowed c → (sampleTwo.call sampleLayout c).isSome :=
  heap_safe sampleTwoRun

/-! ## Contents -/

/-- **Other memory than what is freed or stored to stays as it is** in a
call. -/
theorem Booked.keeps (hb : Booked lay W A) (hallowed : W.Allowed c) (hcall : W.call lay c = some W')
    (hh : h ∈ W.held) (hw : h.pv ≤ w ∧ w < h.pv + h.xWantedSize) (hfree : c ≠ .vPortFree h.pv)
    (hstore : ∀ v, c ≠ .store w v) : h ∈ W'.held ∧ W'.heap.mem w = W.heap.mem w := by
  obtain ⟨x, hx, hbooks⟩ := hb.exists_span hh
  have hpv := hbooks.pv
  have hsize := hbooks.size_le
  have hwmem : w ∈ x.bytes := by
    rw [mem_bytes, stop]
    omega
  have hxs : w ≠ lay.xStart := by
    rintro rfl
    exact ((hb.represents.placed (.inr hx)).start_ne_xStart (A.live_pos x hx)).2.2.2.2 hwmem
  cases c with
  | pvPortMalloc n =>
    rcases hb.malloc hallowed with ⟨f, g', -, hcall', htakes, -⟩ | ⟨-, hcall', -⟩
    · rw [hcall, Option.some_inj] at hcall'
      rw [hcall']
      exact ⟨List.mem_cons_of_mem _ hh,
        htakes.frame w hxs (Set.disjoint_left.1 (A.disjoint_free hx) hwmem)⟩
    · rw [hcall, Option.some_inj] at hcall'
      rw [hcall']
      exact ⟨hh, rfl⟩
  | vPortFree pv =>
    rcases hallowed with rfl | ⟨k, hk, rfl⟩
    · rw [hb.free_null, Option.some_inj] at hcall
      exact hcall ▸ ⟨hh, rfl⟩
    · obtain ⟨y, hy, g', hky, -, hcall', hgives, -⟩ := hb.free hk
      have hne : h.pv ≠ k.pv := fun heq => hfree (congrArg _ heq.symm)
      have hxy : x ∈ (A.give y hy).live := by
        refine (List.mem_erase_of_ne ?_).2 hx
        rintro rfl
        exact hne (hpv.trans hky.pv.symm)
      rw [hcall, Option.some_inj] at hcall'
      rw [hcall']
      refine ⟨(List.mem_eraseP_of_neg (by simpa using hne)).2 hh,
        hgives.frame w hxs (Set.disjoint_left.1 ((A.give y hy).disjoint_free hxy) hwmem)⟩
  | store u v =>
    rw [World.call, Option.some_inj] at hcall
    rw [← hcall]
    refine ⟨hh, Function.update_of_ne ?_ _ _⟩
    rintro rfl
    exact hstore v rfl

/-- **What is held keeps its contents.** Whatever the calls of a run, a
word of memory that is held is changed by none of them but a store to it,
as long as the memory is not freed. -/
theorem heap_keeps_contents {past₀ : List (World × Call)} (hrun₀ : Run lay (.cold mem) past₀ W₀)
    (hrun : Run lay W₀ past W) (hh : h ∈ W₀.held)
    (hw : h.pv ≤ w ∧ w < h.pv + h.xWantedSize)
    (hkept : ∀ p ∈ past, p.2 ≠ .vPortFree h.pv ∧ ∀ v, p.2 ≠ .store w v) :
    h ∈ W.held ∧ W.heap.mem w = W₀.heap.mem w := by
  induction hrun with
  | nil => exact ⟨hh, rfl⟩
  | @call past W W' c hrun hallowed hcall ih =>
    obtain ⟨hheld, hmem⟩ := ih fun p hp => hkept p (List.mem_cons_of_mem _ hp)
    obtain ⟨hfree, hstore⟩ := hkept (W, c) List.mem_cons_self
    rcases hrun.kept hrun₀.kept_cold with ⟨mem, rfl⟩ | ⟨A, hb⟩
    · simp [World.cold] at hheld
    · obtain ⟨hheld', hmem'⟩ := hb.keeps hallowed hcall hheld hw hfree hstore
      exact ⟨hheld', hmem'.trans hmem⟩

/-- Its first word is stored to. -/
def sampleStored : World :=
  (sampleWorld.call sampleLayout (.store 0x8f100020 7)).get (by decide)

/-- Another piece is handed out behind it. -/
def sampleLater : World :=
  (sampleStored.call sampleLayout (.pvPortMalloc 50)).get (by decide)

theorem sampleStoredRun : Run sampleLayout (.cold fun _ => 0)
    [(sampleWorld, .store 0x8f100020 7), (.cold fun _ => 0, .pvPortMalloc 100)] sampleStored :=
  sampleRun.call (c := .store 0x8f100020 7)
    ⟨by decide, ⟨0x8f100020, 100⟩, by decide, by decide, by decide⟩ (Option.some_get _).symm

theorem sampleLaterRun :
    Run sampleLayout sampleStored [(sampleStored, .pvPortMalloc 50)] sampleLater :=
  .call (c := .pvPortMalloc 50) .nil (by decide : 50 < 2 ^ 64) (Option.some_get _).symm

theorem heap_keeps_contents_sample : (⟨0x8f100020, 100⟩ : Held) ∈ sampleLater.held ∧
    sampleLater.heap.mem 0x8f100020 = 7 :=
  heap_keeps_contents (h := ⟨0x8f100020, 100⟩) sampleStoredRun sampleLaterRun (by decide)
    (by decide) (by simp)

/-! ## Blocks -/

/-- The block of what is held, as its header has it. -/
def World.block (W : World) (h : Held) : Span :=
  ⟨h.pv - xHeapStructSize,
    xBlockSize W.heap.mem (h.pv - xHeapStructSize) &&& complement W.heap.xBlockAllocatedBit⟩

/-- The blocks handed out are those of what is held. -/
theorem Booked.map_block (hb : Booked lay W A) : W.held.map W.block = A.live := by
  have hblock : ∀ h x, x ∈ A.live → Books h x → W.block h = x := by
    intro h x hx hbooks
    obtain ⟨-, hsize⟩ := hb.represents.owned x hx
    have htop := (hb.represents.placed (.inr hx)).size_lt
    rw [World.block, hbooks.pv, xHeapStructSize_eq, Nat.add_sub_cancel, hsize, hb.represents.bit,
      show complement (2 ^ 63) = 2 ^ (63 + 1) - 1 - 2 ^ 63 from rfl,
      Masks.add_top_and_not_top htop]
  have hbooks := hb.books
  generalize W.held = hs at *
  generalize A.live = xs at *
  induction hbooks with
  | nil => rfl
  | @cons h x hs xs hx hrest ih =>
    rw [List.map_cons, hblock h x List.mem_cons_self hx,
      ih fun k y hy => hblock k y (List.mem_cons_of_mem _ hy)]

end Amp

end ObcSdk
