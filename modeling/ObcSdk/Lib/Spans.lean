import Mathlib
/-!
# Spans kept apart

Stretches of numbers in ascending order, with a gap between any two of
them: what an allocator keeps of its free memory. A stretch put back grows
together with its neighbours, so the list is the one way to write down the
numbers it covers, and a stretch of given length is to be had where there
is one at all.
-/

namespace ObcSdk

/-- `size` numbers from `start` on. -/
structure Span where
  start : ℕ
  size : ℕ
deriving DecidableEq

namespace Span

/-- The first number behind a span. -/
def stop (x : Span) : ℕ := x.start + x.size

/-- The numbers of a span. -/
def bytes (x : Span) : Set ℕ := Set.Ico x.start x.stop

@[simp] theorem stop_mk {a s : ℕ} : stop ⟨a, s⟩ = a + s := rfl

theorem mem_bytes {x : Span} {n : ℕ} : n ∈ x.bytes ↔ x.start ≤ n ∧ n < x.stop := Iff.rfl

end Span

namespace Spans

open ObcSdk.Span

variable {l l' pre post : List Span} {x y b : Span} {n a s w m lo hi : ℕ}

/-- The numbers that a list of spans covers. -/
def covered (l : List Span) : Set ℕ := {n | ∃ x ∈ l, n ∈ x.bytes}

/-- **Spans kept apart**: none is empty, and each ends before the next
begins, with a gap between. -/
structure Apart (l : List Span) : Prop where
  size_pos : ∀ x ∈ l, 0 < x.size
  gaps : l.Pairwise fun x y => x.stop < y.start

/-- How many numbers the spans have together. -/
def total (l : List Span) : ℕ := (l.map size).sum

/-! ## What they cover -/

@[simp] theorem covered_nil : covered [] = ∅ := by
  simp [covered]

theorem mem_covered_cons : n ∈ covered (x :: l) ↔ n ∈ x.bytes ∨ n ∈ covered l := by
  simp [covered]

theorem mem_covered_append : n ∈ covered (pre ++ post) ↔ n ∈ covered pre ∨ n ∈ covered post := by
  simp only [covered, Set.mem_ofPred_eq, List.mem_append]
  constructor
  · rintro ⟨x, hx | hx, hn⟩
    · exact .inl ⟨x, hx, hn⟩
    · exact .inr ⟨x, hx, hn⟩
  · rintro (⟨x, hx, hn⟩ | ⟨x, hx, hn⟩)
    · exact ⟨x, .inl hx, hn⟩
    · exact ⟨x, .inr hx, hn⟩

@[simp] theorem total_nil : total [] = 0 := rfl

@[simp] theorem total_cons : total (x :: l) = x.size + total l := by
  simp [total]

@[simp] theorem total_append : total (pre ++ post) = total pre + total post := by
  simp [total]

theorem size_le_total (h : x ∈ l) : x.size ≤ total l := by
  obtain ⟨pre, post, rfl⟩ := List.append_of_mem h
  rw [total_append, total_cons]
  omega

/-! ## Apart -/

theorem apart_singleton (h : 0 < x.size) : Apart [x] := ⟨by simpa using h, by simp⟩

theorem apart_cons :
    Apart (x :: l) ↔ 0 < x.size ∧ (∀ y ∈ l, x.stop < y.start) ∧ Apart l := by
  constructor
  · rintro ⟨hpos, hgaps⟩
    rw [List.pairwise_cons] at hgaps
    exact ⟨hpos x List.mem_cons_self, hgaps.1,
      fun y hy => hpos y (List.mem_cons_of_mem _ hy), hgaps.2⟩
  · rintro ⟨hx, hgap, hpos, hgaps⟩
    refine ⟨?_, List.pairwise_cons.2 ⟨hgap, hgaps⟩⟩
    intro y hy
    rcases List.mem_cons.1 hy with rfl | hy
    · exact hx
    · exact hpos y hy

theorem apart_append : Apart (pre ++ post) ↔
    Apart pre ∧ Apart post ∧ ∀ x ∈ pre, ∀ y ∈ post, x.stop < y.start := by
  constructor
  · rintro ⟨hpos, hgaps⟩
    obtain ⟨hpre, hpost, hcross⟩ := List.pairwise_append.1 hgaps
    exact ⟨⟨fun x hx => hpos x (List.mem_append_left _ hx), hpre⟩,
      ⟨fun x hx => hpos x (List.mem_append_right _ hx), hpost⟩, hcross⟩
  · rintro ⟨hpre, hpost, hcross⟩
    refine ⟨?_, List.pairwise_append.2 ⟨hpre.gaps, hpost.gaps, hcross⟩⟩
    intro x hx
    rcases List.mem_append.1 hx with hx | hx
    · exact hpre.size_pos x hx
    · exact hpost.size_pos x hx

/-- The number behind a span is covered by none. -/
theorem Apart.stop_not_mem (h : Apart l) (hx : x ∈ l) : x.stop ∉ covered l := by
  obtain ⟨pre, post, rfl⟩ := List.append_of_mem hx
  obtain ⟨-, hpost, hcross⟩ := apart_append.1 h
  obtain ⟨-, hgap, -⟩ := apart_cons.1 hpost
  rw [mem_covered_append, mem_covered_cons]
  rintro (⟨y, hy, hn⟩ | hn | ⟨y, hy, hn⟩)
  · have hlt := hcross y hy x List.mem_cons_self
    rw [mem_bytes] at hn
    simp only [stop] at *
    omega
  · rw [mem_bytes] at hn
    omega
  · have hlt := hgap y hy
    rw [mem_bytes] at hn
    omega

/-- The first span has the least number. -/
theorem Apart.start_le (h : Apart (x :: l)) (hn : n ∈ covered (x :: l)) : x.start ≤ n := by
  obtain ⟨-, hgap, -⟩ := apart_cons.1 h
  rcases mem_covered_cons.1 hn with hn | ⟨y, hy, hn⟩
  · exact hn.1
  · have hlt := hgap y hy
    rw [mem_bytes] at hn
    simp only [stop] at *
    omega

theorem Apart.start_mem (h : Apart (x :: l)) : x.start ∈ covered (x :: l) := by
  have hpos := (apart_cons.1 h).1
  exact mem_covered_cons.2 (.inl (mem_bytes.2 ⟨le_refl _, by rw [stop]; omega⟩))

/-- What the spans behind the first one cover. -/
theorem Apart.mem_covered_tail (h : Apart (x :: l)) :
    n ∈ covered l ↔ n ∈ covered (x :: l) ∧ x.stop ≤ n := by
  obtain ⟨-, hgap, -⟩ := apart_cons.1 h
  rw [mem_covered_cons]
  constructor
  · rintro ⟨y, hy, hn⟩
    have hlt := hgap y hy
    have hle := hn.1
    exact ⟨.inr ⟨y, hy, hn⟩, by omega⟩
  · rintro ⟨hn | hn, hle⟩
    · have hlt := hn.2
      omega
    · exact hn

/-- **A stretch that is covered lies in one span.** -/
theorem Apart.exists_span (h : Apart l) (hw : 0 < w) (hsub : Set.Ico a (a + w) ⊆ covered l) :
    ∃ x ∈ l, x.start ≤ a ∧ a + w ≤ x.stop := by
  obtain ⟨x, hx, hax⟩ := hsub (Set.mem_Ico.2 ⟨le_refl a, by omega⟩)
  rw [mem_bytes] at hax
  refine ⟨x, hx, hax.1, ?_⟩
  by_contra hlt
  exact h.stop_not_mem hx (hsub (Set.mem_Ico.2 ⟨by omega, by omega⟩))

/-- **A span of given size is there exactly when that many numbers in a
row are covered.** -/
theorem Apart.exists_size_iff (h : Apart l) (hw : 0 < w) :
    (∃ x ∈ l, w ≤ x.size) ↔ ∃ a, Set.Ico a (a + w) ⊆ covered l := by
  constructor
  · rintro ⟨x, hx, hle⟩
    refine ⟨x.start, fun n hn => ⟨x, hx, ?_⟩⟩
    rw [Set.mem_Ico] at hn
    rw [mem_bytes, stop]
    omega
  · rintro ⟨a, hsub⟩
    obtain ⟨x, hx, hle, hstop⟩ := h.exists_span hw hsub
    refine ⟨x, hx, ?_⟩
    rw [stop] at hstop
    omega

/-- **The numbers covered determine the list.** -/
theorem Apart.eq_of_covered_eq (h : Apart l) (h' : Apart l') (heq : covered l = covered l') :
    l = l' := by
  induction l generalizing l' with
  | nil =>
    cases l' with
    | nil => rfl
    | cons y l' =>
      have hy := heq ▸ h'.start_mem
      simp at hy
  | cons x l ih =>
    cases l' with
    | nil =>
      have hx := heq ▸ h.start_mem
      simp at hx
    | cons y l' =>
      have hstart : x.start = y.start :=
        le_antisymm (h.start_le (heq ▸ h'.start_mem)) (h'.start_le (heq ▸ h.start_mem))
      -- the one that ends later would cover the number behind the other
      have hstop : x.stop = y.stop := by
        have hx := h.stop_not_mem List.mem_cons_self
        have hy := h'.stop_not_mem List.mem_cons_self
        have hxpos := (apart_cons.1 h).1
        have hypos := (apart_cons.1 h').1
        rw [heq, mem_covered_cons, mem_bytes] at hx
        rw [← heq, mem_covered_cons, mem_bytes] at hy
        simp only [stop] at *
        omega
      have hxy : x = y := by
        obtain ⟨a, s⟩ := x
        obtain ⟨b, t⟩ := y
        simp only [stop_mk] at hstart hstop
        rw [Span.mk.injEq]
        omega
      subst hxy
      rw [ih (apart_cons.1 h).2.2 (apart_cons.1 h').2.2]
      ext n
      rw [h.mem_covered_tail, h'.mem_covered_tail, heq]

/-! ## Between two bounds -/

/-- Spans that lie between two numbers have no more of them than there
are. -/
theorem Apart.total_le (h : Apart l) (hlo : ∀ x ∈ l, lo ≤ x.start) (hhi : ∀ x ∈ l, x.stop ≤ hi)
    (hle : lo ≤ hi) : total l ≤ hi - lo := by
  induction l generalizing lo with
  | nil => exact Nat.zero_le _
  | cons x l ih =>
    obtain ⟨-, hgap, hl⟩ := apart_cons.1 h
    have hx := hlo x List.mem_cons_self
    have hxhi := hhi x List.mem_cons_self
    have hrest := ih hl (fun y hy => (hgap y hy).le)
      (fun y hy => hhi y (List.mem_cons_of_mem _ hy)) hxhi
    rw [total_cons]
    simp only [stop] at *
    omega

theorem Apart.length_le_total (h : Apart l) : l.length ≤ total l := by
  induction l with
  | nil => exact le_refl _
  | cons x l ih =>
    obtain ⟨hx, -, hl⟩ := apart_cons.1 h
    have hrest := ih hl
    rw [total_cons, List.length_cons]
    omega

/-! ## Putting a span back -/

/-- A span in front of those behind it, in one with the first where the
two meet. -/
def joinRight (b : Span) : List Span → List Span
  | [] => [b]
  | c :: l => if b.stop = c.start then ⟨b.start, b.size + c.size⟩ :: l else b :: c :: l

/-- A span put back where it belongs, in one with the neighbours it
meets. -/
def release (b : Span) : List Span → List Span
  | [] => [b]
  | a :: l =>
    if b.start < a.start then joinRight b (a :: l)
    else if a.stop = b.start then joinRight ⟨a.start, a.size + b.size⟩ l
    else a :: release b l

theorem mem_covered_joinRight : n ∈ covered (joinRight b l) ↔ n ∈ b.bytes ∨ n ∈ covered l := by
  cases l with
  | nil => rw [joinRight, mem_covered_cons]
  | cons c l =>
    rw [joinRight]
    split_ifs with hmeet
    · simp only [mem_covered_cons, mem_bytes, stop] at *
      have hsplit : b.start ≤ n ∧ n < b.start + (b.size + c.size) ↔
          (b.start ≤ n ∧ n < b.start + b.size) ∨ (c.start ≤ n ∧ n < c.start + c.size) := by
        omega
      rw [hsplit, or_assoc]
    · exact mem_covered_cons

theorem total_joinRight : total (joinRight b l) = b.size + total l := by
  cases l with
  | nil => simp [joinRight]
  | cons c l =>
    rw [joinRight]
    split_ifs with hmeet
    · simp only [total_cons]
      omega
    · rw [total_cons]

theorem Apart.joinRight (h : Apart l) (hb : 0 < b.size) (hle : ∀ c ∈ l, b.stop ≤ c.start) :
    Apart (joinRight b l) := by
  cases l with
  | nil => exact apart_singleton hb
  | cons c l =>
    obtain ⟨hc, hgap, hl⟩ := apart_cons.1 h
    have hbc := hle c List.mem_cons_self
    rw [Spans.joinRight]
    split_ifs with hmeet
    · refine apart_cons.2 ⟨by simp only; omega, ?_, hl⟩
      intro y hy
      have hlt := hgap y hy
      simp only [stop] at *
      omega
    · refine apart_cons.2 ⟨hb, ?_, h⟩
      intro y hy
      rcases List.mem_cons.1 hy with rfl | hy
      · omega
      · have hlt := hgap y hy
        simp only [stop] at *
        omega

/-- A span that is free of those of a list lies wholly on one side of
each. -/
theorem le_or_le_of_disjoint (hb : 0 < b.size) (ha : 0 < x.size)
    (h : Disjoint b.bytes x.bytes) : b.stop ≤ x.start ∨ x.stop ≤ b.start := by
  by_contra hno
  rw [not_or, not_le, not_le] at hno
  simp only [stop] at hno
  have hbmem : max b.start x.start ∈ b.bytes := by
    rw [mem_bytes, stop]
    omega
  have hxmem : max b.start x.start ∈ x.bytes := by
    rw [mem_bytes, stop]
    omega
  exact Set.disjoint_left.1 h hbmem hxmem

theorem disjoint_of_mem (h : Disjoint b.bytes (covered l)) (hx : x ∈ l) :
    Disjoint b.bytes x.bytes :=
  h.mono_right fun n hn => (⟨x, hx, hn⟩ : ∃ x ∈ l, n ∈ x.bytes)

/-- **Put back, a span is covered beside what was**, and nothing else
is. -/
theorem mem_covered_release : n ∈ covered (release b l) ↔ n ∈ b.bytes ∨ n ∈ covered l := by
  induction l with
  | nil => rw [release, mem_covered_cons]
  | cons a l ih =>
    rw [release]
    split_ifs with hlt hmeet
    · exact mem_covered_joinRight
    · rw [mem_covered_joinRight, mem_covered_cons]
      simp only [mem_bytes, stop] at *
      have hsplit : a.start ≤ n ∧ n < a.start + (a.size + b.size) ↔
          (b.start ≤ n ∧ n < b.start + b.size) ∨ (a.start ≤ n ∧ n < a.start + a.size) := by
        omega
      rw [hsplit, or_assoc]
    · rw [mem_covered_cons, mem_covered_cons, ih, or_left_comm]

theorem total_release : total (release b l) = b.size + total l := by
  induction l with
  | nil => simp [release]
  | cons a l ih =>
    rw [release]
    split_ifs with hlt hmeet
    · exact total_joinRight
    · rw [total_joinRight, total_cons]
      simp only
      omega
    · rw [total_cons, total_cons, ih]
      omega

/-- **Spans stay apart** when one that is free of them is put back. -/
theorem Apart.release (h : Apart l) (hb : 0 < b.size) (hfree : Disjoint b.bytes (covered l)) :
    Apart (release b l) := by
  induction l with
  | nil => exact apart_singleton hb
  | cons a l ih =>
    obtain ⟨ha, hgap, hl⟩ := apart_cons.1 h
    have hside := le_or_le_of_disjoint hb ha (disjoint_of_mem hfree List.mem_cons_self)
    have hrest : Disjoint b.bytes (covered l) :=
      hfree.mono_right fun _ hn => mem_covered_cons.2 (.inr hn)
    rw [Spans.release]
    split_ifs with hlt hmeet
    · refine h.joinRight hb ?_
      intro c hc
      rcases List.mem_cons.1 hc with rfl | hc
      · simp only [stop] at *
        omega
      · have := hgap c hc
        simp only [stop] at *
        omega
    · refine hl.joinRight (by simp only; omega) ?_
      intro c hc
      have hside' := le_or_le_of_disjoint hb (hl.size_pos c hc) (disjoint_of_mem hrest hc)
      have := hgap c hc
      simp only [stop] at *
      omega
    · have happ := ih hl hrest
      refine apart_cons.2 ⟨ha, ?_, happ⟩
      intro y hy
      have hypos := happ.size_pos y hy
      have hmem : y.start ∈ covered (Spans.release b l) :=
        ⟨y, hy, mem_bytes.2 ⟨le_refl _, by rw [stop]; omega⟩⟩
      rcases mem_covered_release.1 hmem with hn | ⟨c, hc, hn⟩
      · rw [mem_bytes] at hn
        simp only [stop] at *
        omega
      · have := hgap c hc
        rw [mem_bytes] at hn
        omega

/-- The spans before a free one, and those behind it. -/
theorem Apart.exists_split (h : Apart l) (hb : 0 < b.size) (hfree : Disjoint b.bytes (covered l)) :
    ∃ pre post, l = pre ++ post ∧ (∀ a ∈ pre, a.stop ≤ b.start) ∧
      ∀ c ∈ post, b.stop ≤ c.start := by
  induction l with
  | nil => exact ⟨[], [], rfl, by simp, by simp⟩
  | cons a l ih =>
    obtain ⟨ha, hgap, hl⟩ := apart_cons.1 h
    rcases le_or_le_of_disjoint hb ha (disjoint_of_mem hfree List.mem_cons_self) with hside | hside
    · refine ⟨[], a :: l, rfl, by simp, ?_⟩
      intro c hc
      rcases List.mem_cons.1 hc with rfl | hc
      · exact hside
      · have := hgap c hc
        simp only [stop] at *
        omega
    · obtain ⟨pre, post, rfl, hpre, hpost⟩ :=
        ih hl (hfree.mono_right fun _ hn => mem_covered_cons.2 (.inr hn))
      refine ⟨a :: pre, post, rfl, ?_, hpost⟩
      intro c hc
      rcases List.mem_cons.1 hc with rfl | hc
      · exact hside
      · exact hpre c hc

/-- Where it is put back: behind the spans that end before it. -/
theorem release_append (h : ∀ a ∈ pre, a.stop < b.start) :
    release b (pre ++ post) = pre ++ release b post := by
  induction pre with
  | nil => rfl
  | cons a pre ih =>
    have ha := h a List.mem_cons_self
    simp only [stop] at ha
    rw [List.cons_append, release, if_neg (by omega), if_neg (by rw [stop]; omega),
      ih fun y hy => h y (List.mem_cons_of_mem _ hy), List.cons_append]

/-- And before the spans that begin after it. -/
theorem release_eq_joinRight (h : ∀ c ∈ post, b.start < c.start) :
    release b post = joinRight b post := by
  cases post with
  | nil => rfl
  | cons c post => rw [release, if_pos (h c List.mem_cons_self)]

/-- Between spans that it does not meet it stays by itself. -/
theorem release_between (h : ∀ a ∈ pre, a.stop < b.start) (h' : ∀ c ∈ post, b.stop < c.start) :
    release b (pre ++ post) = pre ++ [b] ++ post := by
  have hlt : ∀ c ∈ post, b.start < c.start := by
    intro c hc
    have := h' c hc
    rw [stop] at this
    omega
  rw [release_append h, release_eq_joinRight hlt, List.append_assoc, List.singleton_append]
  cases post with
  | nil => rfl
  | cons c post => rw [joinRight, if_neg (h' c List.mem_cons_self).ne]

/-- With the one that ends where it begins it makes one. -/
theorem release_meet (hx : 0 < x.size) (h : x.stop = b.start) :
    release b (x :: post) = joinRight ⟨x.start, x.size + b.size⟩ post := by
  have hlt : ¬ b.start < x.start := by
    rw [stop] at h
    omega
  rw [release, if_neg hlt, if_pos h]

/-! ## Taking a span, or its front -/

/-- What is left of a span whose front of length `w` is taken: the rest,
where that is longer than `m`. -/
def leftover (m w : ℕ) (x : Span) : List Span :=
  if m < x.size - w then [⟨x.start + w, x.size - w⟩] else []

/-- What is taken then. -/
def taken (m w : ℕ) (x : Span) : Span :=
  ⟨x.start, if m < x.size - w then w else x.size⟩

@[simp] theorem taken_start : (taken m w x).start = x.start := rfl

theorem le_size_taken (hw : w ≤ x.size) : w ≤ (taken m w x).size := by
  rw [taken]
  split_ifs
  · exact le_refl _
  · exact hw

theorem size_taken_le (hw : w ≤ x.size) : (taken m w x).size ≤ x.size := by
  rw [taken]
  split_ifs
  · exact hw
  · exact le_refl _

theorem total_leftover : total (leftover m w x) = x.size - (taken m w x).size := by
  rw [leftover, taken]
  split_ifs <;> simp

theorem Apart.take (h : Apart (pre ++ x :: post)) : Apart (pre ++ leftover m w x ++ post) := by
  obtain ⟨hpre, hxpost, hcross⟩ := apart_append.1 h
  obtain ⟨-, hgap, hpost⟩ := apart_cons.1 hxpost
  rw [leftover]
  split_ifs with hm
  · rw [List.append_assoc, List.singleton_append]
    refine apart_append.2 ⟨hpre, apart_cons.2 ⟨by simp only; omega, ?_, hpost⟩, ?_⟩
    · intro y hy
      have := hgap y hy
      simp only [stop] at *
      omega
    · intro y hy z hz
      rcases List.mem_cons.1 hz with rfl | hz
      · have := hcross y hy x List.mem_cons_self
        simp only
        omega
      · exact hcross y hy z (List.mem_cons_of_mem _ hz)
  · rw [List.append_nil]
    exact apart_append.2 ⟨hpre, hpost, fun y hy z hz => hcross y hy z (List.mem_cons_of_mem _ hz)⟩

/-- **What is taken is no longer covered**, and all else still is. -/
theorem Apart.mem_covered_take (h : Apart (pre ++ x :: post)) (hw : w ≤ x.size) :
    n ∈ covered (pre ++ leftover m w x ++ post) ↔
      n ∈ covered (pre ++ x :: post) ∧ n ∉ (taken m w x).bytes := by
  obtain ⟨hpre, hxpost, hcross⟩ := apart_append.1 h
  obtain ⟨-, hgap, hpost⟩ := apart_cons.1 hxpost
  have hout : n ∈ covered pre ∨ n ∈ covered post → n < x.start ∨ x.stop ≤ n := by
    rintro (⟨y, hy, hn⟩ | ⟨y, hy, hn⟩)
    · have := hcross y hy x List.mem_cons_self
      exact .inl (hn.2.trans this)
    · have := hgap y hy
      exact .inr (this.le.trans hn.1)
  have hfront : n ∈ covered (leftover m w x) ↔ n ∈ x.bytes ∧ n ∉ (taken m w x).bytes := by
    rw [leftover, taken]
    split_ifs with hm
    · rw [mem_covered_cons, covered_nil, mem_bytes, mem_bytes, mem_bytes]
      simp only [stop, Set.mem_empty_iff_false, or_false]
      omega
    · rw [covered_nil, Set.mem_empty_iff_false]
      exact ⟨False.elim, fun hn => hn.2 hn.1⟩
  have hfit : n ∈ (taken m w x).bytes → x.start ≤ n ∧ n < x.stop := by
    intro hn
    have hle := size_taken_le (m := m) hw
    rw [mem_bytes, stop, taken_start] at hn
    rw [stop]
    omega
  rw [mem_covered_append, mem_covered_append, mem_covered_append, mem_covered_cons, hfront]
  constructor
  · rintro ((hn | hn) | hn)
    · refine ⟨.inl hn, fun ht => ?_⟩
      have := hout (.inl hn)
      have := hfit ht
      omega
    · exact ⟨.inr (.inl hn.1), hn.2⟩
    · refine ⟨.inr (.inr hn), fun ht => ?_⟩
      have := hout (.inr hn)
      have := hfit ht
      omega
  · rintro ⟨hn | hn | hn, ht⟩
    · exact .inl (.inl hn)
    · exact .inl (.inr ⟨hn, ht⟩)
    · exact .inr hn

end Spans

end ObcSdk
