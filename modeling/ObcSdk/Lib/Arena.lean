import ObcSdk.Lib.Spans
/-!
# Arenas

What an allocator is for, apart from how it keeps its books: a range of
numbers, some spans of it handed out and no two of them overlapping, and
the rest free. Taking the first span that fits and putting a span back
keep it so.
-/

namespace ObcSdk

open ObcSdk.Span ObcSdk.Spans

variable {l live : List Span} {x y : Span} {lo hi m w n a : ℕ}

/-! ## The first that fits -/

/-- **The first span of a list that is large enough**, with those before
and behind it. -/
structure Fit (w : ℕ) (l : List Span) where
  pre : List Span
  span : Span
  post : List Span
  eq : l = pre ++ span :: post
  le_size : w ≤ span.size
  smaller : ∀ y ∈ pre, y.size < w

namespace Fit

theorem mem (f : Fit w l) : f.span ∈ l := by
  obtain ⟨pre, x, post, rfl, -, -⟩ := f
  simp

theorem apart_take (f : Fit w l) (h : Apart l) :
    Apart (f.pre ++ leftover m w f.span ++ f.post) := by
  obtain ⟨pre, x, post, rfl, -, -⟩ := f
  exact h.take

theorem mem_covered_take (f : Fit w l) (h : Apart l) :
    n ∈ covered (f.pre ++ leftover m w f.span ++ f.post) ↔
      n ∈ covered l ∧ n ∉ (taken m w f.span).bytes := by
  obtain ⟨pre, x, post, rfl, hw, -⟩ := f
  exact h.mem_covered_take hw

theorem total_take (f : Fit w l) :
    total (f.pre ++ leftover m w f.span ++ f.post) + (taken m w f.span).size = total l := by
  obtain ⟨pre, x, post, rfl, hw, -⟩ := f
  have := size_taken_le (m := m) hw
  simp only [total_append, total_cons, total_leftover]
  omega

/-- A fit is there unless all spans are too small. -/
theorem isEmpty_iff : IsEmpty (Fit w l) ↔ ∀ x ∈ l, x.size < w := by
  constructor
  · intro h
    induction l with
    | nil => simp
    | cons x l ih =>
      have hx : x.size < w := by
        by_contra hle
        exact h.false ⟨[], x, l, rfl, by omega, by simp⟩
      have hl := ih ⟨fun f => h.false ⟨x :: f.pre, f.span, f.post, by rw [List.cons_append, ← f.eq],
        f.le_size, List.forall_mem_cons.2 ⟨hx, f.smaller⟩⟩⟩
      exact List.forall_mem_cons.2 ⟨hx, hl⟩
  · intro h
    refine ⟨fun f => ?_⟩
    have := h f.span f.mem
    have := f.le_size
    omega

end Fit

/-! ## Arenas -/

/-- **A range of which some spans are handed out.** What is not handed out
is free, and the free spans are kept apart. -/
@[ext] structure Arena (lo hi : ℕ) where
  free : List Span
  live : List Span
  apart : Apart free
  live_pos : ∀ x ∈ live, 0 < x.size
  disjoint : live.Pairwise fun x y => Disjoint x.bytes y.bytes
  inside : ∀ x ∈ live, lo ≤ x.start ∧ x.stop ≤ hi
  tiles : ∀ n, n ∈ covered free ↔ (lo ≤ n ∧ n < hi) ∧ n ∉ covered live
  budget : total free + total live = hi - lo

namespace Arena

theorem apart_whole (h : lo < hi) : Apart [⟨lo, hi - lo⟩] := by
  refine apart_singleton ?_
  simp only
  omega

theorem forall_mem_nothing (p : Span → Prop) : ∀ x ∈ ([] : List Span), p x := by
  simp

theorem mem_covered_whole (h : lo < hi) (n : ℕ) :
    n ∈ covered [⟨lo, hi - lo⟩] ↔ (lo ≤ n ∧ n < hi) ∧ n ∉ covered [] := by
  rw [mem_covered_cons, covered_nil, mem_bytes, stop]
  simp only [Set.mem_empty_iff_false, or_false, not_false_iff, and_true]
  omega

theorem total_whole (lo hi : ℕ) : total [⟨lo, hi - lo⟩] + total [] = hi - lo := by
  simp

/-- An arena of which nothing is handed out. -/
def untouched (h : lo < hi) : Arena lo hi where
  free := [⟨lo, hi - lo⟩]
  live := []
  apart := apart_whole h
  live_pos := forall_mem_nothing _
  disjoint := .nil
  inside := forall_mem_nothing _
  tiles := mem_covered_whole h
  budget := total_whole lo hi

variable {A B : Arena lo hi}

/-- A free span lies in the range, and apart from all that is handed
out. -/
theorem free_inside (A : Arena lo hi) (hx : x ∈ A.free) : lo ≤ x.start ∧ x.stop ≤ hi := by
  have hpos := A.apart.size_pos x hx
  have hfirst := ((A.tiles x.start).1 ⟨x, hx, mem_bytes.2 ⟨le_refl _, by rw [stop]; omega⟩⟩).1
  have hlast := ((A.tiles (x.stop - 1)).1
    ⟨x, hx, mem_bytes.2 ⟨by rw [stop]; omega, by rw [stop]; omega⟩⟩).1
  exact ⟨hfirst.1, by omega⟩

/-- Nothing is both free and handed out. -/
theorem disjoint_free (A : Arena lo hi) (hx : x ∈ A.live) : Disjoint x.bytes (covered A.free) := by
  refine Set.disjoint_left.2 fun n hn hfree => ?_
  exact ((A.tiles n).1 hfree).2 ⟨x, hx, hn⟩

/-- No two spans handed out begin at the same number. -/
theorem live_inj (A : Arena lo hi) (hx : x ∈ A.live) (hy : y ∈ A.live)
    (heq : x.start = y.start) : x = y := by
  by_contra hne
  have hsymm : Std.Symm fun x y : Span => Disjoint x.bytes y.bytes := ⟨fun _ _ h => h.symm⟩
  have hdis := A.disjoint.forall hx hy hne
  have hxpos := A.live_pos x hx
  have hypos := A.live_pos y hy
  refine Set.disjoint_left.1 hdis (mem_bytes.2 ⟨le_refl _, ?_⟩) (mem_bytes.2 ⟨heq.ge, ?_⟩)
  · rw [stop]
    omega
  · rw [stop]
    omega

/-- A span that fits begins where none handed out does. -/
theorem fit_start_ne (f : Fit w A.free) (hx : x ∈ A.live) : f.span.start ≠ x.start := by
  intro heq
  have hpos := A.apart.size_pos f.span f.mem
  have hxpos := A.live_pos x hx
  refine Set.disjoint_left.1 (A.disjoint_free hx) (mem_bytes.2 ⟨le_refl x.start, ?_⟩)
    ⟨f.span, f.mem, mem_bytes.2 ⟨heq.le, ?_⟩⟩
  · rw [stop]
    omega
  · rw [stop]
    omega

/-- **What is handed out determines what is free**, span by span. -/
theorem free_eq (h : covered A.live = covered B.live) : A.free = B.free := by
  refine A.apart.eq_of_covered_eq B.apart ?_
  ext n
  rw [A.tiles, B.tiles, h]

/-- Where nothing is handed out, all is free, in one span. -/
theorem free_of_live_nil (h : lo < hi) (hlive : A.live = []) : A.free = [⟨lo, hi - lo⟩] :=
  free_eq (B := untouched h) (by rw [hlive]; rfl)

/-- **A fit is missing exactly where there is no room**: where no stretch
of that length is clear of all that is handed out. -/
theorem isEmpty_fit_iff (hw : 0 < w) : IsEmpty (Fit w A.free) ↔
    ¬ ∃ a, lo ≤ a ∧ a + w ≤ hi ∧ ∀ x ∈ A.live, Disjoint (Set.Ico a (a + w)) x.bytes := by
  have hroom : (∃ a, Set.Ico a (a + w) ⊆ covered A.free) ↔
      ∃ a, lo ≤ a ∧ a + w ≤ hi ∧ ∀ x ∈ A.live, Disjoint (Set.Ico a (a + w)) x.bytes := by
    refine exists_congr fun a => ?_
    constructor
    · intro hsub
      have hfirst := (A.tiles a).1 (hsub (Set.mem_Ico.2 ⟨le_refl a, by omega⟩))
      have hlast := (A.tiles (a + w - 1)).1 (hsub (Set.mem_Ico.2 ⟨by omega, by omega⟩))
      refine ⟨hfirst.1.1, by omega, fun x hx => Set.disjoint_left.2 fun n hn hnx => ?_⟩
      exact ((A.tiles n).1 (hsub hn)).2 ⟨x, hx, hnx⟩
    · rintro ⟨hlo, hhi, hdis⟩ n hn
      rw [Set.mem_Ico] at hn
      refine (A.tiles n).2 ⟨by omega, ?_⟩
      rintro ⟨x, hx, hnx⟩
      exact Set.disjoint_left.1 (hdis x hx) (Set.mem_Ico.2 hn) hnx
  rw [Fit.isEmpty_iff, ← hroom, ← A.apart.exists_size_iff hw]
  simp only [not_exists, not_and, not_le]

/-! ## Taking and giving back -/

theorem taken_inside (f : Fit w A.free) : lo ≤ f.span.start ∧ (taken m w f.span).stop ≤ hi := by
  have h := A.free_inside f.mem
  have hsize := size_taken_le (m := m) f.le_size
  simp only [stop, taken_start] at *
  omega

theorem taken_covered (f : Fit w A.free) (hn : n ∈ (taken m w f.span).bytes) :
    n ∈ covered A.free := by
  have hsize := size_taken_le (m := m) f.le_size
  refine ⟨f.span, f.mem, ?_⟩
  rw [mem_bytes, stop] at *
  rw [taken_start] at hn
  omega

/-- The front of the first span that fits is handed out, or all of it
where not more than `m` numbers would be left. -/
def take (A : Arena lo hi) (m : ℕ) (hw : 0 < w) (f : Fit w A.free) : Arena lo hi where
  free := f.pre ++ leftover m w f.span ++ f.post
  live := taken m w f.span :: A.live
  apart := f.apart_take A.apart
  live_pos := List.forall_mem_cons.2 ⟨hw.trans_le (le_size_taken f.le_size), A.live_pos⟩
  disjoint := List.pairwise_cons.2 ⟨fun y hy => Set.disjoint_left.2 fun _ hn hny =>
    ((A.tiles _).1 (taken_covered f hn)).2 ⟨y, hy, hny⟩, A.disjoint⟩
  inside := List.forall_mem_cons.2 ⟨taken_inside f, A.inside⟩
  tiles n := by
    rw [f.mem_covered_take A.apart, A.tiles, mem_covered_cons]
    tauto
  budget := by
    have htotal := f.total_take (m := m)
    have hbudget := A.budget
    rw [total_cons]
    omega

theorem apart_release (A : Arena lo hi) (hx : x ∈ A.live) : Apart (release x A.free) :=
  A.apart.release (A.live_pos x hx) (A.disjoint_free hx)

/-- What is given back is free, and was not before. -/
theorem mem_covered_give (A : Arena lo hi) (hx : x ∈ A.live) (n : ℕ) :
    n ∈ covered (release x A.free) ↔ (lo ≤ n ∧ n < hi) ∧ n ∉ covered (A.live.erase x) := by
  have hperm := List.perm_cons_erase hx
  have hcov : n ∈ covered A.live ↔ n ∈ x.bytes ∨ n ∈ covered (A.live.erase x) := by
    rw [← mem_covered_cons]
    simp only [covered, Set.mem_ofPred_eq, hperm.mem_iff]
  have hdis : n ∈ x.bytes → n ∉ covered (A.live.erase x) := by
    rintro hn ⟨y, hy, hny⟩
    have hpair := hperm.pairwise_iff (fun {a b} (h : Disjoint a.bytes b.bytes) => h.symm) |>.1
      A.disjoint
    exact Set.disjoint_left.1 ((List.pairwise_cons.1 hpair).1 y hy) hn hny
  have hin : n ∈ x.bytes → lo ≤ n ∧ n < hi := by
    intro hn
    have := A.inside x hx
    rw [mem_bytes] at hn
    omega
  rw [mem_covered_release, A.tiles, hcov]
  tauto

theorem total_give (A : Arena lo hi) (hx : x ∈ A.live) :
    total (release x A.free) + total (A.live.erase x) = hi - lo := by
  have hperm := (List.perm_cons_erase hx).map size
  have htotal := hperm.sum_eq
  have hbudget := A.budget
  rw [total_release]
  simp only [total, List.map_cons, List.sum_cons] at *
  omega

/-- A span handed out is given back. -/
def give (A : Arena lo hi) (x : Span) (hx : x ∈ A.live) : Arena lo hi where
  free := release x A.free
  live := A.live.erase x
  apart := A.apart_release hx
  live_pos y hy := A.live_pos y (List.mem_of_mem_erase hy)
  disjoint := A.disjoint.sublist List.erase_sublist
  inside y hy := A.inside y (List.mem_of_mem_erase hy)
  tiles := A.mem_covered_give hx
  budget := A.total_give hx

theorem taken_mem (hw : 0 < w) (f : Fit w A.free) : taken m w f.span ∈ (A.take m hw f).live :=
  List.mem_cons_self

/-- **A span taken and given back leaves what is free as it was.** -/
theorem free_give_take (hw : 0 < w) (f : Fit w A.free) :
    ((A.take m hw f).give (taken m w f.span) (taken_mem hw f)).free = A.free := by
  refine free_eq ?_
  change covered ((taken m w f.span :: A.live).erase (taken m w f.span)) = covered A.live
  rw [List.erase_cons_head]

/-- Of two spans taken the first is given back. -/
theorem live_give_take_take (hw : 0 < w) (f : Fit w A.free) {v : ℕ} (hv : 0 < v)
    (f' : Fit v (A.take m hw f).free)
    (hmem : taken m w f.span ∈ ((A.take m hw f).take m hv f').live) :
    (((A.take m hw f).take m hv f').give (taken m w f.span) hmem).live =
      taken m v f'.span :: A.live := by
  have hne : taken m v f'.span ≠ taken m w f.span := by
    intro heq
    have hstart := congrArg start heq
    rw [taken_start] at hstart
    exact fit_start_ne f' (taken_mem hw f) hstart
  change (taken m v f'.span :: taken m w f.span :: A.live).erase (taken m w f.span) = _
  rw [List.erase_cons_tail (by simpa using hne), List.erase_cons_head]

end Arena

end ObcSdk
