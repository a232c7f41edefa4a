import Mathlib.Data.List.Sort
/-!
# Bubble sort

Neighbours are swapped where the second is to come first. A pass takes
the last element of the sorted order to the end, and the next pass stops
one short of it.
-/

namespace ObcSdk

/-- The inner loop, over so many pairs of neighbours. -/
def bubblePass {α : Type*} (lt : α → α → Bool) : ℕ → List α → List α
  | m + 1, a :: b :: l =>
    if lt a b then b :: bubblePass lt m (a :: l) else a :: bubblePass lt m (b :: l)
  | _, l => l

/-- The outer loop. -/
def bubbleSort {α : Type*} (lt : α → α → Bool) (l : List α) : List α :=
  (List.range (l.length - 1)).foldl (fun l' i => bubblePass lt (l.length - 1 - i) l') l

variable {α β : Type*} [LinearOrder β] {lt : α → α → Bool} {key : α → β} {l back : List α}
  {k : ℕ} {a : α}

variable (a l back) in
/-- **A pass** takes a least element of those it goes over to their end. -/
theorem exists_bubblePass (hlt : ∀ a b, lt a b = true ↔ key a < key b) :
    ∃ front x, bubblePass lt l.length (a :: l ++ back) = front ++ x :: back ∧
      (front ++ [x]).Perm (a :: l) ∧ ∀ b ∈ front, key x ≤ key b := by
  induction l generalizing a with
  | nil => exact ⟨[], a, rfl, List.Perm.refl _, by simp⟩
  | cons b l ih =>
    rw [List.cons_append, List.cons_append, List.length_cons, bubblePass]
    by_cases h : lt a b = true
    · obtain ⟨front, x, hpass, hperm, hle⟩ := ih a
      have hx : key x ≤ key a := by
        rcases List.mem_append.1 (hperm.mem_iff.2 List.mem_cons_self) with ha | ha
        · exact hle a ha
        · rw [List.mem_singleton.1 ha]
      refine ⟨b :: front, x, ?_, (hperm.cons b).trans (List.Perm.swap a b l), ?_⟩
      · rw [if_pos h, ← List.cons_append, hpass, List.cons_append]
      · exact List.forall_mem_cons.2 ⟨hx.trans ((hlt a b).1 h).le, hle⟩
    · obtain ⟨front, x, hpass, hperm, hle⟩ := ih b
      have hx : key x ≤ key b := by
        rcases List.mem_append.1 (hperm.mem_iff.2 List.mem_cons_self) with hb | hb
        · exact hle b hb
        · rw [List.mem_singleton.1 hb]
      refine ⟨a :: front, x, ?_, hperm.cons a, ?_⟩
      · rw [if_neg h, ← List.cons_append, hpass, List.cons_append]
      · exact List.forall_mem_cons.2 ⟨hx.trans (not_lt.1 (mt (hlt a b).2 h)), hle⟩

/-- What stands behind `k` passes: the last `k` are in order, and none in
front of them is less. -/
theorem exists_bubblePasses (hlt : ∀ a b, lt a b = true ↔ key a < key b) (hk : k < l.length) :
    ∃ front back, (List.range k).foldl (fun l' i => bubblePass lt (l.length - 1 - i) l') l =
        front ++ back ∧ back.length = k ∧ (front ++ back).Perm l ∧
      (back.map key).SortedGE ∧ ∀ a ∈ front, ∀ b ∈ back, key b ≤ key a := by
  have hnil : (([] : List α).map key).SortedGE := List.sortedGE_iff_pairwise.2 List.Pairwise.nil
  induction k with
  | zero => exact ⟨l, [], by simp, rfl, by simp, hnil, by simp⟩
  | succ k ih =>
    obtain ⟨front, back, hfold, hlen, hperm, hsorted, hle⟩ := ih (by omega)
    have hsum := hperm.length_eq
    rw [List.length_append, hlen] at hsum
    obtain ⟨a, front, rfl⟩ : ∃ a front', front = a :: front' := by
      cases front with
      | nil =>
        rw [List.length_nil] at hsum
        omega
      | cons a front => exact ⟨a, front, rfl⟩
    obtain ⟨front', x, hpass, hperm', hle'⟩ := exists_bubblePass front back a hlt
    have hcount : l.length - 1 - k = front.length := by
      rw [List.length_cons] at hsum
      omega
    have hmem : ∀ b ∈ front' ++ [x], b ∈ a :: front := fun b => hperm'.mem_iff.1
    refine ⟨front', x :: back, ?_, by rw [List.length_cons, hlen], ?_, ?_, ?_⟩
    · rw [List.range_succ, List.foldl_append, hfold, List.foldl_cons, List.foldl_nil, hcount,
        ← hpass]
    · rw [List.append_cons]
      exact (hperm'.append_right back).trans hperm
    · rw [List.map_cons, List.sortedGE_iff_pairwise, List.pairwise_cons]
      refine ⟨fun y hy => ?_, List.sortedGE_iff_pairwise.1 hsorted⟩
      obtain ⟨b, hb, rfl⟩ := List.mem_map.1 hy
      exact hle x (hmem x (by simp)) b hb
    · intro b hb c hc
      rcases List.mem_cons.1 hc with rfl | hc
      · exact hle' b hb
      · exact hle b (hmem b (List.mem_append_left _ hb)) c hc

theorem bubbleSort_perm_and_sorted (hlt : ∀ a b, lt a b = true ↔ key a < key b) :
    (bubbleSort lt l).Perm l ∧ ((bubbleSort lt l).map key).SortedGE := by
  cases l with
  | nil => exact ⟨List.Perm.refl _, List.sortedGE_iff_pairwise.2 List.Pairwise.nil⟩
  | cons a l =>
    obtain ⟨front, back, hfold, hlen, hperm, hsorted, hle⟩ :=
      exists_bubblePasses (l := a :: l) (k := l.length) hlt (by simp)
    rw [bubbleSort, List.length_cons, Nat.add_sub_cancel]
    rw [List.length_cons, Nat.add_sub_cancel] at hfold
    rw [hfold]
    refine ⟨hperm, ?_⟩
    have hone := hperm.length_eq
    rw [List.length_append, hlen, List.length_cons] at hone
    obtain ⟨x, rfl⟩ := List.length_eq_one_iff.1 (show front.length = 1 by omega)
    rw [List.singleton_append, List.map_cons, List.sortedGE_iff_pairwise, List.pairwise_cons]
    refine ⟨fun y hy => ?_, List.sortedGE_iff_pairwise.1 hsorted⟩
    obtain ⟨b, hb, rfl⟩ := List.mem_map.1 hy
    exact hle x (List.mem_singleton_self x) b hb

variable (l) in
/-- **Bubble sort** leaves the keys in descending order. -/
theorem map_bubbleSort (hlt : ∀ a b, lt a b = true ↔ key a < key b) :
    (bubbleSort lt l).map key = (l.map key).insertionSort (· ≥ ·) := by
  obtain ⟨hperm, hsorted⟩ := bubbleSort_perm_and_sorted (l := l) hlt
  refine List.Perm.eq_of_sortedGE hsorted List.sortedGE_insertionSort ?_
  exact (hperm.map key).trans (List.perm_insertionSort _ _).symm

end ObcSdk
