import Mathlib.Data.List.Basic
/-!
# Segments laid end to end

Lists laid one behind the other, as an archive lays its files: where each
lies, and that it is found there again. And the other way round, a list
taken in pieces of a fixed length, as a reader with a buffer takes it.
-/

namespace ObcSdk

namespace Segments

variable {α β : Type*} {l pre post part : List α} {parts : List (List α)} {o n k : ℕ}

/-- The `n` values of a list from an offset on, where it has them. -/
def readAt (l : List α) (o n : ℕ) : Option (List α) :=
  if ((l.drop o).take n).length = n then some ((l.drop o).take n) else none

/-- Where parts laid end to end from an offset on lie: the offset and the
length of each. -/
def extents (o : ℕ) : List (List α) → List (ℕ × ℕ)
  | [] => []
  | part :: parts => (o, part.length) :: extents (o + part.length) parts

/-- Extents follow each other from an offset on, without gap or
overlap. -/
def Contiguous (o : ℕ) : List (ℕ × ℕ) → Prop
  | [] => True
  | e :: es => e.1 = o ∧ Contiguous (o + e.2) es

theorem contiguous_extents : Contiguous o (extents o parts) := by
  induction parts generalizing o with
  | nil => trivial
  | cons part parts ih => exact ⟨rfl, ih⟩

/-- A part is found where it was laid. -/
theorem readAt_part : readAt (pre ++ part ++ post) pre.length part.length = some part := by
  rw [readAt, List.append_assoc, List.drop_left, List.take_left, if_pos rfl]

variable (pre parts) in
/-- **Every part is found at its extent.** -/
theorem map_readAt_extents : (extents pre.length parts).map
    (fun e => readAt (pre ++ parts.flatten) e.1 e.2) = parts.map some := by
  induction parts generalizing pre with
  | nil => rfl
  | cons part parts ih =>
    have hrest := ih (pre ++ part)
    rw [List.length_append, List.append_assoc, ← List.flatten_cons] at hrest
    rw [extents, List.map_cons, List.map_cons, hrest, List.flatten_cons, ← List.append_assoc,
      readAt_part]

/-- Parts of one length. -/
theorem length_flatten (h : ∀ part ∈ parts, part.length = n) :
    parts.flatten.length = n * parts.length := by
  induction parts with
  | nil => rfl
  | cons part parts ih =>
    rw [List.flatten_cons, List.length_append, h part List.mem_cons_self,
      ih fun p hp => h p (List.mem_cons_of_mem _ hp), List.length_cons, Nat.mul_succ,
      Nat.add_comm]

/-- Parts of one length are dropped whole. -/
theorem drop_flatten (h : ∀ part ∈ parts, part.length = n) :
    parts.flatten.drop (n * k) = (parts.drop k).flatten := by
  induction k generalizing parts with
  | zero => rfl
  | succ k ih =>
    cases parts with
    | nil => simp
    | cons part parts =>
      have hlen := h part List.mem_cons_self
      rw [List.drop_succ_cons, ← ih fun p hp => h p (List.mem_cons_of_mem _ hp),
        List.flatten_cons, Nat.mul_succ, Nat.add_comm, ← List.drop_drop, List.drop_left' hlen]

/-! ## In pieces -/

/-- The first `k` pieces of length `n`, the last of which may be
shorter. -/
def piecesUpTo (n : ℕ) : ℕ → List α → List (List α)
  | 0, _ => []
  | _ + 1, [] => []
  | k + 1, a :: l => (a :: l).take n :: piecesUpTo n k ((a :: l).drop n)

/-- A list in pieces of length `n`. -/
def pieces (n : ℕ) (l : List α) : List (List α) := piecesUpTo n l.length l

theorem flatten_piecesUpTo (hn : 0 < n) (h : l.length ≤ k) :
    (piecesUpTo n k l).flatten = l := by
  induction k generalizing l with
  | zero =>
    rw [List.eq_nil_of_length_eq_zero (Nat.le_zero.1 h)]
    rfl
  | succ k ih =>
    cases l with
    | nil => rfl
    | cons a l =>
      have hrest : ((a :: l).drop n).length ≤ k := by
        rw [List.length_drop]
        omega
      rw [piecesUpTo, List.flatten_cons, ih hrest, List.take_append_drop]

/-- The pieces make the list. -/
@[simp] theorem flatten_pieces (hn : 0 < n) : (pieces n l).flatten = l :=
  flatten_piecesUpTo hn (Nat.le_refl _)

/-- No piece is empty, and none is longer than `n`. -/
theorem of_mem_piecesUpTo {piece : List α} (hn : 0 < n) (h : piece ∈ piecesUpTo n k l) :
    piece ≠ [] ∧ piece.length ≤ n := by
  induction k generalizing l with
  | zero => cases h
  | succ k ih =>
    cases l with
    | nil => cases h
    | cons a l =>
      rcases List.mem_cons.1 h with rfl | h
      · refine ⟨List.ne_nil_of_length_pos ?_, List.length_take_le _ _⟩
        rw [List.length_take, List.length_cons]
        omega
      · exact ih h

/-- **A loop over the pieces is a loop over the list.** -/
theorem foldl_pieces {f : β → α → β} {b : β} (hn : 0 < n) :
    (pieces n l).foldl (fun b piece => piece.foldl f b) b = l.foldl f b := by
  rw [← List.foldl_flatten, flatten_pieces hn]

end Segments

end ObcSdk
