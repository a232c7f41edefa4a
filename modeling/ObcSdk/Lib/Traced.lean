import Mathlib.Data.List.Infix
import ObcSdk.Lib.Store
/-!
# Stores that remember where they were written

A program's array may be written outside its bounds, and the values alone
do not show it. A traced store keeps the addresses stored to beside the
values. A run of values stored one behind the other is stored at
consecutive addresses, and the loop that swaps two ends towards the
middle turns the run around.
-/

namespace ObcSdk

/-- A store, and the addresses that were stored to, in order. -/
structure Traced (α : Type*) where
  mem : Store α
  stored : List ℕ

namespace Traced

variable {α : Type*} {m : Traced α} {a n p1 p2 : ℕ} {v : α} {vs ws : List α}

/-- A value stored. -/
def put (m : Traced α) (a : ℕ) (v : α) : Traced α where
  mem := Store.write m.mem a [v]
  stored := m.stored ++ [a]

/-- Values stored one behind the other. -/
def putAll (m : Traced α) (a : ℕ) : List α → Traced α
  | [] => m
  | v :: vs => putAll (m.put a v) (a + 1) vs

/-- The loop that turns a run around in place: its ends are swapped, as
long as the first is in front of the last. -/
def reverseLoop (p1 p2 : ℕ) (m : Traced α) : Traced α :=
  if p1 < p2 then
    let tmp := m.mem p1
    reverseLoop (p1 + 1) (p2 - 1) ((m.put p1 (m.mem p2)).put p2 tmp)
  else m
termination_by p2 - p1

@[simp] theorem put_mem_self : (m.put a v).mem a = v := by simp [put, Store.write]

theorem put_mem_of_ne (h : n ≠ a) : (m.put a v).mem n = m.mem n := by
  rw [put]
  exact Store.write_of_not_mem (by simp only [Set.mem_Ico, List.length_singleton]; omega)

@[simp] theorem putAll_nil : m.putAll a [] = m := rfl

theorem putAll_append : m.putAll a (vs ++ ws) = (m.putAll a vs).putAll (a + vs.length) ws := by
  induction vs generalizing m a with
  | nil => rfl
  | cons v vs ih =>
    rw [List.cons_append, putAll, putAll, ih, List.length_cons, Nat.add_assoc, Nat.add_comm 1]

/-- **A run stored** is the values laid over the store. -/
theorem putAll_mem : (m.putAll a vs).mem = Store.write m.mem a vs := by
  induction vs generalizing m a with
  | nil => rw [putAll_nil, Store.write_nil]
  | cons v vs ih =>
    rw [putAll, ih, put, show v :: vs = [v] ++ vs from rfl, Store.write_append]
    rfl

/-- A run is stored at consecutive addresses. -/
theorem putAll_stored : (m.putAll a vs).stored = m.stored ++ List.range' a vs.length := by
  induction vs generalizing m a with
  | nil => simp
  | cons v vs ih =>
    rw [putAll, ih, put, List.length_cons, List.range'_succ, List.append_assoc,
      List.singleton_append]

theorem mem_putAll_stored : n ∈ (m.putAll a vs).stored ↔
    n ∈ m.stored ∨ a ≤ n ∧ n < a + vs.length := by
  rw [putAll_stored, List.mem_append, List.mem_range'_1]

/-- **The loop turns the run around**: what lay at a distance from one end
lies at that distance from the other. -/
theorem reverseLoop_mem : (reverseLoop p1 p2 m).mem n =
    if p1 ≤ n ∧ n ≤ p2 then m.mem (p1 + p2 - n) else m.mem n := by
  induction p1, p2, m using reverseLoop.induct with
  | case1 p1 p2 m hlt tmp ih =>
    rw [reverseLoop, if_pos hlt, ih]
    by_cases hin : p1 + 1 ≤ n ∧ n ≤ p2 - 1
    · rw [if_pos hin, if_pos (by omega), put_mem_of_ne (by omega), put_mem_of_ne (by omega)]
      congr 1
      omega
    rw [if_neg hin]
    by_cases hlast : n = p2
    · subst hlast
      rw [put_mem_self, if_pos (by omega), Nat.add_sub_cancel]
    rw [put_mem_of_ne hlast]
    by_cases hfirst : n = p1
    · subst hfirst
      rw [put_mem_self, if_pos (by omega), Nat.add_sub_cancel_left]
    · rw [put_mem_of_ne hfirst, if_neg (by omega)]
  | case2 p1 p2 m hge =>
    rw [reverseLoop, if_neg hge]
    by_cases hin : p1 ≤ n ∧ n ≤ p2
    · rw [if_pos hin]
      congr 1
      omega
    · rw [if_neg hin]

/-- The loop stores to the run only. -/
theorem mem_reverseLoop_stored (h : n ∈ (reverseLoop p1 p2 m).stored) :
    n ∈ m.stored ∨ p1 ≤ n ∧ n ≤ p2 := by
  induction p1, p2, m using reverseLoop.induct with
  | case1 p1 p2 m hlt tmp ih =>
    rw [reverseLoop, if_pos hlt] at h
    rcases ih h with hold | hin
    · simp only [put, List.mem_append, List.mem_singleton] at hold
      rcases hold with (hold | rfl) | rfl
      · exact Or.inl hold
      · exact Or.inr ⟨le_rfl, hlt.le⟩
      · exact Or.inr ⟨hlt.le, le_rfl⟩
    · exact Or.inr (by omega)
  | case2 p1 p2 m hge =>
    rw [reverseLoop, if_neg hge] at h
    exact Or.inl h

/-- **A text turned around** by the loop. -/
theorem read_reverseLoop (h : Store.read m.mem a n = vs) :
    Store.read (reverseLoop a (a + n - 1) m).mem a n = vs.reverse := by
  have hlen : vs.length = n := by rw [← h, Store.length_read]
  refine (Store.eq_read (by simpa using hlen) fun i hi => ?_).symm
  rw [List.length_reverse, hlen] at hi
  have hget : ∀ j (hj : j < vs.length), vs[j] = m.mem (a + j) := by
    subst h
    intro j hj
    exact Store.getElem_read hj
  rw [List.getElem_reverse, hget, reverseLoop_mem, if_pos (by omega)]
  congr 1
  omega

end Traced

end ObcSdk
