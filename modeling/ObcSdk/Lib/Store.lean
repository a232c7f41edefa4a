import Mathlib.Data.List.Basic
import Mathlib.Data.List.GetD
import Mathlib.Data.Set.Function
import Mathlib.Order.Interval.Set.Basic
/-!
# Stores

A store gives every address a value, and is what a load memory and the
content of a medium have in common. It is read and written in runs of
consecutive addresses: `read` hands back a run as a list, `write` lays a
list over the store. What a write leaves alone, what a read finds after
it, and how two adjacent runs make one are all that the rest of the
development asks of memory.
-/

namespace ObcSdk

/-- A store over the values `α`. -/
abbrev Store (α : Type*) := ℕ → α

namespace Store

variable {α : Type*} {m m' : Store α} {a b n k : ℕ} {bs cs : List α}

/-- The `n` values from address `a` on. -/
def read (m : Store α) (a n : ℕ) : List α :=
  (List.range n).map fun i => m (a + i)

/-- The store with `bs` laid over it from address `a` on. -/
def write (m : Store α) (a : ℕ) (bs : List α) : Store α :=
  fun x => if a ≤ x then bs.getD (x - a) (m x) else m x

@[simp] theorem length_read : (read m a n).length = n := by simp [read]

@[simp] theorem getElem_read {i : ℕ} (h : i < (read m a n).length) :
    (read m a n)[i] = m (a + i) := by simp [read]

@[simp] theorem read_zero : read m a 0 = [] := rfl

theorem getElem?_read {i : ℕ} (h : i < n) : (read m a n)[i]? = some (m (a + i)) := by
  simp [read, h]

/-- The store as seen from address `a` on. -/
def tail (m : Store α) (a : ℕ) : Store α := fun x => m (a + x)

@[simp] theorem tail_zero : tail m a 0 = m a := rfl

theorem headD_read {d : α} (h : 0 < n) : (read m a n).headD d = m a := by
  rw [List.headD_eq_head?_getD, List.head?_eq_getElem?, getElem?_read h, Option.getD_some,
    Nat.add_zero]

/-- A list is a run of the store once it has the run's length and
values. -/
theorem eq_read (hl : bs.length = n) (h : ∀ i (hi : i < bs.length), bs[i] = m (a + i)) :
    bs = read m a n :=
  List.ext_getElem (by simp [hl]) fun i h₁ _ => by rw [h i h₁, getElem_read]

/-- Two runs are equal when the stores agree on the addresses read. -/
theorem read_congr (h : ∀ i, i < n → m (a + i) = m' (b + i)) : read m a n = read m' b n :=
  List.map_congr_left fun i hi => h i (List.mem_range.1 hi)

/-- Adjacent runs make one. -/
theorem read_add : read m a (n + k) = read m a n ++ read m (a + n) k := by
  rw [read, List.range_add, List.map_append, List.map_map]
  congr 1
  exact List.map_congr_left fun i _ => by simp [Nat.add_assoc]

theorem take_read (h : k ≤ n) : (read m a n).take k = read m a k := by
  obtain ⟨j, rfl⟩ := Nat.exists_eq_add_of_le h
  rw [read_add, List.take_left' length_read]

theorem drop_read (h : k ≤ n) : (read m a n).drop k = read m (a + k) (n - k) := by
  obtain ⟨j, rfl⟩ := Nat.exists_eq_add_of_le h
  rw [read_add, List.drop_left' length_read, Nat.add_sub_cancel_left]

/-- A run inside a run. -/
theorem read_drop_take {i j : ℕ} (h : i + j ≤ n) :
    ((read m a n).drop i).take j = read m (a + i) j := by
  rw [drop_read (by omega), take_read (by omega)]

/-! ## Writing -/

theorem write_of_lt {x : ℕ} (h : x < a) : write m a bs x = m x := by
  simp [write, Nat.not_le.2 h]

theorem write_of_ge {x : ℕ} (h : a + bs.length ≤ x) : write m a bs x = m x := by
  rw [write, if_pos (by omega), List.getD_eq_default _ _ (by omega)]

/-- A write changes nothing outside the run it lays down. -/
theorem write_of_not_mem {x : ℕ} (h : x ∉ Set.Ico a (a + bs.length)) : write m a bs x = m x := by
  rcases Nat.lt_or_ge x a with hx | hx
  · exact write_of_lt hx
  · exact write_of_ge (Nat.le_of_not_lt fun hlt => h ⟨hx, hlt⟩)

theorem write_add {i : ℕ} (h : i < bs.length) : write m a bs (a + i) = bs[i] := by
  simp [write, h]

@[simp] theorem write_nil : write m a [] = m := by
  funext x; simp [write]

/-- What a write puts at an address depends on the store only where it
does not reach. -/
theorem write_congr {x : ℕ} (h : m x = m' x) : write m a bs x = write m' a bs x := by
  simp [write, h]

theorem read_write (h : n ≤ bs.length) : read (write m a bs) a n = bs.take n :=
  (eq_read (by simp [h]) fun i hi => by
    rw [List.length_take] at hi
    rw [List.getElem_take, write_add]).symm

@[simp] theorem read_write_self : read (write m a bs) a bs.length = bs := by
  rw [read_write le_rfl, List.take_length]

/-- Two writes of adjacent runs are one. -/
theorem write_append : write m a (bs ++ cs) = write (write m a bs) (a + bs.length) cs := by
  funext x
  rcases Nat.lt_or_ge x a with hx | hx
  · rw [write_of_lt hx, write_of_lt (by omega), write_of_lt hx]
  rcases Nat.lt_or_ge x (a + bs.length) with hb | hb
  · obtain ⟨i, rfl⟩ := Nat.exists_eq_add_of_le hx
    have hi : i < bs.length := by omega
    rw [write_add (by simp; omega), write_of_lt hb, write_add hi, List.getElem_append_left hi]
  rcases Nat.lt_or_ge x (a + bs.length + cs.length) with hc | hc
  · obtain ⟨i, rfl⟩ := Nat.exists_eq_add_of_le hb
    have hi : i < cs.length := by omega
    rw [write_add hi, Nat.add_assoc, write_add (by simp; omega),
      List.getElem_append_right (by omega)]
    simp
  · rw [write_of_ge (by simp; omega), write_of_ge hc, write_of_ge hb]

end Store

end ObcSdk
