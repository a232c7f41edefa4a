import Mathlib.Data.Set.BooleanAlgebra
import Mathlib.Logic.Function.Basic
import Mathlib.Order.CompletePartialOrder
import Mathlib.Algebra.BigOperators.Group.List.Basic
import ObcSdk.Lib.Store
/-!
# Journals

A journal is the list of writes that reached some media, in the order
they did. The content of the media after it is its `replay` over what
they held before, and the content at a loss of power is the replay of a
prefix. Two facts carry every argument about a cut-off run: a replay
changes only what its extents cover, and a prefix of two journals run
one after the other either has not left the first or holds all of it.
-/

namespace ObcSdk

/-- A run of values written to a medium. -/
structure Extent (ι α : Type*) where
  /-- The medium. -/
  dev : ι
  /-- The address of the first value. -/
  pos : ℕ
  data : List α

namespace Extent

variable {ι α : Type*}

/-- The addresses an extent covers. -/
def range (e : Extent ι α) : Set ℕ := Set.Ico e.pos (e.pos + e.data.length)

end Extent

namespace Journal

variable {ι α : Type*} [DecidableEq ι]
variable {m m' : ι → Store α} {l l' p : List (Extent ι α)} {d : ι} {s : Set ℕ} {x : ℕ}

/-- The media after a write. -/
def apply (m : ι → Store α) (e : Extent ι α) : ι → Store α :=
  Function.update m e.dev (Store.write (m e.dev) e.pos e.data)

/-- The media after a journal. -/
def replay (m : ι → Store α) (l : List (Extent ι α)) : ι → Store α := l.foldl apply m

@[simp] theorem replay_nil : replay m [] = m := rfl

@[simp] theorem replay_cons {e : Extent ι α} : replay m (e :: l) = replay (apply m e) l := rfl

theorem replay_append : replay m (l ++ l') = replay (replay m l) l' := List.foldl_append ..

/-- A write leaves an address alone unless it covers it. -/
theorem apply_of_not_mem {e : Extent ι α} (h : e.dev = d → x ∉ e.range) :
    apply m e d x = m d x := by
  by_cases hd : d = e.dev
  · subst hd
    rw [apply, Function.update_self, Store.write_of_not_mem (h rfl)]
  · rw [apply, Function.update_of_ne hd]

/-- **Frame.** A replay leaves alone every address none of its extents
covers. -/
theorem replay_of_not_mem (h : ∀ e ∈ l, e.dev = d → x ∉ e.range) : replay m l d x = m d x := by
  induction l generalizing m with
  | nil => rfl
  | cons e l ih =>
    rw [replay_cons, ih fun e' he' => h e' (List.mem_cons_of_mem _ he'),
      apply_of_not_mem (h e List.mem_cons_self)]

/-- A replay carries agreement over: it reads the media only where it
does not write. -/
theorem replay_congr (h : m d x = m' d x) : replay m l d x = replay m' l d x := by
  induction l generalizing m m' with
  | nil => exact h
  | cons e l ih =>
    refine ih ?_
    by_cases hd : d = e.dev
    · subst hd
      simp only [apply, Function.update_self]
      exact Store.write_congr h
    · simp only [apply, Function.update_of_ne hd]
      exact h

/-! ## Journals that stay inside a region -/

/-- Every extent is on the medium `d`, inside the addresses `s`. -/
def Within (d : ι) (s : Set ℕ) (l : List (Extent ι α)) : Prop :=
  ∀ e ∈ l, e.dev = d ∧ e.range ⊆ s

omit [DecidableEq ι] in
theorem Within.initial (h : Within d s l) (hp : p <+: l) : Within d s p :=
  fun e he => h e (hp.subset he)

omit [DecidableEq ι] in
theorem Within.append (h : Within d s l) (h' : Within d s l') : Within d s (l ++ l') :=
  fun e he => (List.mem_append.1 he).elim (h e) (h' e)

omit [DecidableEq ι] in
theorem Within.mono {t : Set ℕ} (h : Within d s l) (hst : s ⊆ t) : Within d t l :=
  fun e he => ⟨(h e he).1, (h e he).2.trans hst⟩

/-- Outside its region a journal changes nothing. -/
theorem Within.replay_eq {d' : ι} (h : Within d s l) (hx : d' = d → x ∉ s) :
    replay m l d' x = m d' x :=
  replay_of_not_mem fun e he hed hmem =>
    hx (hed.symm.trans (h e he).1) ((h e he).2 hmem)

/-- A region disjoint from the journal's own keeps its content. -/
theorem Within.eqOn {t : Set ℕ} (h : Within d s l) (hst : Disjoint s t) :
    Set.EqOn (replay m l d) (m d) t :=
  fun _ hx => h.replay_eq fun _ hs => Set.disjoint_left.1 hst hs hx

/-! ## Prefixes of two journals run in order -/

omit [DecidableEq ι] in
/-- A prefix of two journals has not left the first, or holds all of
it. -/
theorem prefix_append_cases (h : p <+: l ++ l') :
    p <+: l ∨ ∃ q, p = l ++ q ∧ q <+: l' := by
  rcases Nat.le_total p.length l.length with hle | hle
  · exact Or.inl (List.prefix_of_prefix_length_le h (List.prefix_append l l') hle)
  · obtain ⟨q, rfl⟩ := List.prefix_of_prefix_length_le (List.prefix_append l l') h hle
    exact Or.inr ⟨q, rfl, (List.prefix_append_right_inj l).1 h⟩

/-- **Two copies written in turn survive a cut anywhere.** The second
copy is untouched until the first is complete, and the first is not
touched again afterwards. -/
theorem two_copies {s₀ s₁ : Set ℕ} (hdisj : Disjoint s₀ s₁) (h₀ : Within d s₀ l)
    (h₁ : Within d s₁ l') (hp : p <+: l ++ l') :
    Set.EqOn (replay m p d) (m d) s₁ ∨ Set.EqOn (replay m p d) (replay m l d) s₀ := by
  rcases prefix_append_cases hp with hp | ⟨q, rfl, hq⟩
  · exact Or.inl ((h₀.initial hp).eqOn hdisj)
  · rw [replay_append]
    exact Or.inr ((h₁.initial hq).eqOn hdisj.symm)

/-- And when both are complete, both are: the second is laid over what
it covers whatever the first left. -/
theorem two_copies_done {s₀ s₁ : Set ℕ} (hdisj : Disjoint s₀ s₁) (h₀ : Within d s₀ l)
    (h₁ : Within d s₁ l') :
    Set.EqOn (replay m (l ++ l') d) (replay m l d) s₀ ∧
      Set.EqOn (replay m (l ++ l') d) (replay m l' d) s₁ := by
  rw [replay_append]
  exact ⟨h₁.eqOn hdisj.symm, fun x hx => replay_congr (h₀.eqOn hdisj hx)⟩

/-! ## Blocks

A medium takes its writes block by block: a transfer of `count` blocks
is that many extents, and a transfer cut short is a prefix of them. -/

variable {bsz start count c c' : ℕ} {buf : Store α}

/-- The writes of `count` blocks of `bsz` values at block `start`, taken
from the buffer in order. -/
def blocks (d : ι) (bsz start count : ℕ) (buf : Store α) : List (Extent ι α) :=
  (List.range count).map fun i => ⟨d, (start + i) * bsz, Store.read buf (i * bsz) bsz⟩

omit [DecidableEq ι] in
@[simp] theorem blocks_zero : blocks d bsz start 0 buf = [] := rfl

omit [DecidableEq ι] in
theorem blocks_add : blocks d bsz start (c + c') buf =
    blocks d bsz start c buf ++ blocks d bsz (start + c) c' fun i => buf (c * bsz + i) := by
  rw [blocks, List.range_add, List.map_append, List.map_map]
  congr 1
  refine List.map_congr_left ?_
  intro i _
  simp only [Function.comp, Nat.add_assoc, Nat.add_mul, Extent.mk.injEq, true_and]
  exact Store.read_congr fun j _ => by rw [Nat.add_assoc]

omit [DecidableEq ι] in
/-- Fewer blocks of a transfer are a prefix of it. -/
theorem blocks_prefix (h : c ≤ count) :
    blocks d bsz start c buf <+: blocks d bsz start count buf := by
  obtain ⟨k, rfl⟩ := Nat.exists_eq_add_of_le h
  rw [blocks_add]
  exact List.prefix_append _ _

omit [DecidableEq ι] in
/-- The blocks lie where the transfer says. -/
theorem within_blocks : Within d (Set.Ico (start * bsz) ((start + count) * bsz))
    (blocks d bsz start count buf) := by
  intro e he
  obtain ⟨i, hi, rfl⟩ := List.mem_map.1 he
  have hi := List.mem_range.1 hi
  refine ⟨rfl, ?_⟩
  intro x hx
  simp only [Extent.range, Store.length_read, Set.mem_Ico] at hx
  have h1 : start * bsz ≤ (start + i) * bsz := Nat.mul_le_mul_right _ (by omega)
  have h2 : (start + i + 1) * bsz ≤ (start + count) * bsz := Nat.mul_le_mul_right _ (by omega)
  rw [Nat.succ_mul] at h2
  exact ⟨by omega, by omega⟩

/-- **A whole transfer is one write** of the buffer's run. -/
theorem replay_blocks : replay m (blocks d bsz start count buf) d =
    Store.write (m d) (start * bsz) (Store.read buf 0 (count * bsz)) := by
  induction count with
  | zero => simp
  | succ n ih =>
    rw [blocks_add, replay_append, Nat.succ_mul, Store.read_add, Store.write_append, ← ih]
    have hr : Store.read (fun i => buf (n * bsz + i)) 0 bsz = Store.read buf (0 + n * bsz) bsz :=
      Store.read_congr fun i _ => by simp
    simp [blocks, apply, Nat.add_mul, hr]

/-- And no write to any other medium. -/
theorem replay_blocks_eq_update : replay m (blocks d bsz start count buf) =
    Function.update m d (Store.write (m d) (start * bsz) (Store.read buf 0 (count * bsz))) := by
  funext d'
  by_cases hd : d' = d
  · rw [hd, Function.update_self, replay_blocks]
  · rw [Function.update_of_ne hd]
    exact funext fun x => within_blocks.replay_eq fun h => absurd h hd

/-- Every address under a transfer takes the buffer's value. -/
theorem replay_blocks_apply {i : ℕ} (h : i < count * bsz) :
    replay m (blocks d bsz start count buf) d (start * bsz + i) = buf i := by
  rw [replay_blocks, Store.write_add (by simpa using h), Store.getElem_read, Nat.zero_add]

end Journal

end ObcSdk
