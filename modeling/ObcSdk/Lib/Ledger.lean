import Mathlib.Data.Finset.Insert
import Mathlib.Data.Finset.Erase
import Mathlib.Data.List.Infix
import Mathlib.Tactic.Common
/-!
# Ledgers of handles

What a program took and gave back, in order, as one list. The handles it
holds are those it took and has not given back since. A handle is given
back at most once if it is held each time it is, and a handle may be
handed out again once it is back; between the two, what is left held at
the end is exactly what was taken once more than it was given back.
-/

namespace ObcSdk

/-- An entry of a ledger. -/
inductive Entry (α : Type*) where
  | took (a : α)
  | gave (a : α)
deriving DecidableEq

namespace Ledger

variable {α : Type*} [DecidableEq α] {l p : List (Entry α)} {a b : α}

/-- The handles held behind an entry. -/
def step (h : Finset α) : Entry α → Finset α
  | .took a => insert a h
  | .gave a => h.erase a

/-- The handles held at the end. -/
def held (l : List (Entry α)) : Finset α := l.foldl step ∅

/-- Every handle given back was held: none is given back twice. -/
def GivenOnce (l : List (Entry α)) : Prop := ∀ p a, p ++ [.gave a] <+: l → a ∈ held p

/-- Every handle taken was not held. -/
def Fresh (l : List (Entry α)) : Prop := ∀ p a, p ++ [.took a] <+: l → a ∉ held p

@[simp] theorem held_nil : held ([] : List (Entry α)) = ∅ := rfl

@[simp] theorem held_took : held (l ++ [.took a]) = insert a (held l) := by
  rw [held, List.foldl_append]
  rfl

@[simp] theorem held_gave : held (l ++ [.gave a]) = (held l).erase a := by
  rw [held, List.foldl_append]
  rfl

theorem givenOnce_nil : GivenOnce ([] : List (Entry α)) := by
  intro p a h
  have := h.length_le
  simp at this

theorem fresh_nil : Fresh ([] : List (Entry α)) := by
  intro p a h
  have := h.length_le
  simp at this

omit [DecidableEq α] in
/-- The entries of a longer ledger are those of the shorter one and the
last. -/
theorem prefix_concat {x y : Entry α} :
    p ++ [x] <+: l ++ [y] ↔ p ++ [x] <+: l ∨ p = l ∧ x = y := by
  rw [List.prefix_concat_iff, or_comm]
  refine or_congr_right ?_
  constructor
  · intro h
    obtain ⟨hp, hx⟩ := List.append_inj' h rfl
    exact ⟨hp, (List.cons.inj hx).1⟩
  · rintro ⟨rfl, rfl⟩
    rfl

omit [DecidableEq α] in
/-- **An entry more of one kind** is one more to look at. -/
theorem forall_prefix_concat {kind : α → Entry α} (hkind : Function.Injective kind)
    {P : List (Entry α) → α → Prop} : (∀ p a, p ++ [kind a] <+: l ++ [kind b] → P p a) ↔
      (∀ p a, p ++ [kind a] <+: l → P p a) ∧ P l b := by
  simp only [prefix_concat, hkind.eq_iff]
  constructor
  · intro h
    exact ⟨fun p a hp => h p a (Or.inl hp), h l b (Or.inr ⟨rfl, rfl⟩)⟩
  · rintro ⟨h, hb⟩ p a (hp | ⟨rfl, rfl⟩)
    · exact h p a hp
    · exact hb

@[simp] theorem givenOnce_took : GivenOnce (l ++ [.took b]) ↔ GivenOnce l := by
  simp [GivenOnce, prefix_concat]

@[simp] theorem givenOnce_gave : GivenOnce (l ++ [.gave b]) ↔ GivenOnce l ∧ b ∈ held l :=
  forall_prefix_concat fun _ _ h => Entry.gave.inj h

@[simp] theorem fresh_gave : Fresh (l ++ [.gave b]) ↔ Fresh l := by
  simp [Fresh, prefix_concat]

@[simp] theorem fresh_took : Fresh (l ++ [.took b]) ↔ Fresh l ∧ b ∉ held l :=
  forall_prefix_concat fun _ _ h => Entry.took.inj h

/-- **Conservation.** What was taken is what was given back and what is
held. -/
theorem count_took (hf : Fresh l) (hg : GivenOnce l) :
    l.count (.took a) = l.count (.gave a) + if a ∈ held l then 1 else 0 := by
  induction l using List.reverseRecOn with
  | nil => simp
  | append_singleton l e ih =>
    cases e with
    | took b =>
      rw [fresh_took] at hf
      rw [givenOnce_took] at hg
      have ih := ih hf.1 hg
      by_cases hab : a = b
      · subst hab
        simp [List.count_append, ih, hf.2]
      · have hba : b ≠ a := fun h => hab h.symm
        simp [List.count_append, ih, hab, hba]
    | gave b =>
      rw [fresh_gave] at hf
      rw [givenOnce_gave] at hg
      have ih := ih hf hg.1
      by_cases hab : a = b
      · subst hab
        simp [List.count_append, ih, hg.2]
      · have hba : b ≠ a := fun h => hab h.symm
        simp [List.count_append, ih, hab, hba]

end Ledger

end ObcSdk
