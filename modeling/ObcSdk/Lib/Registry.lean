import Mathlib.Logic.Function.Basic
import Mathlib.Tactic.Common
/-!
# Registries kept up by changes

Bearers have names, several perhaps the same one, and a registry enters
bearers under names so that a name finds its bearer. It is kept up by
the changes alone: a bearer that comes or is called anew is entered
under its name, one that goes has its entries struck. An entry is right
when its bearer has that name now, and a name that only one bearer has
is to be found. What keeps a registry so through a change is a condition
on it before the change.
-/

namespace ObcSdk

/-- What is entered under each name, and what each bearer is called;
`none` for one that is gone. -/
structure Registry (Name Bearer : Type*) where
  entry : Name → Option Bearer
  name : Bearer → Option Name

namespace Registry

variable {Name Bearer : Type*}

/-- Entries are right, and the names that are admitted and not shared
are found. -/
structure Faithful (admits : Name → Prop) (R : Registry Name Bearer) : Prop where
  right : ∀ n b, R.entry n = some b → R.name b = some n
  found : ∀ n b, R.name b = some n → admits n → (∀ c, R.name c = some n → c = b) →
    R.entry n = some b

/-- The bearer `b` may leave its name and be called `a`: where one
bearer is left with the name, it is the one entered. -/
def MayLeave (admits : Name → Prop) (R : Registry Name Bearer) (b : Bearer) (a : Option Name) :
    Prop :=
  ∀ n c, c ≠ b → R.name b = some n → R.name c = some n → a ≠ some n → admits n →
    (∀ d, R.name d = some n → d = b ∨ d = c) → R.entry n = some c

/-- No bearer and no entry. -/
def empty : Registry Name Bearer := ⟨fun _ => none, fun _ => none⟩

theorem faithful_empty {admits : Name → Prop} :
    (empty : Registry Name Bearer).Faithful admits where
  right _ _ h := nomatch h
  found _ _ h := nomatch h

variable [DecidableEq Bearer] {R : Registry Name Bearer} {admits : Name → Prop} {b c : Bearer}
  {m n : Name} {a v : Option Name}

/-- **Leaving a name**, as the names behind it tell: those of the others
that are not shared are still found. -/
theorem Faithful.mayLeave_iff (h : R.Faithful admits) :
    R.MayLeave admits b a ↔ ∀ m c, c ≠ b → R.name c = some m → admits m →
      (∀ d, Function.update R.name b a d = some m → d = c) → R.entry m = some c := by
  constructor
  · intro hleave m c hcb hc hm hsole
    have ha : a ≠ some m := by
      intro ha
      exact hcb (hsole b (by rw [Function.update_self, ha])).symm
    have hothers : ∀ d, d ≠ b → R.name d = some m → d = c := by
      intro d hdb hd
      exact hsole d (by rw [Function.update_of_ne hdb, hd])
    by_cases hb : R.name b = some m
    · refine hleave m c hcb hb hc ha hm ?_
      intro d hd
      by_cases hdb : d = b
      · exact Or.inl hdb
      · exact Or.inr (hothers d hdb hd)
    -- a name that `b` did not have was not shared before either
    · refine h.found m c hc hm ?_
      intro d hd
      refine hothers d ?_ hd
      rintro rfl
      exact hb hd
  · intro hfound m c hcb hb hc ha hm hholders
    refine hfound m c hcb hc hm ?_
    intro d hd
    by_cases hdb : d = b
    · rw [hdb, Function.update_self] at hd
      exact absurd hd ha
    · rw [Function.update_of_ne hdb] at hd
      exact (hholders d hd).resolve_left hdb

/-! ## A bearer that goes -/

/-- `b` is gone, and its entries are struck. -/
def strike (R : Registry Name Bearer) (b : Bearer) : Registry Name Bearer where
  entry m := if R.entry m = some b then none else R.entry m
  name := Function.update R.name b none

theorem strike_entry : (R.strike b).entry m = if R.entry m = some b then none else R.entry m := rfl

@[simp] theorem strike_name_self : (R.strike b).name b = none := Function.update_self ..

theorem strike_name_of_ne (h : c ≠ b) : (R.strike b).name c = R.name c :=
  Function.update_of_ne h ..

theorem strike_entry_eq_some : (R.strike b).entry m = some c ↔ R.entry m = some c ∧ c ≠ b := by
  rw [strike_entry]
  split
  · rename_i h
    rw [h]
    simp [eq_comm]
  · rename_i h
    constructor
    · intro hc
      refine ⟨hc, ?_⟩
      rintro rfl
      exact h hc
    · exact And.left

/-- **Striking** keeps a registry faithful exactly when the bearer may
leave its name. -/
theorem Faithful.strike_iff (h : R.Faithful admits) :
    (R.strike b).Faithful admits ↔ R.MayLeave admits b none := by
  rw [h.mayLeave_iff]
  constructor
  · intro h' m c hcb hc hm hsole
    exact (strike_entry_eq_some.1 (h'.found m c (by rwa [strike_name_of_ne hcb]) hm hsole)).1
  · intro hfound
    constructor
    · intro m c hc
      obtain ⟨hc, hcb⟩ := strike_entry_eq_some.1 hc
      rw [strike_name_of_ne hcb]
      exact h.right m c hc
    · intro m c hc hm hsole
      have hcb : c ≠ b := by
        rintro rfl
        rw [strike_name_self] at hc
        cases hc
      rw [strike_name_of_ne hcb] at hc
      exact strike_entry_eq_some.2 ⟨hfound m c hcb hc hm hsole, hcb⟩

/-! ## A bearer that comes, or is called anew -/

variable [DecidableEq Name]

/-- `b` is called `n` now, and entered under `v` if that is a name. -/
def call (R : Registry Name Bearer) (b : Bearer) (n : Name) (v : Option Name) :
    Registry Name Bearer where
  entry m := if v = some m then some b else R.entry m
  name := Function.update R.name b (some n)

theorem call_entry : (R.call b n v).entry m = if v = some m then some b else R.entry m := rfl

@[simp] theorem call_name_self : (R.call b n v).name b = some n := Function.update_self ..

theorem call_name_of_ne (h : c ≠ b) : (R.call b n v).name c = R.name c :=
  Function.update_of_ne h ..

/-- **Calling** keeps it faithful exactly when what is entered is the
name, no other name finds the bearer, and it may leave its old one. -/
theorem Faithful.call_iff (h : R.Faithful admits) (hn : admits n → v = some n) :
    (R.call b n v).Faithful admits ↔ (∀ m, v = some m → m = n) ∧
      (∀ m, R.entry m = some b → m = n) ∧ R.MayLeave admits b (some n) := by
  rw [h.mayLeave_iff]
  constructor
  · intro h'
    have hnamed : ∀ m, (R.call b n v).entry m = some b → m = n := by
      intro m hm
      have hname := h'.right m b hm
      rw [call_name_self] at hname
      exact (Option.some.inj hname).symm
    refine ⟨?_, ?_, ?_⟩
    · intro m hm
      exact hnamed m (by rw [call_entry, if_pos hm])
    · intro m hm
      exact hnamed m (by rw [call_entry, hm, ite_self])
    · intro m c hcb hc hm hsole
      have hentry := h'.found m c (by rwa [call_name_of_ne hcb]) hm hsole
      rw [call_entry] at hentry
      split at hentry
      · exact absurd (Option.some.inj hentry).symm hcb
      · exact hentry
  -- the other way: an entry is of this call or an old one, and so is a name
  · rintro ⟨hv, hold, hfound⟩
    constructor
    · intro m c hc
      rw [call_entry] at hc
      split at hc
      · obtain rfl := Option.some.inj hc
        rw [call_name_self, hv m ‹_›]
      · by_cases hcb : c = b
        · rw [hcb] at hc ⊢
          rw [call_name_self, hold m hc]
        · rw [call_name_of_ne hcb]
          exact h.right m c hc
    · intro m c hc hm hsole
      by_cases hcb : c = b
      · rw [hcb, call_name_self] at hc
        obtain rfl := Option.some.inj hc
        rw [call_entry, if_pos (hn hm), hcb]
      · have hmn : v ≠ some m := by
          intro hvm
          have hnm := hv m hvm
          refine hcb (hsole b ?_).symm
          rw [call_name_self, hnm]
        rw [call_name_of_ne hcb] at hc
        rw [call_entry, if_neg hmn]
        exact hfound m c hcb hc hm hsole

end Registry

end ObcSdk
