import Mathlib.Data.List.Infix
import Mathlib.Data.List.Induction
/-!
# Runs of a machine

A machine that takes one input after the other: its state behind a list
of inputs is a fold. What holds at the start and is kept by every input
that meets a condition holds in all states exactly when all inputs meet
it, if no other input keeps it.
-/

namespace ObcSdk

variable {σ α : Type*} {step : σ → α → σ} {inv : σ → Prop} {ok : σ → α → Prop} {s : σ}
  {as p : List α} {a : α}

theorem foldl_concat : (p ++ [a]).foldl step s = step (p.foldl step s) a := by
  rw [List.foldl_append]
  rfl

variable (ok) in
/-- **An invariant holds in every state of a run** exactly when every
input meets the condition under which it is kept. -/
theorem foldl_invariant_iff (h0 : inv s)
    (hstep : ∀ p a, p ++ [a] <+: as → inv (p.foldl step s) →
      (inv (step (p.foldl step s) a) ↔ ok (p.foldl step s) a)) :
    (∀ p, p <+: as → inv (p.foldl step s)) ↔ ∀ p a, p ++ [a] <+: as → ok (p.foldl step s) a := by
  constructor
  · intro h p a hp
    have hlast := h (p ++ [a]) hp
    rw [foldl_concat] at hlast
    exact (hstep p a hp (h p ((List.prefix_append _ _).trans hp))).1 hlast
  · intro h p hp
    induction p using List.reverseRecOn with
    | nil => exact h0
    | append_singleton p a ih =>
      rw [foldl_concat]
      exact (hstep p a hp (ih ((List.prefix_append _ _).trans hp))).2 (h p a hp)

/-- A condition on all inputs of a run, input by input. -/
theorem forall_prefix_cons {Q : List α → α → Prop} :
    (∀ p b, p ++ [b] <+: a :: as → Q p b) ↔
      Q [] a ∧ ∀ p b, p ++ [b] <+: as → Q (a :: p) b := by
  constructor
  · intro h
    refine ⟨h [] a (by simp), ?_⟩
    intro p b hp
    exact h (a :: p) b (by simpa using hp)
  · rintro ⟨h0, h⟩ p b hp
    cases p with
    | nil =>
      obtain rfl : b = a := by simpa using hp
      exact h0
    | cons c p =>
      rw [List.cons_append, List.cons_prefix_cons] at hp
      obtain ⟨rfl, hp⟩ := hp
      exact h p b hp

/-- No run is over before it starts. -/
theorem forall_prefix_nil {Q : List α → α → Prop} : ∀ p b, p ++ [b] <+: [] → Q p b := by
  intro p b hp
  simp at hp

end ObcSdk
