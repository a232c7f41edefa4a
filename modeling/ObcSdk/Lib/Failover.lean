import Mathlib.Data.List.Chain
/-!
# Failing over

A pointer names the alternative to try next. A try that fails moves it
on, one that succeeds leaves it. Where some alternative never fails and
every other moves on to it, a run has at most one failed try, and from
then on the pointer names that alternative.
-/

namespace ObcSdk

namespace Failover

/-- A try: the alternative it was of, and whether it failed. -/
structure Try (σ : Type*) where
  target : σ
  failed : Prop

variable {σ : Type*} {flip : σ → σ} {g : σ} {run : List (Try σ)} {i j : ℕ}

/-- The try after `a`. -/
structure Next (flip : σ → σ) (a b : Try σ) : Prop where
  moved : a.failed → b.target = flip a.target
  stayed : ¬ a.failed → b.target = a.target

/-- A run in which the alternative `g` never fails, and every other one
tried moves on to it. -/
structure GoodRun (flip : σ → σ) (g : σ) (run : List (Try σ)) : Prop where
  chain : run.IsChain (Next flip)
  good : ∀ a ∈ run, a.target = g → ¬ a.failed
  to_good : ∀ a ∈ run, a.target ≠ g → flip a.target = g

/-- A failed try is not of `g`, and the next one is. -/
theorem GoodRun.next (h : GoodRun flip g run) (hi : i + 1 < run.length) (hfail : run[i].failed) :
    run[i + 1].target = g := by
  have hne : run[i].target ≠ g := fun he => h.good _ (List.getElem_mem _) he hfail
  rw [(List.isChain_iff_getElem.1 h.chain i hi).moved hfail]
  exact h.to_good _ (List.getElem_mem _) hne

/-- At `g` the pointer stays. -/
theorem GoodRun.stays (h : GoodRun flip g run) (hij : i ≤ j) (hj : j < run.length)
    (hi : run[i].target = g) : run[j].target = g := by
  induction j, hij using Nat.le_induction with
  | base => exact hi
  | succ j _ ih =>
    have hlast := ih (by omega) hi
    rw [(List.isChain_iff_getElem.1 h.chain j hj).stayed (h.good _ (List.getElem_mem _) hlast)]
    exact hlast

/-- **Every try after a failed one is of `g`.** -/
theorem GoodRun.target_of_failed (h : GoodRun flip g run) (hij : i < j) (hj : j < run.length)
    (hfail : run[i].failed) : run[j].target = g :=
  h.stays hij hj (h.next (by omega) hfail)

/-- **A run has at most one failed try.** -/
theorem GoodRun.failed_unique (h : GoodRun flip g run) (hi : i < run.length) (hj : j < run.length)
    (hfail : run[i].failed) (hfail' : run[j].failed) : i = j := by
  rcases Nat.lt_trichotomy i j with hlt | heq | hlt
  · exact absurd hfail' (h.good _ (List.getElem_mem _) (h.target_of_failed hlt hj hfail))
  · exact heq
  · exact absurd hfail (h.good _ (List.getElem_mem _) (h.target_of_failed hlt hi hfail'))

end Failover

end ObcSdk
