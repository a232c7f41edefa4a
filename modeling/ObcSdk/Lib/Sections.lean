import Mathlib.Data.List.Basic
/-!
# Sections

A file of headers and settings, line by line, is the settings in front of
the first header and the sections, each a header with the settings up to
the next. What is read line by line is then read section by section. Of
the settings of a key the last one counts.
-/

namespace ObcSdk

/-- A line: a section's header, or a setting. -/
inductive SectionLine (N E : Type*) where
  | header (name : N)
  | setting (e : E)
deriving DecidableEq

variable {N E S K V : Type*}

/-- The settings in front of the first header, and the sections. -/
def sectionsOf : List (SectionLine N E) → List E × List (N × List E)
  | [] => ([], [])
  | .header name :: lines => ([], (name, (sectionsOf lines).1) :: (sectionsOf lines).2)
  | .setting e :: lines => (e :: (sectionsOf lines).1, (sectionsOf lines).2)

/-- **Line by line is section by section.** -/
theorem foldl_eq_sectionsOf (step : S → SectionLine N E → S) (lines : List (SectionLine N E))
    (s : S) :
    lines.foldl step s =
      (sectionsOf lines).2.foldl
        (fun s sec => sec.2.foldl (fun s e => step s (.setting e)) (step s (.header sec.1)))
        ((sectionsOf lines).1.foldl (fun s e => step s (.setting e)) s) := by
  induction lines generalizing s with
  | nil => rfl
  | cons line lines ih =>
    cases line with
    | header name => rw [List.foldl_cons, ih]; rfl
    | setting e => rw [List.foldl_cons, ih]; rfl

/-- A condition on every section with those around it, section by
section. -/
theorem forall_append_cons {P : List S → S → List S → Prop} {x : S} {xs : List S} :
    (∀ before y after, x :: xs = before ++ y :: after → P before y after) ↔
      P [] x xs ∧ ∀ before y after, xs = before ++ y :: after → P (x :: before) y after := by
  constructor
  · intro h
    refine ⟨h [] x xs rfl, ?_⟩
    rintro before y after rfl
    exact h (x :: before) y after rfl
  · rintro ⟨h0, h⟩ before y after heq
    cases before with
    | nil =>
      obtain ⟨rfl, rfl⟩ := List.cons_eq_cons.1 heq
      exact h0
    | cons b before =>
      obtain ⟨rfl, htail⟩ := List.cons_eq_cons.1 heq
      exact h before y after htail

theorem forall_append_nil {P : List S → S → List S → Prop} :
    ∀ before y after, [] = before ++ y :: after → P before y after := by
  intro before y after heq
  cases List.append_ne_nil_of_right_ne_nil before (List.cons_ne_nil y after) heq.symm

variable [DecidableEq K] {key : K} {es es' : List (K × V)}

/-- The value of the last setting of a key. -/
def lastValue (key : K) (es : List (K × V)) : Option V :=
  ((es.filter (·.1 = key)).map (·.2)).getLast?

/-- Later settings come before earlier ones. -/
theorem lastValue_append :
    lastValue key (es ++ es') = (lastValue key es').or (lastValue key es) := by
  rw [lastValue, List.filter_append, List.map_append, List.getLast?_append]
  rfl

theorem lastValue_concat {k : K} {v : V} :
    lastValue key (es ++ [(k, v)]) = if k = key then some v else lastValue key es := by
  rw [lastValue_append]
  by_cases hk : k = key
  · rw [if_pos hk, lastValue, List.filter_cons_of_pos (by simpa using hk)]
    rfl
  · rw [if_neg hk, lastValue, List.filter_cons_of_neg (by simpa using hk)]
    rfl

end ObcSdk
