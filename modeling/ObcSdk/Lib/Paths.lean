import ObcSdk.Lib.Words
/-!
# Paths

A path is read by its components: the words between its separators,
without those that are the dot, which leads nowhere. What is joined
behind a separator adds its own components, and what is cut off at the
end of a path adds none.
-/

namespace ObcSdk

variable {α : Type*} [DecidableEq α]

/-- The components of a path. -/
def components (sep dot : α) (path : List α) : List (List α) :=
  (words sep path).filter (· ≠ [dot])

/-- What stands behind a path's last separator. -/
def lastName (sep : α) (path : List α) : List α := (path.reverse.takeWhile (· ≠ sep)).reverse

variable {sep dot : α} {a b c : List α}

@[simp] theorem components_nil : components sep dot [] = [] := rfl

/-- **Joining** two paths puts their components together. -/
theorem components_append_cons :
    components sep dot (a ++ sep :: b) = components sep dot a ++ components sep dot b := by
  rw [components, words_append_cons, List.filter_append]
  rfl

/-- Without separators there is one component, or none. -/
theorem components_of_not_mem (h : sep ∉ a) :
    components sep dot a = if a = [] ∨ a = [dot] then [] else [a] := by
  by_cases hnil : a = []
  · subst hnil
    rfl
  · rw [components, words_of_not_mem h hnil]
    by_cases hdot : a = [dot]
    · simp [hdot]
    · simp [hnil, hdot]

variable (dot) in
/-- A path is what precedes its last name, and that. -/
theorem components_eq_lastName (hnil : lastName sep a ≠ []) (hdot : lastName sep a ≠ [dot]) :
    ∃ pre, components sep dot a = components sep dot pre ++ [lastName sep a] := by
  have hsep : sep ∉ lastName sep a := by
    intro hmem
    simpa using List.mem_takeWhile_imp (List.mem_reverse.1 hmem)
  have hself : components sep dot (lastName sep a) = [lastName sep a] := by
    rw [components_of_not_mem hsep, if_neg (not_or.2 ⟨hnil, hdot⟩)]
  have hsplit : a = (a.reverse.dropWhile (· ≠ sep)).reverse ++ lastName sep a := by
    rw [lastName, ← List.reverse_append, List.takeWhile_append_dropWhile, List.reverse_reverse]
  -- what precedes the last name is nothing, or ends in the separator
  cases hpre : a.reverse.dropWhile (· ≠ sep) with
  | nil =>
    rw [hpre, List.reverse_nil, List.nil_append] at hsplit
    exact ⟨[], by rw [← hsplit] at hself ⊢; exact hself⟩
  | cons d ds =>
    have hd : d = sep := by
      have hne : a.reverse.dropWhile (· ≠ sep) ≠ [] := by
        rw [hpre]
        exact List.cons_ne_nil d ds
      have hhead := List.head_dropWhile_not (· ≠ sep) hne
      simp only [hpre, List.head_cons] at hhead
      simpa using hhead
    subst hd
    refine ⟨ds.reverse, ?_⟩
    conv_lhs => rw [hsplit, hpre]
    rw [List.reverse_cons, List.append_assoc, List.singleton_append, components_append_cons, hself]

/-- **Cutting** a path off adds no component. -/
theorem length_components_le :
    (components sep dot a).length ≤ (components sep dot (a ++ b)).length := by
  induction h : a.length using Nat.strong_induction_on generalizing a with
  | _ n ih =>
    by_cases hsep : sep ∈ a
    · obtain ⟨pre, post, rfl⟩ := List.append_of_mem hsep
      have hpost := ih post.length (by simp at h; omega) rfl (a := post)
      rw [List.append_assoc, List.cons_append, components_append_cons, components_append_cons,
        List.length_append, List.length_append]
      omega
    rw [components_of_not_mem hsep]
    split
    · exact Nat.zero_le _
    rename_i hone
    -- the one component goes on to the next separator
    have hgrown : ∀ rest, sep ∉ rest → (components sep dot (a ++ rest)).length = 1 := by
      intro rest hrest
      rw [components_of_not_mem (by simp [hsep, hrest]), if_neg, List.length_singleton]
      rintro (hnil | hdot)
      · exact hone (Or.inl (List.append_eq_nil_iff.1 hnil).1)
      · rcases List.append_eq_singleton_iff.1 hdot with ⟨h1, -⟩ | ⟨h1, -⟩
        · exact hone (Or.inl h1)
        · exact hone (Or.inr h1)
    by_cases hb : sep ∈ b
    · obtain ⟨pre, post, hb, hpre⟩ := List.eq_append_cons_of_mem hb
      rw [hb, ← List.append_assoc, components_append_cons, List.length_append, hgrown pre hpre]
      exact Nat.le_add_right _ _
    · rw [hgrown b hb, List.length_singleton]

end ObcSdk
