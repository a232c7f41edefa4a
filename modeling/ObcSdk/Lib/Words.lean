import Mathlib.Data.List.TakeWhile
import Mathlib.Tactic.ByContra
/-!
# Words and fields

The words of a text are its pieces between separators. A word with an
equals sign is a field: the key before the first one, and the value
behind it. Texts put together with separators between them have the
words of each, whatever those are.
-/

namespace ObcSdk

variable {α : Type*} [DecidableEq α]

/-- The words of a text: the pieces that the separators leave, without
the empty ones. -/
def words (sep : α) (cs : List α) : List (List α) := (cs.splitOn sep).filter (· ≠ [])

/-- The value of a word that is a field of the key. -/
def fieldOf (eq : α) (key w : List α) : Option (List α) :=
  if eq ∈ w ∧ w.takeWhile (· ≠ eq) = key then some (w.drop (key.length + 1)) else none

/-- The values of the fields of a key, in order. -/
def fields (sep eq : α) (key cs : List α) : List (List α) :=
  (words sep cs).filterMap (fieldOf eq key)

variable {sep eq : α} {cs ds w key value : List α}

/-! ## Up to a separator -/

theorem takeWhile_ne_append (h : sep ∉ cs) :
    (cs ++ ds).takeWhile (· ≠ sep) = cs ++ ds.takeWhile (· ≠ sep) := by
  refine List.takeWhile_append_of_pos fun c hc => ?_
  simpa using fun heq : c = sep => h (heq ▸ hc)

/-- The first separator ends what is in front of it. -/
theorem takeWhile_ne_append_cons (h : sep ∉ cs) : (cs ++ sep :: ds).takeWhile (· ≠ sep) = cs := by
  rw [takeWhile_ne_append h, List.takeWhile_cons_of_neg (by simp), List.append_nil]

/-- Behind a separator more may follow. -/
theorem takeWhile_ne_append_of_mem (h : sep ∈ cs) :
    (cs ++ ds).takeWhile (· ≠ sep) = cs.takeWhile (· ≠ sep) := by
  rw [List.takeWhile_append, if_neg]
  intro hlen
  have hall := (List.takeWhile_prefix (· ≠ sep) (l := cs)).eq_of_length hlen
  rw [← hall] at h
  simpa using List.mem_takeWhile_imp h

/-! ## Words -/

@[simp] theorem words_nil : words sep [] = [] := rfl

/-- **A separator ends a word**, whatever stands on its sides. -/
theorem words_append_cons : words sep (cs ++ sep :: ds) = words sep cs ++ words sep ds := by
  rw [words, List.splitOn_append_cons_self, List.filter_append]
  rfl

theorem words_cons_self : words sep (sep :: cs) = words sep cs := by
  rw [← List.nil_append (sep :: cs), words_append_cons, words_nil, List.nil_append]

/-- A text without separators is a word. -/
theorem words_of_not_mem (h : sep ∉ cs) (hne : cs ≠ []) : words sep cs = [cs] := by
  rw [words, List.splitOn_eq_singleton h, List.filter_cons_of_pos (by simpa using hne),
    List.filter_nil]

variable (sep cs) in
/-- Separators in front do not count. -/
theorem words_dropWhile : words sep (cs.dropWhile (· = sep)) = words sep cs := by
  induction cs with
  | nil => rfl
  | cons c cs ih =>
    by_cases hc : c = sep
    · subst hc
      rw [List.dropWhile_cons_of_pos (by simp), ih, words_cons_self]
    · rw [List.dropWhile_cons_of_neg (by simpa using hc)]

/-- A text that starts with a word has it first, and the words of what
follows it. -/
theorem words_of_head (h : ∀ c ∈ cs.head?, c ≠ sep) (hne : cs ≠ []) :
    words sep cs = cs.takeWhile (· ≠ sep) :: words sep (cs.dropWhile (· ≠ sep)) := by
  have hfirst : cs.takeWhile (· ≠ sep) ≠ [] := by
    obtain ⟨c, cs, rfl⟩ := List.exists_cons_of_ne_nil hne
    rw [List.takeWhile_cons_of_pos (by simpa using h c rfl)]
    exact List.cons_ne_nil _ _
  have hsep : sep ∉ cs.takeWhile (· ≠ sep) := by
    intro hmem
    simpa using List.mem_takeWhile_imp hmem
  -- what follows the word is nothing, or starts with a separator
  cases hrest : cs.dropWhile (· ≠ sep) with
  | nil =>
    have hall : cs.takeWhile (· ≠ sep) = cs := by
      have h := List.takeWhile_append_dropWhile (p := (· ≠ sep)) (l := cs)
      rwa [hrest, List.append_nil] at h
    rw [words_nil]
    rw [hall] at hsep ⊢
    exact words_of_not_mem hsep hne
  | cons d ds =>
    have hd : d = sep := by
      by_contra hd
      have h := List.head_dropWhile_not (· ≠ sep) (w := by rw [hrest]; exact List.cons_ne_nil d ds)
      simp only [hrest, List.head_cons] at h
      simp [hd] at h
    subst hd
    have hcs : cs = cs.takeWhile (· ≠ d) ++ d :: ds := by
      rw [← hrest, List.takeWhile_append_dropWhile]
    rw [words_cons_self]
    conv_lhs => rw [hcs]
    rw [words_append_cons, words_of_not_mem hsep hfirst]
    rfl

/-! ## Fields -/

/-- A key, an equals sign and a value are a field of the key. -/
theorem fieldOf_append (h : eq ∉ key) : fieldOf eq key (key ++ eq :: value) = some value := by
  rw [fieldOf, takeWhile_ne_append_cons h, if_pos ⟨by simp, rfl⟩, ← List.drop_drop, List.drop_left]
  rfl

/-- And not of another. -/
theorem fieldOf_append_of_ne {key' : List α} (h : eq ∉ key) (hne : key ≠ key') :
    fieldOf eq key' (key ++ eq :: value) = none := by
  rw [fieldOf, takeWhile_ne_append_cons h, if_neg (fun hand => hne hand.2)]

theorem fields_append_cons :
    fields sep eq key (cs ++ sep :: ds) = fields sep eq key cs ++ fields sep eq key ds := by
  rw [fields, words_append_cons, List.filterMap_append]
  rfl

/-- **A word that is a field** of one key has no field of another. -/
theorem fields_field {key' : List α} (hkey : eq ∉ key) (hsep : sep ∉ key ++ eq :: value) :
    fields sep eq key' (key ++ eq :: value) = if key = key' then [value] else [] := by
  rw [fields, words_of_not_mem hsep (by simp), List.filterMap_cons, List.filterMap_nil]
  split
  · rename_i hnone
    rw [if_neg]
    rintro rfl
    rw [fieldOf_append hkey] at hnone
    cases hnone
  · rename_i v hsome
    by_cases hk : key = key'
    · subst hk
      rw [fieldOf_append hkey] at hsome
      rw [if_pos rfl, Option.some.inj hsome]
    · rw [fieldOf_append_of_ne hkey hk] at hsome
      cases hsome

end ObcSdk
