import ObcSdk.Kernel.Obcbase
/-!
# What the kernel module reads of a command line

`obc_get_bootarg` against what it is for: the first word that is a field
of the key decides, and its value goes into the caller's array, or an
error comes back and the array is as it was.
-/

namespace ObcSdk

namespace Kernel

section Bootarg

variable {key cursor bootargs : List Char} {valueSize n : ℕ} {value : CBuf}

/-- The field of a key, by the words of the line: the text behind the
first equals sign of the first word that has the key before it. -/
def bootargValue (bootargs key : List Char) : Option (List Char) :=
  ((words ' ' bootargs).find? fun t => '=' ∈ t ∧ t.takeWhile (· ≠ '=') = key).map
    fun t => (t.dropWhile (· ≠ '=')).drop 1

/-- What `obc_get_bootarg` is to do with it. -/
def bootargSpec (bootargs key : List Char) (value : CBuf) (valueSize : ℕ) : ℤ × CBuf :=
  match bootargValue bootargs key with
  | none => (eNoent, value)
  | some v =>
    if v = [] ∨ valueSize ≤ v.length then (eInval, value)
    else (0, value.store 0 (v ++ ['\x00']))

/-! ## The words of the line -/

theorem fieldOf_eq {t : List Char} : fieldOf '=' key t =
    if '=' ∈ t ∧ t.takeWhile (· ≠ '=') = key then some ((t.dropWhile (· ≠ '=')).drop 1)
    else none := by
  rw [fieldOf]
  split
  · rename_i h
    have hdrop : t.dropWhile (· ≠ '=') = t.drop key.length := by
      have hsplit : t.takeWhile (· ≠ '=') ++ t.dropWhile (· ≠ '=') = t :=
        List.takeWhile_append_dropWhile
      have hkey : (key ++ t.dropWhile (· ≠ '=')).drop key.length = t.dropWhile (· ≠ '=') :=
        List.drop_left' rfl
      rw [h.2] at hsplit
      rw [← hkey, hsplit]
    rw [hdrop, List.drop_drop]
  · rfl

/-- The first field is the first word that is one. -/
theorem head?_fields : (fields ' ' '=' key bootargs).head? = bootargValue bootargs key := by
  rw [fields, bootargValue]
  induction words ' ' bootargs with
  | nil => rfl
  | cons t ts ih =>
    by_cases h : '=' ∈ t ∧ t.takeWhile (· ≠ '=') = key
    · rw [List.filterMap_cons, fieldOf_eq, if_pos h, List.find?_cons_of_pos (by simpa using h)]
      rfl
    · rw [List.filterMap_cons, fieldOf_eq, if_neg h, List.find?_cons_of_neg (by simpa using h)]
      exact ih

/-! ## The array -/

/-- What comes into the array of what the scan finds. -/
def putValue (value : CBuf) : Except ℤ (List Char) → ℤ × CBuf
  | .ok v => (0, value.store 0 (v ++ ['\x00']))
  | .error e => (e, value)

/-- **The array apart**, the loop is the scan. -/
theorem obcGetBootargIntoLoop_eq (hcap : valueSize ≤ value.chars.length) :
    obcGetBootargIntoLoop key valueSize n cursor value =
      putValue value (obcGetBootargLoop key valueSize n cursor) := by
  induction n generalizing cursor with
  | zero => rfl
  | succ n ih =>
    unfold obcGetBootargIntoLoop obcGetBootargLoop
    split
    · rfl
    simp only
    set start := cursor.dropWhile (· = ' ')
    split
    · rfl
    set token := start.takeWhile (· ≠ ' ')
    -- the length the source computes is that of the text behind the equals sign
    have hlen : (token.drop (token.idxOf '=' + 1)).length = token.length - token.idxOf '=' - 1 := by
      rw [List.length_drop, Nat.sub_sub]
    split
    · rename_i hfield
      have htest : token.length - token.idxOf '=' - 1 = 0 ∨
          valueSize ≤ token.length - token.idxOf '=' - 1 ↔
          token.drop (token.idxOf '=' + 1) = [] ∨
            valueSize ≤ (token.drop (token.idxOf '=' + 1)).length := by
        rw [hlen, ← List.length_eq_zero_iff, hlen]
      by_cases hbad : token.drop (token.idxOf '=' + 1) = [] ∨
          valueSize ≤ (token.drop (token.idxOf '=' + 1)).length
      · rw [if_pos hbad, if_pos (htest.2 hbad)]
        rfl
      · rw [if_neg hbad, if_neg fun h => hbad (htest.1 h), List.take_of_length_le hlen.le, ← hlen]
        rw [not_or, Nat.not_le] at hbad
        rw [CBuf.store_store (by simp only [List.length_cons, List.length_nil]; omega)]
        rfl
    · exact ih

/-- A turn takes a character at least, so more turns than those change
nothing. -/
theorem obcGetBootargIntoLoop_stable (hcap : valueSize ≤ value.chars.length)
    (hn : bootargs.length ≤ n) : obcGetBootargIntoLoop key valueSize n bootargs value =
      obcGetBootargInto bootargs key value valueSize := by
  rw [obcGetBootargInto, obcGetBootargIntoLoop_eq hcap, obcGetBootargIntoLoop_eq hcap,
    obcGetBootargLoop_eq hn, obcGetBootargLoop_eq le_rfl]

end Bootarg

end Kernel

end ObcSdk
