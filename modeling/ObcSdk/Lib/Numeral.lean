import Mathlib.Data.Nat.Basic
/-!
# Numerals

Reading a numeral off the front of a text, digits up to base sixteen.
The reader is greedy, and takes back what `Nat.toDigits` writes as long
as no further digit follows.
-/

namespace ObcSdk

namespace Numeral

/-- The value of a digit. -/
def digitVal (c : Char) : Option ℕ :=
  if 48 ≤ c.toNat ∧ c.toNat ≤ 57 then some (c.toNat - 48)
  else if 97 ≤ c.toNat ∧ c.toNat ≤ 102 then some (c.toNat - 87)
  else none

/-- Whether a character is a digit in base `b`. -/
def IsDigit (b : ℕ) (c : Char) : Prop := ∃ v, digitVal c = some v ∧ v < b

/-- The number the digits in front come to, behind those already read,
and the text after them. -/
def scan (b : ℕ) : ℕ → List Char → ℕ × List Char
  | acc, [] => (acc, [])
  | acc, c :: cs =>
    match digitVal c with
    | none => (acc, c :: cs)
    | some v => if v < b then scan b (acc * b + v) cs else (acc, c :: cs)

variable {b n acc v : ℕ} {c : Char} {cs rest : List Char}

theorem digitVal_digitChar (hv : v < 16) : digitVal v.digitChar = some v := by
  have : ∀ v : Fin 16, digitVal v.val.digitChar = some v.val := by decide
  exact this ⟨v, hv⟩

theorem scan_digitChar (hb : b ≤ 16) (hv : v < b) :
    scan b acc (v.digitChar :: cs) = scan b (acc * b + v) cs := by
  rw [scan, digitVal_digitChar (Nat.lt_of_lt_of_le hv hb)]
  simp [hv]

/-- The reader stops at what is no digit. -/
theorem scan_of_not_digit (h : ∀ c ∈ rest.head?, ¬ IsDigit b c) :
    scan b acc rest = (acc, rest) := by
  cases rest with
  | nil => rfl
  | cons c cs =>
    have hc := h c rfl
    unfold scan
    split
    · rfl
    · rename_i v hv
      rw [if_neg fun hlt => hc ⟨v, hv, hlt⟩]

/-- The reader takes a numeral for the digits it was written with. -/
theorem scan_toDigits (hb : 1 < b) (hb' : b ≤ 16) :
    scan b 0 (Nat.toDigits b n ++ rest) = scan b n rest := by
  induction n using Nat.strong_induction_on generalizing rest with
  | _ n ih =>
    rw [Nat.toDigits_eq_if hb]
    split
    · rename_i hlt
      rw [List.singleton_append, scan_digitChar hb' hlt, Nat.zero_mul, Nat.zero_add]
    · rename_i hge
      have hlt : n / b < n := Nat.div_lt_self (by omega) hb
      rw [List.append_assoc, ih _ hlt, List.singleton_append,
        scan_digitChar hb' (Nat.mod_lt _ (by omega)), Nat.mul_comm, Nat.div_add_mod]

/-- **Round trip.** -/
theorem scan_toDigits_of_not_digit (hb : 1 < b) (hb' : b ≤ 16)
    (h : ∀ c ∈ rest.head?, ¬ IsDigit b c) :
    scan b 0 (Nat.toDigits b n ++ rest) = (n, rest) := by
  rw [scan_toDigits hb hb', scan_of_not_digit h]

theorem exists_digitChar_of_mem_toDigits (hb : 1 < b) (h : c ∈ Nat.toDigits b n) :
    ∃ v, v < b ∧ c = v.digitChar := by
  induction n using Nat.strong_induction_on with
  | _ n ih =>
    rw [Nat.toDigits_eq_if hb] at h
    split at h
    · rename_i hlt
      exact ⟨n, hlt, List.mem_singleton.1 h⟩
    · rcases List.mem_append.1 h with h | h
      · exact ih _ (Nat.div_lt_self (by omega) hb) h
      · exact ⟨n % b, Nat.mod_lt n (by omega), List.mem_singleton.1 h⟩

/-- A numeral is made of digits. -/
theorem isDigit_of_mem_toDigits (hb : 1 < b) (hb' : b ≤ 16) (h : c ∈ Nat.toDigits b n) :
    IsDigit b c := by
  obtain ⟨v, hv, rfl⟩ := exists_digitChar_of_mem_toDigits hb h
  exact ⟨v, digitVal_digitChar (Nat.lt_of_lt_of_le hv hb'), hv⟩

theorem not_isDigit (h : digitVal c = none) : ¬ IsDigit b c := by
  rintro ⟨v, hv, -⟩
  rw [h] at hv
  cases hv

end Numeral

end ObcSdk
