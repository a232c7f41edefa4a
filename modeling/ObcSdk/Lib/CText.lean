import Mathlib.Data.Int.Basic
import Mathlib.Data.List.Infix
import ObcSdk.Lib.Numeral
import ObcSdk.Lib.Words
/-!
# What the C library finds in a text

A text is what precedes a string's NUL. `strstr` and `strchr` return what
is left of it from the place they find on.
-/

namespace ObcSdk

/-- `strstr`: the text from the first occurrence on. -/
def strstr (haystack needle : List Char) : Option (List Char) :=
  if needle.isPrefixOf haystack then some haystack else
  match haystack with
  | [] => none
  | _ :: cs => strstr cs needle

/-- `strchr`: the text from the first such character on. -/
def strchr (s : List Char) (c : Char) : Option (List Char) :=
  match s with
  | [] => none
  | d :: ds => if d = c then some (d :: ds) else strchr ds c

/-- `isspace`, in the C locale. -/
def isspace (c : Char) : Bool :=
  c = ' ' || c = '\t' || c = '\n' || c = '\x0b' || c = '\x0c' || c = '\r'

/-- The number the digits in front come to, behind those already read. -/
def digitsValue (acc : ℕ) : List Char → ℕ
  | [] => acc
  | c :: cs => if '0' ≤ c ∧ c ≤ '9' then digitsValue (acc * 10 + (c.toNat - 48)) cs else acc

/-- `atoi`: `strtol` to a `long` of 64 bits, which stays in its range, and
its low 32 bits. -/
def atoi (s : List Char) : Int32 :=
  let value : ℤ := match s.dropWhile isspace with
    | '-' :: cs => -(digitsValue 0 cs : ℤ)
    | '+' :: cs => digitsValue 0 cs
    | cs => digitsValue 0 cs
  Int32.ofInt (if value < -0x8000000000000000 then -0x8000000000000000
    else if 0x7FFFFFFFFFFFFFFF < value then 0x7FFFFFFFFFFFFFFF else value)

/-- What `fgets` returns, call after call, for an array of `size`
characters: each time a line with its end, or as much as there is room
for. `line` has been read, backwards. -/
def fgetsAll (size : ℕ) (line : List Char) : List Char → List (List Char)
  | [] => if line = [] then [] else [line.reverse]
  | c :: cs =>
    if c = '\n' ∨ size ≤ line.length + 2 then (c :: line).reverse :: fgetsAll size [] cs
    else fgetsAll size (c :: line) cs

variable {pre post s needle line text : List Char} {c : Char} {size : ℕ}

theorem strchr_append (h : c ∉ pre) : strchr (pre ++ c :: post) c = some (c :: post) := by
  induction pre with
  | nil => exact if_pos rfl
  | cons d pre ih =>
    rw [List.mem_cons, not_or] at h
    rw [List.cons_append, strchr, if_neg (Ne.symm h.1), ih h.2]

theorem strchr_of_not_mem (h : c ∉ s) : strchr s c = none := by
  induction s with
  | nil => rfl
  | cons d s ih =>
    rw [List.mem_cons, not_or] at h
    rw [strchr, if_neg (Ne.symm h.1), ih h.2]

/-- **The first place.** The needle occurs behind `pre`, and not before. -/
theorem strstr_append (h : ¬ needle <:+: pre ++ needle.dropLast) :
    strstr (pre ++ (needle ++ post)) needle = some (needle ++ post) := by
  induction pre with
  | nil => rw [List.nil_append, strstr.eq_def, if_pos (by simp)]
  | cons d pre ih =>
    rw [strstr.eq_def, if_neg]
    · exact ih fun hin => h (hin.trans (List.suffix_cons d _).isInfix)
    -- a needle in front would end inside what is searched for it in `h`
    · rw [List.isPrefixOf_iff_prefix]
      intro hp
      have hlast : needle.dropLast <+: needle ++ post :=
        (List.dropLast_prefix needle).trans (List.prefix_append needle post)
      have hq : d :: pre ++ needle.dropLast <+: d :: pre ++ (needle ++ post) :=
        (List.prefix_append_right_inj _).2 hlast
      refine h (List.prefix_of_prefix_length_le hp hq ?_).isInfix
      rw [List.length_append, List.length_cons, List.length_dropLast]
      omega

theorem strstr_of_not_infix (h : ¬ needle <:+: s) : strstr s needle = none := by
  induction s with
  | nil => rw [strstr.eq_def, if_neg (fun hp => h (List.isPrefixOf_iff_prefix.1 hp).isInfix)]
  | cons d s ih =>
    rw [strstr.eq_def, if_neg (fun hp => h (List.isPrefixOf_iff_prefix.1 hp).isInfix)]
    exact ih fun hin => h (hin.trans (List.suffix_cons d _).isInfix)

/-- What occurs in a text is found. -/
theorem isSome_strstr (h : needle <:+: s) : (strstr s needle).isSome = true := by
  induction s with
  | nil =>
    obtain rfl := List.infix_nil.1 h
    rfl
  | cons d s ih =>
    rw [strstr.eq_def]
    by_cases hp : needle.isPrefixOf (d :: s) = true
    · rw [if_pos hp]
      rfl
    · rw [if_neg hp]
      rcases List.infix_cons_iff.1 h with hpre | hin
      · exact absurd (List.isPrefixOf_iff_prefix.2 hpre) hp
      · exact ih hin

/-! ## Words in quotes -/

/-- A word in quotes. -/
def quoted (w : List Char) : List Char := '"' :: (w ++ ['"'])

variable {w key gap : List Char}

theorem quoted_append : quoted w ++ post = '"' :: (w ++ '"' :: post) := by
  rw [quoted, List.cons_append, List.append_assoc, List.singleton_append]

theorem strstr_cons_of_not_prefix (h : ¬ needle <+: c :: s) :
    strstr (c :: s) needle = strstr s needle := by
  rw [strstr.eq_def, if_neg (mt List.isPrefixOf_iff_prefix.1 h)]

/-- What has no quotes is passed over. -/
theorem strstr_quoted_append (h : '"' ∉ pre) :
    strstr (pre ++ s) (quoted key) = strstr s (quoted key) := by
  induction pre with
  | nil => rfl
  | cons d pre ih =>
    rw [List.mem_cons, not_or] at h
    rw [List.cons_append, strstr_cons_of_not_prefix, ih h.2]
    intro hp
    exact h.1 (List.cons_prefix_cons.1 hp).1

/-- A quoted word is found where it starts. -/
theorem strstr_quoted_self :
    strstr (quoted key ++ post) (quoted key) = some (quoted key ++ post) := by
  rw [strstr.eq_def, if_pos (List.isPrefixOf_iff_prefix.2 (List.prefix_append _ _))]

/-- **Another word** in quotes is passed over, as long as what follows
its closing quote is no key before the next one. -/
theorem strstr_quoted_of_ne (hkey : '"' ∉ key) (hw : '"' ∉ w) (hne : w ≠ key) (hgap : '"' ∉ gap)
    (hc : c ≠ '"') (hck : c ∉ key) :
    strstr (quoted w ++ (gap ++ c :: post)) (quoted key) = strstr (c :: post) (quoted key) := by
  have hopen : ¬ quoted key <+: '"' :: (w ++ '"' :: (gap ++ c :: post)) := by
    rintro ⟨t, ht⟩
    rw [quoted_append, List.cons.injEq] at ht
    have h := congrArg (List.takeWhile (· ≠ '"')) ht.2
    rw [takeWhile_ne_append_cons hkey, takeWhile_ne_append_cons hw] at h
    exact hne h.symm
  have hclose : ¬ quoted key <+: '"' :: (gap ++ c :: post) := by
    rintro ⟨t, ht⟩
    rw [quoted_append, List.cons.injEq] at ht
    have h := congrArg (List.takeWhile (· ≠ '"')) ht.2
    rw [takeWhile_ne_append_cons hkey, takeWhile_ne_append hgap,
      List.takeWhile_cons_of_pos (by simpa using hc)] at h
    exact hck (by rw [h]; simp)
  rw [quoted_append, strstr_cons_of_not_prefix hopen, strstr_quoted_append hw,
    strstr_cons_of_not_prefix hclose, strstr_quoted_append hgap]

/-! ## Numbers -/

/-- An integer in decimal. -/
def decimal (n : ℤ) : List Char :=
  if n < 0 then '-' :: Nat.toDigits 10 n.natAbs else Nat.toDigits 10 n.natAbs

variable {acc n : ℕ} {cs rest : List Char}

open Numeral

theorem isDigit_ten_iff : IsDigit 10 c ↔ '0' ≤ c ∧ c ≤ '9' := by
  have hle : '0' ≤ c ∧ c ≤ '9' ↔ 48 ≤ c.toNat ∧ c.toNat ≤ 57 := Iff.rfl
  rw [hle, IsDigit, digitVal]
  constructor
  · rintro ⟨v, hv, hlt⟩
    split at hv
    · assumption
    · split at hv
      · cases hv
        omega
      · cases hv
  · intro h
    exact ⟨c.toNat - 48, if_pos h, by omega⟩

theorem digitsValue_eq (acc : ℕ) (cs : List Char) : digitsValue acc cs = (scan 10 acc cs).1 := by
  induction cs generalizing acc with
  | nil => rfl
  | cons c cs ih =>
    rw [digitsValue]
    by_cases hc : IsDigit 10 c
    · obtain ⟨v, hv, hlt⟩ := hc
      have hval : digitVal c = some (c.toNat - 48) := if_pos (isDigit_ten_iff.1 ⟨v, hv, hlt⟩)
      rw [if_pos (isDigit_ten_iff.1 ⟨v, hv, hlt⟩), ih, scan, hval]
      rw [hval] at hv
      rw [← Option.some.inj hv] at hlt
      simp only [if_pos hlt]
    · rw [if_neg (mt isDigit_ten_iff.2 hc), scan_of_not_digit (by simpa using hc)]

/-- The digits of a number, and nothing that goes on with them. -/
theorem digitsValue_toDigits (h : ∀ c ∈ rest.head?, ¬ IsDigit 10 c) :
    digitsValue 0 (Nat.toDigits 10 n ++ rest) = n := by
  rw [digitsValue_eq, scan_toDigits_of_not_digit (by omega) (by omega) h]

/-- A number without a sign, in the range of a `long`. -/
theorem atoi_of_digits (hs : isspace c = false) (hm : c ≠ '-') (hp : c ≠ '+')
    (hn : digitsValue 0 (c :: cs) = n) (hrange : n < 0x8000000000000000) :
    atoi (c :: cs) = Int32.ofInt n := by
  have hdrop : (c :: cs).dropWhile isspace = c :: cs := List.dropWhile_cons_of_neg (by simp [hs])
  simp only [atoi, hdrop]
  split
  · rename_i h
    exact absurd (List.cons.inj h).1 hm
  · rename_i h
    exact absurd (List.cons.inj h).1 hp
  · rw [hn, if_neg (by omega), if_neg (by omega)]

theorem atoi_of_minus (hn : digitsValue 0 cs = n) (hrange : n ≤ 0x8000000000000000) :
    atoi ('-' :: cs) = Int32.ofInt (-n) := by
  have hdrop : ('-' :: cs).dropWhile isspace = '-' :: cs :=
    List.dropWhile_cons_of_neg (by decide)
  simp only [atoi, hdrop]
  rw [hn, if_neg (by omega), if_neg (by omega)]

/-- What starts with no digit, sign or space is no number. -/
theorem atoi_of_not_digit (hs : isspace c = false) (hm : c ≠ '-') (hp : c ≠ '+')
    (hd : ¬ IsDigit 10 c) : atoi (c :: cs) = 0 := by
  refine atoi_of_digits (n := 0) hs hm hp ?_ (by omega)
  rw [digitsValue_eq, scan_of_not_digit (by simpa using hd)]

theorem toDigits_eq_cons (n : ℕ) :
    ∃ d ds, Nat.toDigits 10 n = d :: ds ∧ IsDigit 10 d := by
  obtain ⟨d, ds, hd⟩ := List.exists_cons_of_ne_nil (Nat.toDigits_ne_nil (n := n) (b := 10))
  exact ⟨d, ds, hd, isDigit_of_mem_toDigits (by omega) (by omega) (hd ▸ List.mem_cons_self)⟩

theorem not_sign_of_isDigit (h : IsDigit 10 c) : isspace c = false ∧ c ≠ '-' ∧ c ≠ '+' := by
  rw [isDigit_ten_iff] at h
  refine ⟨?_, ?_, ?_⟩
  · by_contra hs
    simp only [isspace, Bool.or_eq_true, decide_eq_true_eq, Bool.not_eq_false] at hs
    rcases hs with ((((rfl | rfl) | rfl) | rfl) | rfl) | rfl <;> exact absurd h (by decide)
  · rintro rfl
    exact absurd h (by decide)
  · rintro rfl
    exact absurd h (by decide)

/-- **A number in decimal** is read back, where no digit follows it. -/
theorem atoi_decimal (v : Int32) (h : ∀ c ∈ rest.head?, ¬ IsDigit 10 c) :
    atoi (decimal v.toInt ++ rest) = v := by
  have hlow := v.le_toInt
  have hhigh := v.toInt_lt
  have hdigits := digitsValue_toDigits (n := v.toInt.natAbs) h
  rw [decimal]
  by_cases hneg : v.toInt < 0
  · rw [if_pos hneg, List.cons_append, atoi_of_minus hdigits (by omega)]
    have habs : -(v.toInt.natAbs : ℤ) = v.toInt := by omega
    rw [habs, Int32.ofInt_toInt]
  · rw [if_neg hneg]
    obtain ⟨d, ds, hd, hdigit⟩ := toDigits_eq_cons v.toInt.natAbs
    obtain ⟨hspace, hminus, hplus⟩ := not_sign_of_isDigit hdigit
    rw [hd, List.cons_append] at hdigits ⊢
    rw [atoi_of_digits hspace hminus hplus hdigits (by omega)]
    have habs : (v.toInt.natAbs : ℤ) = v.toInt := by omega
    rw [habs, Int32.ofInt_toInt]

/-- It starts with a digit, or with a minus sign. -/
theorem decimal_eq_cons (v : ℤ) :
    ∃ c cs, decimal v = c :: cs ∧ (c = '-' ∨ IsDigit 10 c) := by
  obtain ⟨d, ds, hd, hdigit⟩ := toDigits_eq_cons v.natAbs
  rw [decimal]
  split
  · exact ⟨'-', _, rfl, .inl rfl⟩
  · exact ⟨d, ds, hd, .inr hdigit⟩

theorem quote_not_mem_decimal (v : ℤ) : '"' ∉ decimal v := by
  have hdigits : '"' ∉ Nat.toDigits 10 v.natAbs := fun h =>
    absurd (isDigit_ten_iff.1 (isDigit_of_mem_toDigits (by omega) (by omega) h)) (by decide)
  rw [decimal]
  split
  · rw [List.mem_cons, not_or]
    exact ⟨by decide, hdigits⟩
  · exact hdigits

/-! ## Lines -/

/-- The first line of a text ends in front of its first line end. -/
theorem takeWhile_mem_splitOn : s.takeWhile (· ≠ c) ∈ s.splitOn c := by
  have hhead : ∃ rest, s.splitOn c = s.takeWhile (· ≠ c) :: rest := by
    induction s with
    | nil => exact ⟨[], rfl⟩
    | cons d s ih =>
      obtain ⟨rest, hrest⟩ := ih
      rw [List.splitOn_cons_eq_if_modifyHead]
      by_cases hd : d = c
      · exact ⟨s.splitOn c, by simp [hd]⟩
      · exact ⟨rest, by simp [hd, hrest]⟩
  obtain ⟨rest, hrest⟩ := hhead
  rw [hrest]
  exact List.mem_cons_self

/-- What stands in front of a line end is within the text's lines. -/
theorem length_lt_of_short {d : Char} (hpre : c ∉ pre) (hd : d ≠ c)
    (hshort : ∀ l ∈ (pre ++ d :: post).splitOn c, l.length < size) : pre.length + 1 < size := by
  have hmem : c ∉ pre ++ [d] := by
    rw [List.mem_append, not_or, List.mem_singleton]
    exact ⟨hpre, Ne.symm hd⟩
  have hfirst := hshort _ takeWhile_mem_splitOn
  rw [List.append_cons, takeWhile_ne_append hmem] at hfirst
  simp only [List.length_append, List.length_cons, List.length_nil] at hfirst
  omega

/-- Where a text starts with a line end, or is empty, what is put in front
of it is a line. -/
theorem splitOn_append_of_head (hpre : c ∉ pre) (hhead : ∀ d ∈ text.head?, d = c) :
    ∃ rest, text.splitOn c = [] :: rest ∧ (pre ++ text).splitOn c = pre :: rest := by
  cases text with
  | nil => exact ⟨[], rfl, by rw [List.append_nil, List.splitOn_eq_singleton hpre]⟩
  | cons d text =>
    obtain rfl : d = c := hhead d rfl
    exact ⟨text.splitOn d,
      List.splitOn_append_cons_self_of_not_mem (List.not_mem_nil (a := d)) _,
      List.splitOn_append_cons_self_of_not_mem hpre _⟩

variable (line) in
/-- **Short lines are read whole.** Where every line is shorter than the
array, what is read of the text is what its lines give, if an empty line
gives nothing and a line end at its end changes nothing. -/
theorem filterMap_fgetsAll {α : Type*} {f : List Char → Option α} (hnil : f [] = none)
    (hend : ∀ l, f (l ++ ['\n']) = f l) (hsize : 2 ≤ size) (hline : '\n' ∉ line)
    (hroom : line.length + 2 ≤ size)
    (hshort : ∀ l ∈ (line.reverse ++ text).splitOn '\n', l.length < size) :
    (fgetsAll size line text).filterMap f =
      ((line.reverse ++ text).splitOn '\n').filterMap f := by
  induction text generalizing line with
  | nil =>
    rw [List.append_nil, List.splitOn_eq_singleton (by rwa [List.mem_reverse]), fgetsAll]
    split
    · rename_i hl
      rw [hl, List.reverse_nil, List.filterMap_nil, List.filterMap_cons_none hnil,
        List.filterMap_nil]
    · rfl
  | cons c text ih =>
    rw [fgetsAll]
    by_cases hc : c = '\n'
    · subst hc
      have hsplit : (line.reverse ++ '\n' :: text).splitOn '\n' =
          line.reverse :: text.splitOn '\n' :=
        List.splitOn_append_cons_self_of_not_mem (by rwa [List.mem_reverse]) _
      rw [hsplit] at hshort ⊢
      have ih := ih [] (by simp) (by simpa using hsize)
        fun l hl => hshort l (List.mem_cons_of_mem _ hl)
      rw [if_pos (.inl rfl), List.filterMap_cons, List.filterMap_cons, List.reverse_cons, hend, ih]
      rfl
    · have hmem : '\n' ∉ c :: line := by
        rw [List.mem_cons, not_or]
        exact ⟨Ne.symm hc, hline⟩
      have hmem' : '\n' ∉ (c :: line).reverse := by rwa [List.mem_reverse]
      have hmove : line.reverse ++ c :: text = (c :: line).reverse ++ text := by simp
      rw [hmove] at hshort ⊢
      by_cases hfull : size ≤ line.length + 2
      · -- a full array: the line ends here, or it would be too long
        have hhead : ∀ d ∈ text.head?, d = '\n' := by
          intro d hd
          by_contra hne
          obtain ⟨rest, rfl⟩ := List.head?_eq_some_iff.1 hd
          have hlen := length_lt_of_short hmem' hne hshort
          simp only [List.length_reverse, List.length_cons] at hlen
          omega
        obtain ⟨rest, htext, hall⟩ := splitOn_append_of_head hmem' hhead
        rw [hall] at hshort ⊢
        have ih := ih [] (by simp) (by simpa using hsize) (by
          intro l hl
          rw [List.reverse_nil, List.nil_append, htext, List.mem_cons] at hl
          rcases hl with rfl | hl
          · exact Nat.lt_of_lt_of_le (by simp) hsize
          · exact hshort l (List.mem_cons_of_mem _ hl))
        rw [List.reverse_nil, List.nil_append, htext, List.filterMap_cons_none hnil] at ih
        rw [if_pos (.inr hfull), List.filterMap_cons, List.filterMap_cons, ih]
      · rw [if_neg (by simpa [hc] using hfull)]
        exact ih (c :: line) hmem (by rw [List.length_cons]; omega) hshort

end ObcSdk
