import Mathlib.Algebra.Order.Ring.Int
import Mathlib.Tactic.Common
import ObcSdk.Lib.Traced
/-!
# Formatted printing on the A53 core

`libc_stubs.c`: `vsnprintf` and the `itoa` it converts numbers with. The
two arrays that are written keep where they were written, and the format
keeps where it was read. Arithmetic on `int` wraps.
-/

namespace ObcSdk

namespace Amp

/-! ## `itoa` -/

/-- The character of a digit; the remainder of a negative number is
negative. -/
def digitChar (digit : Int32) : UInt8 :=
  (if digit < 10 then 0x30 + digit else 0x41 + digit - 10).toUInt32.toUInt8

theorem toInt_div_base {value base : Int32} (hbase : 1 < base) :
    (value / base).toInt = value.toInt.tdiv base.toInt := by
  refine Int32.toInt_div_of_ne_right _ _ ?_
  rintro rfl
  exact absurd hbase (by decide)

/-- Something is left where the base goes into the value. -/
theorem div_base_pos_iff {value base : Int32} (hbase : 1 < base) :
    0 < value / base ↔ base.toInt ≤ value.toInt := by
  have hb : 1 < base.toInt := Int32.lt_iff_toInt_lt.1 hbase
  rw [Int32.lt_iff_toInt_lt, Int32.toInt_zero, toInt_div_base hbase]
  rcases lt_or_ge value.toInt 0 with hneg | hnonneg
  · have := Int.tdiv_nonneg (a := -value.toInt) (b := base.toInt) (by omega) (by omega)
    rw [Int.neg_tdiv] at this
    omega
  · rw [Int.tdiv_eq_ediv_of_nonneg hnonneg, Int.lt_iff_add_one_le, Int.zero_add,
      Int.le_ediv_iff_mul_le (by omega), Int.one_mul]

/-- The loop of `itoa` over `value`, the lowest digit first. It runs once
at least, and on as long as what is left is positive. -/
def itoaDigits (base : Int32) (hbase : 1 < base) (value : Int32) : List UInt8 :=
  if 0 < value / base then digitChar (value % base) :: itoaDigits base hbase (value / base)
  else [digitChar (value % base)]
termination_by value.toInt.toNat
decreasing_by
  rename_i hpos
  have hb : 1 < base.toInt := Int32.lt_iff_toInt_lt.1 hbase
  rw [div_base_pos_iff hbase] at hpos
  rw [toInt_div_base hbase, Int.tdiv_eq_ediv_of_nonneg (by omega)]
  have := Int.ediv_lt_self_of_pos_of_ne_one (x := value.toInt) (y := base.toInt) (by omega)
    (by omega)
  omega

/-- What `itoa` stores before it turns it around. -/
def itoaChars (base : Int32) (hbase : 1 < base) (value : Int32) : List UInt8 :=
  if value < 0 ∧ base = 10 then itoaDigits base hbase (-value) ++ ['-'.toUInt8]
  else itoaDigits base hbase value

/-- `itoa`. -/
def itoa (value : Int32) (str : Traced UInt8) (base : Int32) (hbase : 1 < base) : Traced UInt8 :=
  let chars := itoaChars base hbase value
  Traced.reverseLoop 0 (chars.length - 1) (str.putAll 0 (chars ++ [0]))

/-! ## `vsnprintf` -/

/-- A text, without its NUL. -/
abbrev CText : Type := { text : List UInt8 // 0 ∉ text }

/-- The memory from the start of a text on. -/
def CText.mem (text : CText) : Store UInt8 := fun i => text.1.getD i 0

/-- An argument, as it is when an `int` is asked for, and when a text
is. -/
structure VaSlot where
  word : UInt32
  text : CText

/-- The state of `vsnprintf`. -/
structure Printing where
  /-- The caller's buffer; `p` is `count` behind its start. -/
  str : Traced UInt8
  count : ℕ
  /-- The array a number is converted in. -/
  buffer : Traced UInt8
  /-- How far `format` has moved. -/
  format : ℕ
  /-- Where it was read. -/
  read : List ℕ
  /-- How many arguments were taken. -/
  taken : ℕ

namespace Printing

/-- A character stored behind the others. -/
def put (s : Printing) (c : UInt8) : Printing :=
  { s with str := s.str.put s.count c, count := s.count + 1 }

/-- The same, where `count` is below `size - 1`. -/
def putChar (limit : ℕ) (c : UInt8) (s : Printing) : Printing :=
  if s.count < limit then s.put c else s

/-- A text copied from its index `k` on, as long as there is room: `count`
has to stay below `size - 1`, `room` above it. -/
def copyLoop (text : Store UInt8) : ℕ → ℕ → Printing → Printing
  | 0, _, s => s
  | room + 1, k, s =>
    if text k ≠ 0 then copyLoop text room (k + 1) (s.put (text k)) else s

def copyText (limit : ℕ) (text : Store UInt8) (s : Printing) : Printing :=
  copyLoop text (limit - s.count) 0 s

/-- A number converted and copied. -/
def copyNumber (limit : ℕ) (value base : Int32) (hbase : 1 < base) (s : Printing) : Printing :=
  let s := { s with buffer := itoa value s.buffer base hbase }
  s.copyText limit s.buffer.mem

/-- What is done at the character behind a `%`. -/
def convert (limit : ℕ) (c : UInt8) (ap : ℕ → VaSlot) (s : Printing) : Printing :=
  let arg := ap s.taken
  if c = 'd'.toUInt8 then
    { s with taken := s.taken + 1 }.copyNumber limit arg.word.toInt32 10 (by decide)
  else if c = 'x'.toUInt8 ∨ c = 'X'.toUInt8 then
    { s with taken := s.taken + 1 }.copyNumber limit arg.word.toInt32 16 (by decide)
  else if c = 's'.toUInt8 then
    { s with taken := s.taken + 1 }.copyText limit arg.text.mem
  else if c = 'c'.toUInt8 then
    { s with taken := s.taken + 1 }.putChar limit arg.word.toUInt8
  else if c = '%'.toUInt8 then s.putChar limit '%'.toUInt8
  else (s.putChar limit '%'.toUInt8).putChar limit c

/-- A turn of the loop over the format. -/
def turn (limit : ℕ) (format : Store UInt8) (ap : ℕ → VaSlot) (s : Printing) : Printing :=
  if format s.format = '%'.toUInt8 then
    let s := { s with format := s.format + 1, read := s.read ++ [s.format + 1] }
    let s := s.convert limit (format s.format) ap
    { s with format := s.format + 1 }
  else
    let s := s.putChar limit (format s.format)
    { s with format := s.format + 1 }

/-- The loop, `none` where it needs more turns. -/
def loop (limit : ℕ) (format : Store UInt8) (ap : ℕ → VaSlot) : ℕ → Printing → Option Printing
  | 0, _ => none
  | turns + 1, s =>
    let s := { s with read := s.read ++ [s.format] }
    if format s.format ≠ 0 ∧ s.count < limit then
      loop limit format ap turns (s.turn limit format ap)
    else some s

/-- At the start; of the two arrays only what is in them is known. -/
def start (str buffer : Store UInt8) : Printing := ⟨⟨str, []⟩, 0, ⟨buffer, []⟩, 0, [], 0⟩

end Printing

/-- `vsnprintf`, in so many turns of its loop: the state it leaves and the
value it returns. -/
def vsnprintf (turns : ℕ) (str buffer : Store UInt8) (size : UInt64) (format : Store UInt8)
    (ap : ℕ → VaSlot) : Option (Printing × Int32) :=
  (Printing.loop (size - 1).toNat format ap turns (.start str buffer)).map fun s =>
    (if 0 < size then { s with str := s.str.put s.count 0 } else s, Int32.ofNat s.count)

/-! ## What `itoa` leaves -/

section Itoa

variable {value base : Int32} {hbase : 1 < base} {str : Traced UInt8} {n k : ℕ} {n' : ℤ}

/-- What the array reads behind `itoa`. -/
def itoaText (base : Int32) (hbase : 1 < base) (value : Int32) : List UInt8 :=
  (itoaChars base hbase value).reverse

theorem itoaDigits_ne_nil : itoaDigits base hbase value ≠ [] := by
  rw [itoaDigits]
  split <;> simp

variable (value) in
theorem itoaChars_ne_nil : itoaChars base hbase value ≠ [] := by
  rw [itoaChars]
  split
  · simp
  · exact itoaDigits_ne_nil

/-- The text stands at the start of the array, and a NUL behind it. -/
theorem read_itoa : Store.read (itoa value str base hbase).mem 0
    ((itoaText base hbase value).length + 1) = itoaText base hbase value ++ [0] := by
  have hpos : 0 < (itoaChars base hbase value).length :=
    List.length_pos_iff.2 (itoaChars_ne_nil value)
  have hfill : (str.putAll 0 (itoaChars base hbase value ++ [0])).mem =
      Store.write str.mem 0 (itoaChars base hbase value ++ [0]) := Traced.putAll_mem
  rw [itoaText, List.length_reverse, Store.read_add, itoa]
  congr 1
  · have hturn := Traced.read_reverseLoop (m := str.putAll 0 (itoaChars base hbase value ++ [0]))
      (a := 0) (n := (itoaChars base hbase value).length) rfl
    rw [Nat.zero_add] at hturn
    rw [hturn, hfill, Store.read_write (by simp), List.take_left]
  · have hnul : Store.write str.mem 0 (itoaChars base hbase value ++ [0])
        (0 + (itoaChars base hbase value).length) = 0 := by
      rw [Store.write_add (by simp)]
      simp
    rw [Nat.zero_add] at hnul ⊢
    rw [Store.read, List.range_one, List.map_singleton, Nat.add_zero, Traced.reverseLoop_mem,
      if_neg (by omega), hfill, hnul]

/-- `itoa` stores no further than its NUL. -/
theorem mem_itoa_stored (h : n ∈ (itoa value str base hbase).stored) :
    n ∈ str.stored ∨ n ≤ (itoaText base hbase value).length := by
  rw [itoaText, List.length_reverse]
  rw [itoa] at h
  rcases Traced.mem_reverseLoop_stored h with hput | hturn
  · rw [Traced.mem_putAll_stored, List.length_append, List.length_singleton] at hput
    rcases hput with hold | hin
    · exact Or.inl hold
    · exact Or.inr (by omega)
  · exact Or.inr (by omega)

/-- The characters of small remainders are characters of a text. -/
theorem digitChar_ne_zero (h : (-16) < n') (h' : n' < 16) : digitChar (Int32.ofInt n') ≠ 0 := by
  have hall : ∀ i : Fin 31, digitChar (Int32.ofInt ((i : ℤ) - 15)) ≠ 0 := by decide
  have hi := hall ⟨(n' + 15).toNat, by omega⟩
  have hn : (((n' + 15).toNat : ℕ) : ℤ) - 15 = n' := by omega
  simpa only [hn] using hi

theorem zero_not_mem_itoaDigits (hb : base.toInt ≤ 16) :
    0 ∉ itoaDigits base hbase value := by
  have hlow : 1 < base.toInt := Int32.lt_iff_toInt_lt.1 hbase
  have hrem : ∀ value : Int32, 0 ≠ digitChar (value % base) := by
    intro value
    rw [← Int32.ofInt_toInt (value % base), Int32.toInt_mod]
    have h := Int.tmod_lt_of_pos value.toInt (by omega : 0 < base.toInt)
    have h' := Int.tmod_lt_of_pos (-value.toInt) (by omega : 0 < base.toInt)
    rw [Int.neg_tmod] at h'
    exact (digitChar_ne_zero (by omega) (by omega)).symm
  induction value using itoaDigits.induct base hbase with
  | case1 value hpos ih =>
    rw [itoaDigits, if_pos hpos, List.mem_cons, not_or]
    exact ⟨hrem value, ih⟩
  | case2 value hpos =>
    rw [itoaDigits, if_neg hpos, List.mem_singleton]
    exact hrem value

/-- **The text of a number** has no NUL. -/
theorem zero_not_mem_itoaText (hb : base.toInt ≤ 16) : 0 ∉ itoaText base hbase value := by
  have hdigits : ∀ value, 0 ∉ itoaDigits base hbase value :=
    fun value => zero_not_mem_itoaDigits hb
  rw [itoaText, List.mem_reverse, itoaChars]
  split
  · rw [List.mem_append, not_or]
    exact ⟨hdigits _, by decide⟩
  · exact hdigits _

/-- A number below a power of the base has no more digits than its
exponent. -/
theorem length_itoaDigits_le (hk : 0 < k) (h : value.toInt < base.toInt ^ k) :
    (itoaDigits base hbase value).length ≤ k := by
  have hlow : 1 < base.toInt := Int32.lt_iff_toInt_lt.1 hbase
  induction value using itoaDigits.induct base hbase generalizing k with
  | case1 value hpos ih =>
    rw [itoaDigits, if_pos hpos, List.length_cons]
    rw [div_base_pos_iff hbase] at hpos
    obtain ⟨j, rfl⟩ := Nat.exists_eq_succ_of_ne_zero hk.ne'
    rw [Int.pow_succ] at h
    have hj : 0 < j := by
      rcases Nat.eq_zero_or_pos j with rfl | hj
      · rw [Int.pow_zero, Int.one_mul] at h
        omega
      · exact hj
    have hdiv : (value / base).toInt < base.toInt ^ j := by
      rw [toInt_div_base hbase, Int.tdiv_eq_ediv_of_nonneg (by omega)]
      exact Int.ediv_lt_of_lt_mul (by omega) h
    have := ih hj hdiv
    omega
  | case2 value hpos =>
    rw [itoaDigits, if_neg hpos]
    exact hk

/-- **The text of a number** fits its array. -/
theorem length_itoaText_le (hb : 10 ≤ base.toInt) : (itoaText base hbase value).length ≤ 11 := by
  have hpow : (10 : ℤ) ^ 10 ≤ base.toInt ^ 10 := pow_le_pow_left₀ (by decide) hb 10
  have hdigits : ∀ value : Int32, (itoaDigits base hbase value).length ≤ 10 := by
    intro value
    have := value.toInt_lt
    exact length_itoaDigits_le (by decide) (by omega)
  rw [itoaText, List.length_reverse, itoaChars]
  split
  · have := hdigits (-value)
    rw [List.length_append, List.length_singleton]
    omega
  · have := hdigits value
    omega

end Itoa

/-! ## What a turn prints -/

/-- What a conversion prints. -/
def conversionText (c : UInt8) (arg : VaSlot) : List UInt8 :=
  if c = 'd'.toUInt8 then itoaText 10 (by decide) arg.word.toInt32
  else if c = 'x'.toUInt8 ∨ c = 'X'.toUInt8 then itoaText 16 (by decide) arg.word.toInt32
  else if c = 's'.toUInt8 then arg.text.1
  else if c = 'c'.toUInt8 then [arg.word.toUInt8]
  else if c = '%'.toUInt8 then ['%'.toUInt8]
  else ['%'.toUInt8, c]

/-- How many arguments it takes. -/
def conversionTakes (c : UInt8) : ℕ :=
  if c = 'd'.toUInt8 ∨ c = 'x'.toUInt8 ∨ c = 'X'.toUInt8 ∨ c = 's'.toUInt8 ∨ c = 'c'.toUInt8
  then 1 else 0

namespace Printing

/-- A text printed behind the others. -/
def print (text : List UInt8) (s : Printing) : Printing :=
  { s with str := s.str.putAll s.count text, count := s.count + text.length }

section Print

variable {s : Printing} {text text' : List UInt8} {mem : Store UInt8} {limit room k : ℕ}
  {c : UInt8} {ap : ℕ → VaSlot}

@[simp] theorem print_nil : s.print [] = s := rfl

@[simp] theorem print_count : (s.print text).count = s.count + text.length := rfl

theorem print_print : (s.print text).print text' = s.print (text ++ text') := by
  simp only [print, Traced.putAll_append, List.length_append, Nat.add_assoc]

/-- A text printed in two parts, each as far as there is room. -/
theorem print_take_append : (s.print (text.take (limit - s.count))).print
    (text'.take (limit - (s.print (text.take (limit - s.count))).count)) =
      s.print ((text ++ text').take (limit - s.count)) := by
  rw [print_print, List.take_append]
  congr 3
  rw [print_count, List.length_take]
  omega

theorem putChar_eq : s.putChar limit c = s.print ([c].take (limit - s.count)) := by
  rw [putChar]
  split
  · rw [List.take_of_length_le (by rw [List.length_singleton]; omega)]
    rfl
  · rw [show limit - s.count = 0 by omega, List.take_zero, print_nil]

/-- **The copy loop** prints the text up to its NUL, as far as there is
room. -/
theorem copyLoop_eq (h : Store.read mem k (text.length + 1) = text ++ [0]) (h0 : 0 ∉ text) :
    copyLoop mem room k s = s.print (text.take room) := by
  induction text generalizing k room s with
  | nil =>
    have hnul : mem k = 0 := by
      rw [List.length_nil, Nat.zero_add, Store.read, List.range_one, List.map_singleton,
        Nat.add_zero] at h
      exact List.head_eq_of_cons_eq h
    rw [List.take_nil, print_nil]
    cases room with
    | zero => rfl
    | succ room => rw [copyLoop, if_neg (by simp [hnul])]
  | cons c text ih =>
    cases room with
    | zero => rfl
    | succ room =>
      rw [List.length_cons, Nat.add_right_comm, Nat.add_comm _ 1, Store.read_add] at h
      obtain ⟨hc, htext⟩ := List.cons_eq_cons.1 h
      replace hc : mem k = c := hc
      rw [List.mem_cons, not_or] at h0
      rw [copyLoop, if_pos (by rw [hc]; exact Ne.symm h0.1), ih htext h0.2, hc]
      exact @print_print s [c] _

theorem CText.read_mem {t : CText} : Store.read (CText.mem t) 0 (t.1.length + 1) = t.1 ++ [0] := by
  refine (Store.eq_read (by simp) fun i hi => ?_).symm
  rw [Nat.zero_add, CText.mem, List.getD_eq_getElem?_getD]
  rcases Nat.lt_or_ge i t.1.length with hlt | hge
  · rw [List.getElem_append_left hlt, List.getElem?_eq_getElem hlt, Option.getD_some]
  · rw [List.getElem_append_right hge, List.getElem?_eq_none hge, Option.getD_none]
    simp

theorem copyNumber_eq (s : Printing) (limit : ℕ) (value : Int32) {base : Int32} (hbase : 1 < base)
    (hlow : 10 ≤ base.toInt) (hhigh : base.toInt ≤ 16) : ∃ buffer : Traced UInt8,
      (∀ n ∈ buffer.stored, n ∈ s.buffer.stored ∨ n < 32) ∧
      s.copyNumber limit value base hbase =
        { s.print ((itoaText base hbase value).take (limit - s.count)) with buffer := buffer } := by
  refine ⟨itoa value s.buffer base hbase, ?_, ?_⟩
  · intro n hn
    have hlen : (itoaText base hbase value).length ≤ 11 := length_itoaText_le hlow
    rcases mem_itoa_stored hn with hold | hin
    · exact Or.inl hold
    · exact Or.inr (by omega)
  · rw [copyNumber, copyText, copyLoop_eq read_itoa (zero_not_mem_itoaText hhigh)]
    rfl

variable (s limit c ap) in
/-- **A conversion** prints its text, as far as there is room, and stores
to nothing else but the array for numbers. -/
theorem convert_eq : ∃ buffer : Traced UInt8,
    (∀ n ∈ buffer.stored, n ∈ s.buffer.stored ∨ n < 32) ∧
    s.convert limit c ap =
      { s.print ((conversionText c (ap s.taken)).take (limit - s.count)) with
        buffer := buffer, taken := s.taken + conversionTakes c } := by
  have hkeep : ∀ n ∈ s.buffer.stored, n ∈ s.buffer.stored ∨ n < 32 := fun n hn => Or.inl hn
  rw [convert, conversionText]
  by_cases hd : c = 'd'.toUInt8
  · obtain ⟨buffer, hin, heq⟩ := copyNumber_eq { s with taken := s.taken + 1 } limit
      (ap s.taken).word.toInt32 (by decide : (1 : Int32) < 10) (by decide) (by decide)
    rw [if_pos hd, if_pos hd, conversionTakes, if_pos (Or.inl hd)]
    exact ⟨buffer, hin, heq⟩
  rw [if_neg hd, if_neg hd]
  by_cases hx : c = 'x'.toUInt8 ∨ c = 'X'.toUInt8
  · obtain ⟨buffer, hin, heq⟩ := copyNumber_eq { s with taken := s.taken + 1 } limit
      (ap s.taken).word.toInt32 (by decide : (1 : Int32) < 16) (by decide) (by decide)
    rw [if_pos hx, if_pos hx, conversionTakes, if_pos (Or.inr (or_assoc.1 (Or.inl hx)))]
    exact ⟨buffer, hin, heq⟩
  rw [if_neg hx, if_neg hx]
  by_cases hs : c = 's'.toUInt8
  · rw [if_pos hs, if_pos hs, conversionTakes, if_pos (by simp [hs]), copyText,
      copyLoop_eq CText.read_mem (ap s.taken).text.2]
    exact ⟨s.buffer, hkeep, rfl⟩
  rw [if_neg hs, if_neg hs]
  by_cases hc : c = 'c'.toUInt8
  · rw [if_pos hc, if_pos hc, conversionTakes, if_pos (by simp [hc]), putChar_eq]
    exact ⟨s.buffer, hkeep, rfl⟩
  rw [not_or] at hx
  have htaken : conversionTakes c = 0 := if_neg (by simp only [hd, hx, hs, hc, or_self,
    not_false_eq_true])
  rw [if_neg hc, if_neg hc, htaken]
  by_cases hp : c = '%'.toUInt8
  · rw [if_pos hp, if_pos hp, putChar_eq]
    exact ⟨s.buffer, hkeep, rfl⟩
  · rw [if_neg hp, if_neg hp, putChar_eq, putChar_eq, print_take_append]
    exact ⟨s.buffer, hkeep, rfl⟩

end Print

end Printing

end Amp

end ObcSdk
