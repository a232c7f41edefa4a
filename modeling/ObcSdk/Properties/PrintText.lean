import ObcSdk.Lib.CText
import ObcSdk.Properties.PrintBounds
/-!
# What `vsnprintf` prints

A number is printed by the digits of what is left of it, as long as that
is positive. An unsigned number from `2 ^ 31` on is negative in the `int`
that `itoa` takes, and so is what is left of the least `int` when its
sign is taken off: the loop is over after one digit, which is none. All
else is printed as the C standard says.
-/

namespace ObcSdk

namespace Amp

/-- A character that is printed as it is. -/
abbrev Literal : Type := { c : UInt8 // c ≠ 0 ∧ c ≠ '%'.toUInt8 }

/-- A part of a format, with the argument it takes. -/
inductive Item where
  | literal (c : Literal)
  | decimal (n : Int32)
  | hex (capital : Bool) (n : UInt32)
  | text (t : CText)
  | char (n : Int32)
  | percent

namespace Item

/-- How it is written. -/
def format : Item → List UInt8
  | literal c => [c.1]
  | decimal _ => ['%'.toUInt8, 'd'.toUInt8]
  | hex capital _ => ['%'.toUInt8, if capital then 'X'.toUInt8 else 'x'.toUInt8]
  | text _ => ['%'.toUInt8, 's'.toUInt8]
  | char _ => ['%'.toUInt8, 'c'.toUInt8]
  | percent => ['%'.toUInt8, '%'.toUInt8]

/-- The turn it makes. -/
def token : Item → Token
  | literal c => .literal c.1
  | decimal _ => .conversion 'd'.toUInt8
  | hex capital _ => .conversion (if capital then 'X'.toUInt8 else 'x'.toUInt8)
  | text _ => .conversion 's'.toUInt8
  | char _ => .conversion 'c'.toUInt8
  | percent => .conversion '%'.toUInt8

/-- The argument passed for it. -/
def Takes : Item → VaSlot → Prop
  | decimal n, arg => arg.word = n.toUInt32
  | hex _ n, arg => arg.word = n
  | text t, arg => arg.text = t
  | char n, arg => arg.word = n.toUInt32
  | literal _, _ => True
  | percent, _ => True

/-- What the C standard makes of it. -/
def expansion : Item → List UInt8
  | literal c => [c.1]
  | decimal n => (ObcSdk.decimal n.toInt).map Char.toUInt8
  | hex capital n =>
    (Nat.toDigits 16 n.toNat).map fun c => (if capital then c.toUpper else c).toUInt8
  | text t => t.1
  | char n => [n.toUInt32.toUInt8]
  | percent => ['%'.toUInt8]

/-- A letter as a small one. -/
def small (c : UInt8) : UInt8 := if 'A'.toUInt8 ≤ c ∧ c ≤ 'Z'.toUInt8 then c + 0x20 else c

/-- A text is what the C standard makes of it, the case of the letters of
`%x` and `%X` aside. -/
def Shows : Item → List UInt8 → Prop
  | hex capital n, out => out.map small = (hex capital n).expansion.map small
  | it, out => out = it.expansion

/-- A number that `itoa` can do. -/
def Printable : Item → Prop
  | decimal n => n ≠ Int32.minValue
  | hex _ n => n.toNat < 2 ^ 31
  | _ => True

end Item

instance : DecidablePred Item.Printable
  | .decimal n => inferInstanceAs (Decidable (n ≠ Int32.minValue))
  | .hex _ n => inferInstanceAs (Decidable (n.toNat < 2 ^ 31))
  | .literal _ => isTrue trivial
  | .text _ => isTrue trivial
  | .char _ => isTrue trivial
  | .percent => isTrue trivial

/-- The arguments are those of the items, from one on. -/
def Matches (ap : ℕ → VaSlot) : ℕ → List Item → Prop
  | _, [] => True
  | taken, it :: items => it.Takes (ap taken) ∧ Matches ap (taken + it.token.takes) items

/-- The length of the full result. -/
def fullLength (items : List Item) : ℕ := (items.flatMap Item.expansion).length

/-- **`vsnprintf` prints the items**: it returns, the buffer holds what the
C standard makes of them, and the value returned is its length. -/
def PrintsItems (str buffer rest : Store UInt8) (size : UInt64) (items : List Item)
    (ap : ℕ → VaSlot) : Prop :=
  ∃ turns r parts, vsnprintf turns str buffer size (formatMem (items.flatMap Item.format) rest) ap =
      some r ∧
    List.Forall₂ Item.Shows items parts ∧
    Store.read r.1.str.mem 0 (parts.flatten.length + 1) = parts.flatten ++ [0] ∧
    r.2.toInt = parts.flatten.length

section Numbers

variable {value base : Int32} {hbase : 1 < base} {n : ℕ}

/-- The character of a digit is a capital one. -/
theorem digitChar_ofNat (h : n < 16) :
    digitChar (Int32.ofInt n) = n.digitChar.toUpper.toUInt8 := by
  have hall : ∀ i : Fin 16,
      digitChar (Int32.ofInt (i : ℕ)) = (i : ℕ).digitChar.toUpper.toUInt8 := by decide
  exact hall ⟨n, h⟩

/-- **The digits of a number** that is not negative, the lowest first. -/
theorem itoaDigits_of_nonneg (hb : base.toInt ≤ 16) (h : 0 ≤ value.toInt) :
    itoaDigits base hbase value =
      ((Nat.toDigits base.toInt.toNat value.toInt.toNat).map
        fun c => c.toUpper.toUInt8).reverse := by
  have hlow : 1 < base.toInt := Int32.lt_iff_toInt_lt.1 hbase
  have hdigit : ∀ value : Int32, 0 ≤ value.toInt →
      digitChar (value % base) =
        (value.toInt.toNat % base.toInt.toNat).digitChar.toUpper.toUInt8 := by
    intro value h
    have hlt := Nat.mod_lt value.toInt.toNat (by omega : 0 < base.toInt.toNat)
    rw [← digitChar_ofNat (by omega), ← Int32.ofInt_toInt (value % base), Int32.toInt_mod,
      Int.tmod_eq_emod_of_nonneg h]
    congr 2
    rw [Int.natCast_mod, Int.toNat_of_nonneg h, Int.toNat_of_nonneg (by omega)]
  induction value using itoaDigits.induct base hbase with
  | case1 value hpos ih =>
    have hle := (div_base_pos_iff hbase).1 hpos
    have hdiv : (value / base).toInt = (value.toInt.toNat / base.toInt.toNat : ℕ) := by
      rw [toInt_div_base hbase, Int.tdiv_eq_ediv_of_nonneg h, Int.natCast_ediv,
        Int.toNat_of_nonneg h, Int.toNat_of_nonneg (by omega)]
    rw [itoaDigits, if_pos hpos, ih (by rw [hdiv]; exact Int.natCast_nonneg _), hdiv,
      Int.toNat_natCast, hdigit value h, Nat.toDigits_eq_if (n := value.toInt.toNat) (by omega),
      if_neg (by omega), List.map_append, List.reverse_append]
    rfl
  | case2 value hno =>
    rw [div_base_pos_iff hbase] at hno
    rw [itoaDigits, if_neg (mt (div_base_pos_iff hbase).1 hno), hdigit value h,
      Nat.toDigits_eq_if (by omega), if_pos (by omega), Nat.mod_eq_of_lt (by omega)]
    rfl

/-- What is negative has one digit, which is none. -/
theorem itoaDigits_of_neg (h : value.toInt < 0) :
    itoaDigits base hbase value = [digitChar (value % base)] := by
  have hb : 1 < base.toInt := Int32.lt_iff_toInt_lt.1 hbase
  rw [itoaDigits, if_neg]
  rw [div_base_pos_iff hbase]
  omega

theorem toUpper_of_mem_toDigits {c : Char} (h : c ∈ Nat.toDigits 10 n) : c.toUpper = c := by
  have hall : ∀ i : Fin 10, (i : ℕ).digitChar.toUpper = (i : ℕ).digitChar := by decide
  obtain ⟨v, hv, rfl⟩ := Numeral.exists_digitChar_of_mem_toDigits (by decide) h
  exact hall ⟨v, hv⟩

/-- **A decimal number** is printed right, but for the least one. -/
theorem itoaText_decimal {m : Int32} (h : m ≠ Int32.minValue) :
    itoaText 10 (by decide) m = (decimal m.toInt).map Char.toUInt8 := by
  have hdigits : ∀ value : Int32, 0 ≤ value.toInt →
      (itoaDigits 10 (by decide) value).reverse =
        (Nat.toDigits 10 value.toInt.toNat).map Char.toUInt8 := by
    intro value hval
    rw [itoaDigits_of_nonneg (by decide) hval, List.reverse_reverse]
    refine List.map_congr_left fun c hc => ?_
    rw [toUpper_of_mem_toDigits hc]
  have hsign : m < 0 ↔ m.toInt < 0 := Int32.lt_iff_toInt_lt
  rw [itoaText, itoaChars, decimal]
  by_cases hneg : m.toInt < 0
  · have hlow : m.toInt ≠ -2 ^ 31 := fun hmin => h (Int32.toInt_inj.1 hmin)
    have hminus : (-m).toInt = -m.toInt := by
      have := m.le_toInt
      rw [Int32.toInt_neg, Int.bmod_eq_of_le (by omega) (by omega)]
    rw [if_pos ⟨hsign.2 hneg, rfl⟩, if_pos hneg, List.reverse_append, hdigits _ (by omega), hminus,
      List.map_cons, show (-m.toInt).toNat = m.toInt.natAbs by omega]
    rfl
  · rw [if_neg (fun hno => hneg (hsign.1 hno.1)), if_neg hneg, hdigits _ (by omega),
      show m.toInt.toNat = m.toInt.natAbs by omega]

theorem toInt_toInt32 {m : UInt32} :
    m.toInt32.toInt = if m.toNat < 2 ^ 31 then (m.toNat : ℤ) else m.toNat - 2 ^ 32 := by
  have hcond : m.toInt32.toInt =
      if 2 * m.toNat < 2 ^ 32 then (m.toNat : ℤ) else m.toNat - (2 ^ 32 : ℕ) :=
    BitVec.toInt_eq_toNat_cond m.toBitVec
  rw [hcond]
  split <;> split <;> omega

/-- **A number in base sixteen** is printed right below `2 ^ 31`. -/
theorem itoaText_hex {m : UInt32} (h : m.toNat < 2 ^ 31) :
    itoaText 16 (by decide) m.toInt32 =
      (Nat.toDigits 16 m.toNat).map fun c => c.toUpper.toUInt8 := by
  have hval : m.toInt32.toInt = m.toNat := by rw [toInt_toInt32, if_pos h]
  rw [itoaText, itoaChars, if_neg (by simp), itoaDigits_of_nonneg (by decide) (by omega),
    List.reverse_reverse, hval]
  rfl

/-- From `2 ^ 31` on it is printed too short. -/
theorem length_itoaText_hex_lt {m : UInt32} (h : ¬ m.toNat < 2 ^ 31) :
    (itoaText 16 (by decide) m.toInt32).length < (Nat.toDigits 16 m.toNat).length := by
  have hneg : m.toInt32.toInt < 0 := by
    have := m.toNat_lt
    rw [toInt_toInt32, if_neg h]
    omega
  have hlong : ¬ (Nat.toDigits 16 m.toNat).length ≤ 1 := by
    rw [Nat.length_toDigits_le_iff (by decide) (by decide)]
    omega
  rw [itoaText, itoaChars, if_neg (by simp), itoaDigits_of_neg hneg, List.length_reverse,
    List.length_singleton]
  omega

end Numbers

section Items

variable {it : Item} {items : List Item} {arg : VaSlot} {ap : ℕ → VaSlot} {taken : ℕ}
  {parts : List (List UInt8)} {out : List UInt8}

/-- **What is printed for an item** is right where `itoa` can do the
number. -/
theorem Item.shows_text (h : it.Takes arg) (hp : it.Printable) : it.Shows (it.token.text arg) := by
  cases it with
  | literal c => rfl
  | decimal n =>
    have hword : arg.word = n.toUInt32 := h
    have htext : (Item.decimal n).token.text arg = itoaText 10 (by decide) arg.word.toInt32 := rfl
    rw [htext, hword, Int32.toInt32_toUInt32]
    exact itoaText_decimal hp
  | hex capital n =>
    have hword : arg.word = n := h
    have htext : (Item.hex capital n).token.text arg =
        itoaText 16 (by decide) arg.word.toInt32 := by
      cases capital <;> rfl
    have hall : ∀ i : Fin 16, Item.small (i : ℕ).digitChar.toUpper.toUInt8 =
        Item.small (i : ℕ).digitChar.toUInt8 := by
      decide
    rw [htext, hword, itoaText_hex hp, Item.Shows, Item.expansion, List.map_map, List.map_map]
    refine List.map_congr_left fun c hc => ?_
    obtain ⟨v, hv, rfl⟩ := Numeral.exists_digitChar_of_mem_toDigits (by decide) hc
    cases capital with
    | false => exact hall ⟨v, hv⟩
    | true => rfl
  | text t =>
    have htext : arg.text = t := h
    subst htext
    rfl
  | char n =>
    have hword : arg.word = n.toUInt32 := h
    have htext : (Item.char n).token.text arg = [arg.word.toUInt8] := rfl
    rw [htext, hword]
    rfl
  | percent => rfl

/-- Where it cannot, what is printed is too short. -/
theorem Item.length_text_lt (h : it.Takes arg) (hp : ¬ it.Printable) :
    (it.token.text arg).length < it.expansion.length := by
  cases it with
  | literal c => exact absurd trivial hp
  | decimal n =>
    have hword : arg.word = n.toUInt32 := h
    have htext : (Item.decimal n).token.text arg = itoaText 10 (by decide) arg.word.toInt32 := rfl
    obtain rfl : n = Int32.minValue := not_not.1 hp
    have hmin : -Int32.minValue = Int32.minValue := rfl
    rw [htext, hword, Int32.toInt32_toUInt32, itoaText, itoaChars, if_pos (by decide), hmin,
      itoaDigits_of_neg (by decide)]
    decide
  | hex capital n =>
    have hword : arg.word = n := h
    have htext : (Item.hex capital n).token.text arg =
        itoaText 16 (by decide) arg.word.toInt32 := by
      cases capital <;> rfl
    rw [htext, hword, Item.expansion, List.length_map]
    exact length_itoaText_hex_lt hp
  | text t => exact absurd trivial hp
  | char n => exact absurd trivial hp
  | percent => exact absurd trivial hp

theorem Item.Shows.length_eq (h : it.Shows out) : out.length = it.expansion.length := by
  cases it with
  | hex capital n =>
    have hmap : (out.map Item.small).length =
        ((Item.hex capital n).expansion.map Item.small).length := congrArg List.length h
    simpa only [List.length_map] using hmap
  | literal c => exact congrArg List.length h
  | decimal n => exact congrArg List.length h
  | text t => exact congrArg List.length h
  | char n => exact congrArg List.length h
  | percent => exact congrArg List.length h

/-- **The items printed**, none of them longer than it should be, and as
long where `itoa` can do all the numbers. -/
theorem length_output_le (h : Matches ap taken items) :
    (output ap taken (items.map Item.token)).length ≤ fullLength items ∧
      (fullLength items ≤ (output ap taken (items.map Item.token)).length →
        ∀ it ∈ items, it.Printable) := by
  induction items generalizing taken with
  | nil => simp [output, fullLength]
  | cons it items ih =>
    obtain ⟨hit, hrest⟩ := h
    obtain ⟨hle, hall⟩ := ih hrest
    have hfull : fullLength (it :: items) = it.expansion.length + fullLength items := by
      rw [fullLength, List.flatMap_cons, List.length_append, fullLength]
    rw [List.map_cons, output, List.length_append, hfull, List.forall_mem_cons]
    by_cases hp : it.Printable
    · have := (Item.shows_text hit hp).length_eq
      exact ⟨by omega, fun hge => ⟨hp, hall (by omega)⟩⟩
    · have := Item.length_text_lt hit hp
      exact ⟨by omega, fun hge => by omega⟩

theorem exists_parts (h : Matches ap taken items) (hp : ∀ it ∈ items, it.Printable) :
    ∃ parts, List.Forall₂ Item.Shows items parts ∧
      parts.flatten = output ap taken (items.map Item.token) := by
  induction items generalizing taken with
  | nil => exact ⟨[], .nil, rfl⟩
  | cons it items ih =>
    obtain ⟨hit, hrest⟩ := h
    rw [List.forall_mem_cons] at hp
    obtain ⟨parts, hshows, hflat⟩ := ih hrest hp.2
    refine ⟨it.token.text (ap taken) :: parts, .cons (Item.shows_text hit hp.1) hshows, ?_⟩
    rw [List.flatten_cons, hflat, List.map_cons, output]

theorem length_flatten_parts (h : List.Forall₂ Item.Shows items parts) :
    parts.flatten.length = fullLength items := by
  induction h with
  | nil => rfl
  | cons hit _ ih =>
    rw [List.flatten_cons, List.length_append, hit.length_eq, ih, fullLength, fullLength,
      List.flatMap_cons, List.length_append]

/-- An item is a character, or a conversion. -/
theorem Item.format_cases (it : Item) :
    (∃ c : Literal, it.format = [c.1] ∧ it.token = .literal c.1) ∨
      ∃ c, c ≠ 0 ∧ it.format = ['%'.toUInt8, c] ∧ it.token = .conversion c := by
  cases it with
  | literal c => exact Or.inl ⟨c, rfl, rfl⟩
  | decimal n => exact Or.inr ⟨'d'.toUInt8, by decide, rfl, rfl⟩
  | hex capital n => exact Or.inr ⟨_, by cases capital <;> decide, rfl, rfl⟩
  | text t => exact Or.inr ⟨'s'.toUInt8, by decide, rfl, rfl⟩
  | char n => exact Or.inr ⟨'c'.toUInt8, by decide, rfl, rfl⟩
  | percent => exact Or.inr ⟨'%'.toUInt8, by decide, rfl, rfl⟩

/-- The format of the items is read as their turns. -/
theorem tokens_format : tokens (items.flatMap Item.format) = items.map Item.token := by
  induction items with
  | nil => rfl
  | cons it items ih =>
    rw [List.flatMap_cons, List.map_cons, ← ih]
    rcases it.format_cases with ⟨c, hformat, htoken⟩ | ⟨c, -, hformat, htoken⟩
    · rw [hformat, htoken]
      exact tokens_literal c.2.2
    · rw [hformat, htoken]
      exact tokens_conversion

theorem zero_not_mem_format : 0 ∉ items.flatMap Item.format := by
  rw [List.mem_flatMap]
  rintro ⟨it, -, h⟩
  rcases it.format_cases with ⟨c, hformat, -⟩ | ⟨c, hc, hformat, -⟩
  · rw [hformat, List.mem_singleton] at h
    exact c.2.1 h.symm
  · rw [hformat, List.mem_cons, List.mem_singleton] at h
    exact h.elim (by decide) (Ne.symm hc)

/-- It does not end open. -/
theorem conversion_zero_not_mem : .conversion 0 ∉ items.map Item.token := by
  rw [List.mem_map]
  rintro ⟨it, -, h⟩
  rcases it.format_cases with ⟨c, -, htoken⟩ | ⟨c, hc, -, htoken⟩
  · rw [htoken] at h
    cases h
  · rw [htoken] at h
    exact hc (Token.conversion.inj h)

variable {str buffer rest : Store UInt8} {size : UInt64}

variable (str buffer rest) in
/-- **What `vsnprintf` leaves** of matching arguments, where there is room:
the text of the tokens, with a NUL behind it. -/
theorem vsnprintf_items (hsize : fullLength items < size.toNat) (hargs : Matches ap 0 items) :
    ∃ turns, ∃ s : Printing,
      vsnprintf turns str buffer size (formatMem (items.flatMap Item.format) rest) ap =
        some ({ s with str := s.str.put s.count 0 }, Int32.ofNat s.count) ∧
      s.count = (output ap 0 (items.map Item.token)).length ∧
      Store.read (s.str.put s.count 0).mem 0 (s.count + 1) =
        output ap 0 (items.map Item.token) ++ [0] := by
  obtain ⟨hle, -⟩ := length_output_le hargs
  let f : CText := ⟨items.flatMap Item.format, zero_not_mem_format⟩
  have hopen : ¬ EndsOpen (size - 1).toNat ap f.1 (.start str buffer) := by
    rintro ⟨hmem, -⟩
    rw [tokens_format] at hmem
    exact conversion_zero_not_mem hmem
  obtain ⟨turns, s, hprints, hrun⟩ := vsnprintf_prints rest hopen
  rcases toNat_size_sub_one size with ⟨rfl, -⟩ | ⟨hpos, hlimit, -⟩
  · exact absurd hsize (Nat.not_lt_zero _)
  rw [if_pos hpos] at hrun
  rw [tokens_format, List.take_of_length_le (by omega)] at hprints
  generalize output ap 0 (items.map Item.token) = out at hprints hle ⊢
  have hcount : s.count = out.length := by
    rw [hprints.count, Printing.print_count, Printing.start, Nat.zero_add]
  refine ⟨turns, s, hrun, hcount, ?_⟩
  have hput : s.str.put s.count 0 = Traced.putAll ⟨str, []⟩ 0 (out ++ [0]) := by
    rw [Traced.putAll_append, hprints.str, hcount, Nat.zero_add]
    rfl
  rw [hput, hcount, Traced.putAll_mem, ← List.length_singleton (a := (0 : UInt8)),
    ← List.length_append, Store.read_write_self]

/-- What is printed right can be done by `itoa`, and counted. -/
theorem PrintsItems.printable (h : PrintsItems str buffer rest size items ap)
    (hsize : fullLength items < size.toNat) (hargs : Matches ap 0 items) :
    (∀ it ∈ items, it.Printable) ∧ fullLength items < 2 ^ 31 := by
  obtain ⟨hle, hall⟩ := length_output_le hargs
  obtain ⟨turns, s, hrun, hcount, -⟩ := vsnprintf_items str buffer rest hsize hargs
  obtain ⟨turns', r, parts, hrun', hshows, -, hlen⟩ := h
  have hfull : (Int32.ofNat s.count).toInt = fullLength items := by
    rw [← length_flatten_parts hshows, ← hlen, vsnprintf_unique hrun' hrun]
  have hlt : fullLength items < 2 ^ 31 := by
    have := (Int32.ofNat s.count).toInt_lt
    omega
  rw [Int32.toInt_ofNat_of_lt (by omega)] at hfull
  exact ⟨hall (by omega), hlt⟩

variable (str buffer rest) in
/-- **`vsnprintf` prints the items right** exactly where `itoa` can do all
the numbers, and the length of the result is an `int`. -/
theorem printsItems_iff (hsize : fullLength items < size.toNat) (hargs : Matches ap 0 items) :
    PrintsItems str buffer rest size items ap ↔
      (∀ it ∈ items, it.Printable) ∧ fullLength items < 2 ^ 31 := by
  constructor
  · exact fun h => h.printable hsize hargs
  · rintro ⟨hp, hlt⟩
    obtain ⟨hle, -⟩ := length_output_le hargs
    obtain ⟨turns, s, hrun, hcount, hread⟩ := vsnprintf_items str buffer rest hsize hargs
    obtain ⟨parts, hshows, hflat⟩ := exists_parts hargs hp
    refine ⟨turns, _, parts, hrun, hshows, ?_, ?_⟩
    · rw [hflat, ← hcount]
      exact hread
    · rw [hflat, hcount, Int32.toInt_ofNat_of_lt (by omega)]

end Items

/-- Numbers, as they mostly are. -/
theorem printsItems_numbers :
    PrintsItems (fun _ => 0) (fun _ => 0) (fun _ => 0) 32
      [.decimal (-1), .percent, .hex true 0x7FFFFFFF] fun i =>
        if i = 0 then ⟨(-1 : Int32).toUInt32, ⟨[], List.not_mem_nil⟩⟩
        else ⟨0x7FFFFFFF, ⟨[], List.not_mem_nil⟩⟩ := by
  refine (printsItems_iff _ _ _ (by decide +kernel) ?_).2 ⟨by decide, by decide +kernel⟩
  exact ⟨rfl, trivial, rfl, trivial⟩

/-- The top bit alone is printed as a zero, and the least number as its
sign and an opening bracket. -/
theorem not_printsItems :
    (¬ ∀ str buffer rest (size : UInt64) items ap, fullLength items < size.toNat →
      Matches ap 0 items → PrintsItems str buffer rest size items ap) ∧
    ¬ PrintsItems (fun _ => 0) (fun _ => 0) (fun _ => 0) 32 [.hex false 0x80000000]
      (fun _ => ⟨0x80000000, ⟨[], List.not_mem_nil⟩⟩) ∧
    itoaText 16 (by decide) (0x80000000 : UInt32).toInt32 = ['0'.toUInt8] ∧
    itoaText 10 (by decide) Int32.minValue = ['-'.toUInt8, '('.toUInt8] := by
  have hargs : Matches (fun _ => ⟨0x80000000, ⟨[], List.not_mem_nil⟩⟩) 0
      [.hex false 0x80000000] := ⟨rfl, trivial⟩
  have hno : ¬ PrintsItems (fun _ => 0) (fun _ => 0) (fun _ => 0) 32 [.hex false 0x80000000]
      (fun _ => ⟨0x80000000, ⟨[], List.not_mem_nil⟩⟩) := fun h =>
    absurd (h.printable (by decide +kernel) hargs).1 (by decide)
  refine ⟨fun hall => hno (hall _ _ _ _ _ _ (by decide +kernel) hargs), hno, ?_, ?_⟩
  · rw [itoaText, itoaChars, if_neg (by decide), itoaDigits_of_neg (by decide)]
    decide
  · have hmin : -Int32.minValue = Int32.minValue := rfl
    rw [itoaText, itoaChars, if_pos (by decide), hmin, itoaDigits_of_neg (by decide)]
    decide

end Amp

end ObcSdk
