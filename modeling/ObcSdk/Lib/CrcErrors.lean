import Mathlib.Algebra.Group.Nat.Even
import Mathlib.Data.List.Basic
import ObcSdk.Lib.Crc
import ObcSdk.Lib.LittleEndian
/-!
# Errors a cyclic redundancy check tells

A register fed bit by bit. As the feed is linear, two inputs of a length
leave registers apart by what their difference leaves, and an error goes
unnoticed exactly where that is nothing. A polynomial with a constant term
leaves something of every burst as long as the register; one with an odd
number of terms besides the leading one, of every odd number of bits.
-/

namespace ObcSdk

namespace Crc

variable {w : ℕ} {poly c c' : BitVec w} {b b' : Bool} {l l' : List Bool}

/-- A bit as a register: its place is where the next bit is added. -/
def ofBit (b : Bool) : BitVec w := if b then 1#w else 0#w

/-- A bit of input. -/
def feedBit (poly c : BitVec w) (b : Bool) : BitVec w := bitStep poly (c ^^^ ofBit b)

/-- The register after a run of bits. -/
def feed (poly c : BitVec w) (l : List Bool) : BitVec w := l.foldl (feedBit poly) c

/-- The bits of a byte, the least significant one first. -/
def byteBits (b : UInt8) : List Bool := (List.range 8).map b.toBitVec.getLsbD

/-- The bits of a run of bytes, in the order they are fed. -/
def bits (bs : List UInt8) : List Bool := bs.flatMap byteBits

@[simp] theorem feed_nil : feed poly c [] = c := rfl

@[simp] theorem feed_cons : feed poly c (b :: l) = feed poly (feedBit poly c b) l := rfl

theorem feed_append : feed poly c (l ++ l') = feed poly (feed poly c l) l' := List.foldl_append

@[simp] theorem length_bits {bs : List UInt8} : (bits bs).length = 8 * bs.length := by
  simp [bits, byteBits, List.length_flatMap, Nat.mul_comm]

/-! ## Linearity -/

theorem ofBit_xor : (ofBit (b ^^ b') : BitVec w) = ofBit b ^^^ ofBit b' := by
  cases b <;> cases b' <;> simp [ofBit]

theorem feedBit_xor :
    feedBit poly (c ^^^ c') (b ^^ b') = feedBit poly c b ^^^ feedBit poly c' b' := by
  rw [feedBit, feedBit, feedBit, ← bitStep_xor, ofBit_xor]
  congr 1
  ac_rfl

/-- **The feed is linear.** -/
theorem feed_xor (h : l.length = l'.length) :
    feed poly (c ^^^ c') (List.zipWith xor l l') = feed poly c l ^^^ feed poly c' l' := by
  induction l generalizing l' c c' with
  | nil =>
    obtain rfl := List.length_eq_zero_iff.1 h.symm
    rfl
  | cons b l ih =>
    cases l' with
    | nil => cases h
    | cons b' l' =>
      rw [List.zipWith_cons_cons, feed_cons, feed_cons, feed_cons, feedBit_xor]
      exact ih (Nat.succ.inj h)

/-- So two inputs of a length leave one register exactly where their
difference leaves none. -/
theorem feed_eq_iff (h : l.length = l'.length) :
    feed poly c l = feed poly c l' ↔ feed poly 0#w (List.zipWith xor l l') = 0#w := by
  rw [← BitVec.xor_self (x := c), feed_xor h]
  constructor
  · intro heq
    rw [heq, BitVec.xor_self, BitVec.xor_self]
  · intro hzero
    rw [BitVec.xor_self] at hzero
    exact BitVec.xor_eq_zero_iff.1 hzero

/-- The difference is set where the inputs differ. -/
theorem getElem?_zipWith_xor (h : l.length = l'.length) {i : ℕ} :
    (List.zipWith xor l l')[i]? = some true ↔ l[i]? ≠ l'[i]? := by
  rcases Nat.lt_or_ge i l.length with hi | hi
  · have hi' : i < l'.length := h ▸ hi
    rw [List.getElem?_zipWith, List.getElem?_eq_getElem hi, List.getElem?_eq_getElem hi']
    simp
  · have hi' : l'.length ≤ i := h ▸ hi
    rw [List.getElem?_zipWith, List.getElem?_eq_none hi, List.getElem?_eq_none hi']
    simp

/-- In as many places as they differ in. -/
theorem count_zipWith_xor :
    (List.zipWith xor l l').count true = (l.zip l').countP fun x => x.1 ≠ x.2 := by
  rw [← List.map_uncurry_zip_eq_zipWith, List.count, List.countP_map]
  congr 1
  funext x
  obtain ⟨x, y⟩ := x
  cases x <;> cases y <;> rfl

/-! ## Bits and bytes -/

/-- The first bits of an input as a register. -/
def word : List Bool → BitVec w
  | [] => 0#w
  | b :: l => ofBit b ^^^ (word l <<< 1)

theorem getLsbD_ofBit {i : ℕ} (hw : 0 < w) :
    (ofBit b : BitVec w).getLsbD i = (decide (i = 0) && b) := by
  cases b <;> simp [ofBit, hw]

theorem getLsbD_word {i : ℕ} (hi : i < w) : (word l : BitVec w).getLsbD i = l.getD i false := by
  induction l generalizing i with
  | nil => simp [word]
  | cons b l ih =>
    rw [word, BitVec.getLsbD_xor, getLsbD_ofBit (by omega), BitVec.getLsbD_shiftLeft]
    cases i with
    | zero => simp
    | succ i => simp [hi, ih (show i < w by omega)]

/-- **Bits that fit the register** can be added to it at once. -/
theorem feed_eq_bitSteps (h : l.length ≤ w) :
    feed poly c l = bitSteps poly l.length (c ^^^ word l) := by
  induction l generalizing c with
  | nil => simp [word, bitSteps]
  | cons b l ih =>
    rw [List.length_cons] at h
    have hlow : (word l <<< 1 : BitVec w).getLsbD 0 = false := by simp
    have hback : (word l <<< 1 : BitVec w) >>> 1 = word l := by
      apply BitVec.eq_of_getLsbD_eq
      intro i hi
      rw [BitVec.getLsbD_ushiftRight, BitVec.getLsbD_shiftLeft, getLsbD_word hi]
      by_cases hlast : 1 + i < w
      · simp [hlast, getLsbD_word hi]
      · simp [hlast, List.getElem?_eq_none (show l.length ≤ i by omega)]
    have hstep : bitStep poly (word l <<< 1) = word l := by
      rw [bitStep, hlow, if_neg Bool.false_ne_true, hback]
    rw [feed_cons, ih (by omega), List.length_cons, bitSteps, word, ← BitVec.xor_assoc, bitStep_xor,
      hstep, feedBit]

/-- **A byte is its bits**, one after the other. -/
theorem byteStep_eq_feed (hw : 8 ≤ w) {b : UInt8} :
    byteStep poly c b = feed poly c (byteBits b) := by
  have hword : word (byteBits b) = b.toBitVec.setWidth w := by
    apply BitVec.eq_of_getLsbD_eq
    intro i hi
    rw [getLsbD_word hi, BitVec.getLsbD_setWidth, byteBits]
    by_cases h8 : i < 8
    · simp [hi, h8]
    · simp [h8, BitVec.getLsbD_of_ge b.toBitVec i (by omega)]
  rw [feed_eq_bitSteps (by simpa [byteBits] using hw), hword]
  rfl

/-- **A run of bytes is a run of bits.** -/
theorem run_eq_feed (hw : 8 ≤ w) {bs : List UInt8} : run poly c bs = feed poly c (bits bs) := by
  induction bs generalizing c with
  | nil => rfl
  | cons b bs ih =>
    have hbits : bits (b :: bs) = byteBits b ++ bits bs := List.flatMap_cons
    rw [run_cons, ih, byteStep_eq_feed hw, hbits, feed_append]

theorem byteBits_injective : Function.Injective byteBits := by
  intro b b' h
  apply UInt8.toBitVec_inj.1
  apply BitVec.eq_of_getLsbD_eq
  intro i hi
  have hget := congrArg (·[i]?) h
  simpa [byteBits, hi] using hget

/-- The bits tell the bytes. -/
theorem bits_injective : Function.Injective bits := by
  intro bs
  induction bs with
  | nil =>
    intro bs' h
    have hlen := congrArg List.length h
    rw [length_bits, length_bits] at hlen
    exact (List.length_eq_zero_iff.1 (by simpa using hlen.symm)).symm
  | cons b bs ih =>
    intro bs' h
    cases bs' with
    | nil =>
      have hlen := congrArg List.length h
      rw [length_bits, length_bits] at hlen
      simp at hlen
    | cons b' bs' =>
      have hsplit := List.append_inj (show byteBits b ++ bits bs = byteBits b' ++ bits bs' from h)
        (by simp [byteBits])
      rw [byteBits_injective hsplit.1, ih hsplit.2]

/-- The bit of an index is its byte's. -/
theorem getElem?_bits {bs : List UInt8} {i : ℕ} :
    (bits bs)[i]? = bs[i / 8]?.map fun b => b.toBitVec.getLsbD (i % 8) := by
  induction bs generalizing i with
  | nil => rfl
  | cons b bs ih =>
    have hbits : bits (b :: bs) = byteBits b ++ bits bs := List.flatMap_cons
    have hlen : (byteBits b).length = 8 := by simp [byteBits]
    rw [hbits]
    rcases Nat.lt_or_ge i 8 with hi | hi
    · rw [List.getElem?_append_left (by rwa [hlen]), Nat.div_eq_of_lt hi, Nat.mod_eq_of_lt hi]
      simp [byteBits, hi]
    · obtain ⟨j, rfl⟩ := Nat.exists_eq_add_of_le' hi
      rw [List.getElem?_append_right (by omega), hlen, Nat.add_sub_cancel, ih,
        Nat.add_div_right _ (by decide), Nat.add_mod_right, List.getElem?_cons_succ]

/-- The bits of a number's bytes are the number's. -/
theorem getD_bits {bs : List UInt8} {i : ℕ} : (bits bs).getD i false = (leNat bs).testBit i := by
  induction bs generalizing i with
  | nil => simp [bits, leNat]
  | cons b bs ih =>
    have hbits : bits (b :: bs) = byteBits b ++ bits bs := List.flatMap_cons
    have hlen : (byteBits b).length = 8 := by simp [byteBits]
    have hnat : leNat (b :: bs) = 2 ^ 8 * leNat bs + b.toNat := by
      rw [leNat, Nat.add_comm]
      rfl
    rw [hbits, hnat, Nat.testBit_two_pow_mul_add _ b.toNat_lt, List.getD_eq_getElem?_getD]
    split
    · rename_i hi
      rw [List.getElem?_append_left (by rwa [hlen]), byteBits, List.getElem?_map,
        List.getElem?_range hi]
      rfl
    · rename_i hi
      rw [List.getElem?_append_right (by omega), hlen, ← List.getD_eq_getElem?_getD, ih]

/-- A number's bytes as a register are the number. -/
theorem word_bits {bs : List UInt8} : (word (bits bs) : BitVec w) = BitVec.ofNat w (leNat bs) := by
  apply BitVec.eq_of_getLsbD_eq
  intro i hi
  rw [getLsbD_word hi, getD_bits, BitVec.getLsbD_ofNat, decide_eq_true hi, Bool.true_and]

/-! ## Bursts -/

/-- A polynomial with a constant term: its last place is the register's
first. -/
theorem bitStep_eq_zero (hpoly : poly.getLsbD (w - 1) = true) (h : bitStep poly c = 0#w) :
    c = 0#w := by
  have hbit : ∀ i, (bitStep poly c).getLsbD i = false := by simp [h]
  have htop : (c >>> 1).getLsbD (w - 1) = false := by
    rw [BitVec.getLsbD_ushiftRight]
    exact BitVec.getLsbD_of_ge _ _ (by omega)
  have hlow : c.getLsbD 0 = false := by
    by_contra hone
    have := hbit (w - 1)
    rw [bitStep, if_pos (by simpa using hone), BitVec.getLsbD_xor, htop, hpoly] at this
    cases this
  apply BitVec.eq_of_getLsbD_eq
  intro i hi
  rw [BitVec.getLsbD_zero]
  cases i with
  | zero => exact hlow
  | succ i =>
    have := hbit i
    rwa [bitStep, hlow, if_neg Bool.false_ne_true, BitVec.getLsbD_ushiftRight, Nat.add_comm] at this

theorem bitSteps_eq_zero (hpoly : poly.getLsbD (w - 1) = true) {n : ℕ}
    (h : bitSteps poly n c = 0#w) : c = 0#w := by
  induction n generalizing c with
  | zero => exact h
  | succ n ih => exact bitStep_eq_zero hpoly (ih h)

/-- Bits that are all clear only move the register on. -/
theorem feed_of_clear (h : true ∉ l) : feed poly c l = bitSteps poly l.length c := by
  induction l generalizing c with
  | nil => rfl
  | cons b l ih =>
    rw [List.mem_cons, not_or] at h
    have hb : b = false := by simpa using h.1
    rw [feed_cons, ih h.2, feedBit, hb, List.length_cons, bitSteps]
    simp [ofBit]

theorem bitSteps_zero {n : ℕ} : bitSteps poly n 0#w = 0#w := by
  induction n with
  | zero => rfl
  | succ n ih =>
    have hstep : bitStep poly 0#w = 0#w := by simp [bitStep]
    rw [bitSteps, hstep, ih]

/-- **Only its own bits clear a register**, where the polynomial has a
constant term. -/
theorem feed_eq_zero_iff (hpoly : poly.getLsbD (w - 1) = true) (h : l.length ≤ w) :
    feed poly c l = 0#w ↔ c = word l := by
  rw [feed_eq_bitSteps h]
  constructor
  · intro hzero
    exact BitVec.xor_eq_zero_iff.1 (bitSteps_eq_zero hpoly hzero)
  · intro heq
    rw [heq, BitVec.xor_self, bitSteps_zero]

/-- **A burst no longer than the register leaves something of itself.** -/
theorem feed_ne_zero_of_burst (hpoly : poly.getLsbD (w - 1) = true) {p : ℕ}
    (hburst : ∀ i, l[i]? = some true → p ≤ i ∧ i < p + w) (hone : true ∈ l) :
    feed poly 0#w l ≠ 0#w := by
  intro hzero
  have hfront : true ∉ l.take p := by
    intro hmem
    obtain ⟨i, hi⟩ := List.mem_iff_getElem?.1 hmem
    rw [List.getElem?_take] at hi
    split at hi
    · have := (hburst i hi).1
      omega
    · cases hi
  have hback : true ∉ (l.drop p).drop w := by
    intro hmem
    obtain ⟨i, hi⟩ := List.mem_iff_getElem?.1 hmem
    rw [List.getElem?_drop, List.getElem?_drop] at hi
    have := (hburst _ hi).2
    omega
  set burst := (l.drop p).take w with hdef
  have hlen : burst.length ≤ w := by simp [hdef]
  have hl : l = l.take p ++ (burst ++ (l.drop p).drop w) := by
    rw [hdef, List.take_append_drop, List.take_append_drop]
  have hmid : true ∈ burst := by
    rw [hl, List.mem_append, List.mem_append] at hone
    rcases hone with h | h | h
    · exact absurd h hfront
    · exact h
    · exact absurd h hback
  -- what the burst leaves is moved on and no more
  rw [hl, feed_append, feed_append, feed_of_clear hfront, bitSteps_zero, feed_of_clear hback,
    feed_eq_bitSteps hlen, BitVec.zero_xor] at hzero
  have hword : (word burst : BitVec w) = 0#w :=
    bitSteps_eq_zero hpoly (bitSteps_eq_zero hpoly hzero)
  obtain ⟨i, hi⟩ := List.mem_iff_getElem?.1 hmid
  have hiw : i < w := lt_of_lt_of_le (List.getElem?_eq_some_iff.1 hi).1 hlen
  have hbit := getLsbD_word (l := burst) hiw
  rw [hword, BitVec.getLsbD_zero, List.getD_eq_getElem?_getD, hi] at hbit
  cases hbit

/-! ## Odd errors -/

/-- Whether an odd number of the first `n` values is true. -/
def oddUpto : ℕ → (ℕ → Bool) → Bool
  | 0, _ => false
  | n + 1, f => f 0 ^^ oddUpto n fun i => f (i + 1)

/-- Whether an odd number of a register's bits is set. -/
def odd (c : BitVec w) : Bool := oddUpto w c.getLsbD

theorem oddUpto_xor {n : ℕ} {f g : ℕ → Bool} :
    oddUpto n (fun i => f i ^^ g i) = (oddUpto n f ^^ oddUpto n g) := by
  induction n generalizing f g with
  | zero => rfl
  | succ n ih =>
    rw [oddUpto, oddUpto, oddUpto, ih, Bool.xor_assoc, Bool.xor_left_comm (g 0),
      ← Bool.xor_assoc]

theorem oddUpto_succ {n : ℕ} {f : ℕ → Bool} : oddUpto (n + 1) f = (oddUpto n f ^^ f n) := by
  induction n generalizing f with
  | zero => simp [oddUpto]
  | succ n ih =>
    rw [oddUpto, ih, oddUpto]
    ac_rfl

theorem oddUpto_false {n : ℕ} {f : ℕ → Bool} (h : ∀ i, f i = false) : oddUpto n f = false := by
  induction n generalizing f with
  | zero => rfl
  | succ n ih => rw [oddUpto, h 0, ih fun i => h (i + 1), Bool.xor_false]

theorem odd_xor : odd (c ^^^ c') = (odd c ^^ odd c') := by
  rw [odd, odd, odd, ← oddUpto_xor]
  congr 1
  funext i
  exact BitVec.getLsbD_xor

theorem odd_zero : odd 0#w = false := oddUpto_false fun _ => BitVec.getLsbD_zero

/-- A register moved down is without its lowest bit. -/
theorem odd_shift : odd (c >>> 1) = (odd c ^^ c.getLsbD 0) := by
  cases w with
  | zero => rw [BitVec.eq_nil c]; rfl
  | succ n =>
    have htop : (c >>> 1).getLsbD n = false := by
      rw [BitVec.getLsbD_ushiftRight]
      exact BitVec.getLsbD_of_ge _ _ (by omega)
    have hrest : (fun i => (c >>> 1).getLsbD i) = fun i => c.getLsbD (i + 1) := by
      funext i
      rw [BitVec.getLsbD_ushiftRight, Nat.add_comm 1 i]
    rw [odd, oddUpto_succ, htop, Bool.xor_false, odd, oddUpto, ← hrest]
    generalize c.getLsbD 0 = b
    generalize oddUpto n _ = b'
    cases b <;> cases b' <;> rfl

theorem odd_ofBit (hw : 0 < w) : odd (ofBit b : BitVec w) = b := by
  obtain ⟨n, rfl⟩ := Nat.exists_eq_succ_of_ne_zero hw.ne'
  rw [odd, oddUpto, oddUpto_false, getLsbD_ofBit hw]
  · simp
  · intro i
    simp [getLsbD_ofBit hw]

/-- **A step keeps the count of bits odd or even**, where the polynomial
has an odd number of them. -/
theorem odd_bitStep (hpoly : odd poly = true) : odd (bitStep poly c) = odd c := by
  rw [bitStep]
  split
  · rename_i hone
    rw [odd_xor, odd_shift, hone, hpoly]
    simp
  · rename_i hzero
    rw [odd_shift, Bool.eq_false_iff.2 hzero, Bool.xor_false]

/-- **The register counts the input's bits**, up to parity. -/
theorem odd_feed (hw : 0 < w) (hpoly : odd poly = true) :
    odd (feed poly c l) = (odd c ^^ decide (Odd (l.count true))) := by
  induction l generalizing c with
  | nil => simp
  | cons b l ih =>
    rw [feed_cons, ih, feedBit, odd_bitStep hpoly, odd_xor, odd_ofBit hw, List.count_cons]
    cases b
    · simp
    · simp [Nat.odd_add_one, -Nat.not_odd_iff_even]

/-- **An odd error leaves something of itself.** -/
theorem feed_ne_zero_of_odd (hw : 0 < w) (hpoly : odd poly = true)
    (hodd : Odd (l.count true)) : feed poly 0#w l ≠ 0#w := by
  intro hzero
  have hcount := odd_feed (c := 0#w) (l := l) hw hpoly
  rw [hzero, odd_zero] at hcount
  simp [hodd] at hcount

end Crc

end ObcSdk
