import ObcSdk.Lib.CrcErrors
/-!
# Reflected and straight registers

The division as it is written down moves the register up, and subtracts
the polynomial for the bit that falls out at the top. A reflected register
holds the same the other way round.
-/

namespace ObcSdk

namespace Crc

variable {w : ℕ} {poly c : BitVec w} {b : Bool} {l : List Bool}

/-- A bit of input to a register that moves up. -/
def straightBit (poly c : BitVec w) (b : Bool) : BitVec w :=
  if (c.msb ^^ b) = true then (c <<< 1) ^^^ poly else c <<< 1

/-- That register after a run of bits. -/
def straightFeed (poly c : BitVec w) (l : List Bool) : BitVec w := l.foldl (straightBit poly) c

theorem reverse_xor {c' : BitVec w} : (c ^^^ c').reverse = c.reverse ^^^ c'.reverse := by
  apply BitVec.eq_of_getLsbD_eq
  intro i hi
  simp only [BitVec.getLsbD_reverse, BitVec.getLsbD_xor, BitVec.getMsbD_xor]

theorem reverse_ushiftRight : (c >>> 1).reverse = c.reverse <<< 1 := by
  apply BitVec.eq_of_getLsbD_eq
  intro i hi
  rw [BitVec.getLsbD_reverse, BitVec.getMsbD_ushiftRight, BitVec.getLsbD_shiftLeft,
    BitVec.getLsbD_reverse]
  simp [hi]

/-- **A bit of input**, in either register. -/
theorem reverse_feedBit (hw : 0 < w) :
    (feedBit poly c b).reverse = straightBit poly.reverse c.reverse b := by
  have hlow : (c ^^^ ofBit b).getLsbD 0 = (c.reverse.msb ^^ b) := by
    rw [BitVec.getLsbD_xor, getLsbD_ofBit hw, BitVec.msb_reverse]
    simp
  have hshift : (c ^^^ ofBit b) >>> 1 = c >>> 1 := by
    apply BitVec.eq_of_getLsbD_eq
    intro i hi
    rw [BitVec.getLsbD_ushiftRight, BitVec.getLsbD_ushiftRight, BitVec.getLsbD_xor,
      getLsbD_ofBit hw]
    simp
  rw [feedBit, bitStep, straightBit, hlow, hshift, ← reverse_ushiftRight]
  by_cases h : (c.reverse.msb ^^ b) = true
  · rw [if_pos h, if_pos h, reverse_xor]
  · rw [if_neg h, if_neg h]

variable (poly c l) in
/-- **The registers agree** on every run of bits. -/
theorem reverse_feed (hw : 0 < w) :
    (feed poly c l).reverse = straightFeed poly.reverse c.reverse l := by
  induction l generalizing c with
  | nil => rfl
  | cons b l ih =>
    rw [feed_cons, ih, reverse_feedBit hw]
    rfl

end Crc

end ObcSdk
