import Mathlib.Data.BitVec
/-!
# Reflected cyclic redundancy checks

A reflected CRC of width `w` moves its register down one place per bit
of input and adds the polynomial when a one falls out. The step is
linear in exclusive or, and that is all the table-driven form rests on:
eight steps of a register are eight steps of its low octet, which the
table holds, and the rest of it moved down.
-/

namespace ObcSdk

namespace Crc

variable {w : ℕ} {poly c c' : BitVec w}

/-- One bit of input, already added to the register. -/
def bitStep (poly c : BitVec w) : BitVec w :=
  if c.getLsbD 0 then (c >>> 1) ^^^ poly else c >>> 1

/-- `n` bits of input. -/
def bitSteps (poly : BitVec w) : ℕ → BitVec w → BitVec w
  | 0, c => c
  | n + 1, c => bitSteps poly n (bitStep poly c)

/-- A byte of input, its least significant bit first. -/
def byteStep (poly c : BitVec w) (b : UInt8) : BitVec w :=
  bitSteps poly 8 (c ^^^ b.toBitVec.setWidth w)

/-- The register after a run of bytes. -/
def run (poly c : BitVec w) (bs : List UInt8) : BitVec w :=
  bs.foldl (byteStep poly) c

@[simp] theorem run_cons {b : UInt8} {bs : List UInt8} :
    run poly c (b :: bs) = run poly (byteStep poly c b) bs := rfl

/-- **The step is linear.** -/
theorem bitStep_xor : bitStep poly (c ^^^ c') = bitStep poly c ^^^ bitStep poly c' := by
  have hcancel : ∀ x y : BitVec w, (x ^^^ poly) ^^^ (y ^^^ poly) = x ^^^ y := by
    intro x y
    rw [BitVec.xor_comm y poly, BitVec.xor_assoc, ← BitVec.xor_assoc poly poly y,
      BitVec.xor_self, BitVec.zero_xor]
  simp only [bitStep, BitVec.getLsbD_xor, BitVec.ushiftRight_xor_distrib]
  rcases Bool.eq_false_or_eq_true (c.getLsbD 0) with hc | hc <;>
    rcases Bool.eq_false_or_eq_true (c'.getLsbD 0) with hc' | hc' <;>
    simp only [hc, hc', Bool.xor_false, Bool.xor_true, Bool.not_true, Bool.not_false,
      Bool.false_eq_true, if_true, if_false]
  · exact (hcancel _ _).symm
  · rw [BitVec.xor_assoc, BitVec.xor_assoc, BitVec.xor_comm poly]
  · rw [BitVec.xor_assoc]

theorem bitSteps_xor {n : ℕ} :
    bitSteps poly n (c ^^^ c') = bitSteps poly n c ^^^ bitSteps poly n c' := by
  induction n generalizing c c' with
  | zero => rfl
  | succ n ih => rw [bitSteps, bitStep_xor, ih]; rfl

/-- A register whose low bits are clear only moves down. -/
theorem bitSteps_of_low_clear {n : ℕ} (h : ∀ i, i < n → c.getLsbD i = false) :
    bitSteps poly n c = c >>> n := by
  induction n generalizing c with
  | zero => simp [bitSteps]
  | succ n ih =>
    have h0 : c.getLsbD 0 = false := h 0 (by omega)
    have hstep : bitStep poly c = c >>> 1 := by simp [bitStep, h0]
    have hlow : ∀ i, i < n → (c >>> 1).getLsbD i = false := by
      intro i hi
      rw [BitVec.getLsbD_ushiftRight]
      exact h (1 + i) (by omega)
    rw [bitSteps, hstep, ih hlow, ← BitVec.shiftRight_add, Nat.add_comm]

/-- A register is its low octet and the rest of it. -/
theorem eq_low_xor_high :
    c = BitVec.ofNat w (c.toNat % 256) ^^^ ((c >>> 8) <<< 8) := by
  apply BitVec.eq_of_getLsbD_eq
  intro i hi
  have h256 : (256 : ℕ) = 2 ^ 8 := rfl
  simp only [BitVec.getLsbD_xor, BitVec.getLsbD_ofNat, BitVec.getLsbD_shiftLeft,
    BitVec.getLsbD_ushiftRight, h256, Nat.testBit_mod_two_pow, BitVec.testBit_toNat]
  by_cases h8 : i < 8
  · simp [hi, h8]
  · simp [hi, h8, show 8 + (i - 8) = i by omega]

/-- **Eight steps from a table.** They are the table's entry for the low
octet and the rest of the register moved down eight places. -/
theorem bitSteps_eight {table : ℕ → BitVec w}
    (htable : ∀ i, i < 256 → table i = bitSteps poly 8 (BitVec.ofNat w i)) :
    bitSteps poly 8 c = table (c.toNat % 256) ^^^ (c >>> 8) := by
  have hhigh : bitSteps poly 8 ((c >>> 8) <<< 8) = c >>> 8 := by
    rw [bitSteps_of_low_clear fun i hi => by simp [hi]]
    apply BitVec.eq_of_getLsbD_eq
    intro i hi
    simp only [BitVec.getLsbD_ushiftRight, BitVec.getLsbD_shiftLeft]
    by_cases hw : 8 + i < w
    · simp [hw]
    · simp [hw, BitVec.getLsbD_of_ge c (8 + i) (by omega)]
  calc bitSteps poly 8 c
      = bitSteps poly 8 (BitVec.ofNat w (c.toNat % 256) ^^^ ((c >>> 8) <<< 8)) := by
        rw [← eq_low_xor_high]
    _ = table (c.toNat % 256) ^^^ (c >>> 8) := by
        rw [bitSteps_xor, hhigh, htable _ (Nat.mod_lt _ (by decide))]

/-- **A byte at a time.** -/
theorem byteStep_table {table : ℕ → BitVec w} {b : UInt8}
    (htable : ∀ i, i < 256 → table i = bitSteps poly 8 (BitVec.ofNat w i)) :
    byteStep poly c b =
      table ((c ^^^ b.toBitVec.setWidth w).toNat % 256) ^^^ (c >>> 8) := by
  have hb : (b.toBitVec.setWidth w) >>> 8 = 0#w := by
    apply BitVec.eq_of_toNat_eq
    have := b.toBitVec.isLt
    have hle : b.toBitVec.toNat % 2 ^ w ≤ b.toBitVec.toNat := Nat.mod_le _ _
    simp only [BitVec.toNat_ushiftRight, BitVec.toNat_setWidth, Nat.shiftRight_eq_div_pow,
      BitVec.toNat_zero]
    exact Nat.div_eq_of_lt (by omega)
  rw [byteStep, bitSteps_eight htable, BitVec.ushiftRight_xor_distrib, hb, BitVec.xor_zero]

end Crc

end ObcSdk
