import Mathlib.Data.Rat.Floor
import Mathlib.Algebra.Order.Round
import Mathlib.Tactic.Linarith
import Mathlib.Tactic.FieldSimp
import ObcSdk.Amp.VsUart
/-!
# The divisor of a baud rate

The whole part and the 64ths are computed without a wrap, and come to the
divisor rounded to the nearest 64th. The 64ths are rounded alone, though:
where they come to one whole it is not carried, and the fraction register
is given a value that it does not hold.
-/

namespace ObcSdk

namespace Amp

/-- No operation of the computation wraps. -/
structure NothingWraps (baudrate : UInt32) : Prop where
  divisor : (16 * baudrate).toNat = 16 * baudrate.toNat
  temp : (8 * pl011Remainder baudrate).toNat = 8 * (pl011Remainder baudrate).toNat
  frac : (pl011Frac baudrate).toNat =
    (pl011Temp baudrate >>> 1).toNat + (pl011Temp baudrate &&& 1).toNat

/-- **The divisor is right**: it is computed without a wrap, each part fits
its register, and together they are the divisor, rounded to the nearest
64th. -/
structure DivisorRight (baudrate : UInt32) (regs : UartRegs) : Prop where
  wraps : NothingWraps baudrate
  ibrd : (pl011Setbrt baudrate regs pl011RegIbrdOffset).toNat < 2 ^ 16
  fbrd : (pl011Setbrt baudrate regs pl011RegFbrdOffset).toNat < 64
  rounded : ((64 * (pl011Setbrt baudrate regs pl011RegIbrdOffset).toNat +
      (pl011Setbrt baudrate regs pl011RegFbrdOffset).toNat : ℕ) : ℤ) =
    round ((64 * pl011Clk.toNat : ℚ) / (16 * baudrate.toNat))

/-- The whole part of the divisor is one the register can be given. -/
def LegalRate (baudrate : UInt32) : Prop :=
  1 ≤ pl011Clk.toNat / (16 * baudrate.toNat) ∧
    pl011Clk.toNat / (16 * baudrate.toNat) ≤ 65535

section Divisor

variable {b q r n d : ℕ} {baudrate : UInt32} {regs : UartRegs}

/-- A quotient of natural numbers rounded. -/
theorem round_natCast_div (hd : 0 < d) :
    round ((n : ℚ) / d) = ((2 * n + d) / (2 * d) : ℕ) := by
  have hq : (d : ℚ) ≠ 0 := Nat.cast_ne_zero.2 hd.ne'
  have hsum : (n : ℚ) / d + 1 / 2 = ((2 * n + d : ℕ) : ℚ) / ((2 * d : ℕ) : ℚ) := by
    push_cast
    field_simp
  rw [round_eq, hsum, Rat.floor_natCast_div_natCast]
  rfl

/-- **The rounding**: the fraction rounded alone, on the whole part, is the
quotient rounded. -/
theorem round_parts (hb : 0 < b) :
    64 * q + (8 * r / b + 1) / 2 =
      (2 * (64 * (16 * b * q + r)) + 16 * b) / (2 * (16 * b)) := by
  have hnum : 2 * (64 * (16 * b * q + r)) + 16 * b = 16 * (8 * r + b + 2 * b * (64 * q)) := by ring
  have hden : 2 * (16 * b) = 16 * (2 * b) := by ring
  have hhalf : (8 * r / b + 1) / 2 = (8 * r + b) / (2 * b) := by
    rw [← Nat.add_div_right _ hb, Nat.div_div_eq_div_mul, Nat.mul_comm b 2]
  rw [hnum, hden, Nat.mul_div_mul_left _ _ (by decide), Nat.add_mul_div_left _ _ (by omega),
    hhalf, Nat.add_comm]

/-- The whole part of the divisor, and what is left, as they are computed. -/
theorem toNat_divisor (h : LegalRate baudrate) :
    0 < baudrate.toNat ∧ (16 * baudrate).toNat = 16 * baudrate.toNat ∧
    (pl011Remainder baudrate).toNat = pl011Clk.toNat % (16 * baudrate.toNat) := by
  have hclk : pl011Clk.toNat = 100000000 := rfl
  have hsixteen : (16 : UInt32).toNat = 16 := rfl
  have hpos : 0 < 16 * baudrate.toNat := by
    rcases Nat.eq_zero_or_pos (16 * baudrate.toNat) with hzero | hpos
    · have hone := h.1
      rw [hzero, Nat.div_zero] at hone
      omega
    · exact hpos
  have hle : 16 * baudrate.toNat ≤ pl011Clk.toNat := by
    have hmul := (Nat.le_div_iff_mul_le hpos).1 h.1
    omega
  have hmul : (16 * baudrate).toNat = 16 * baudrate.toNat := by
    rw [UInt32.toNat_mul, hsixteen, Nat.mod_eq_of_lt (by omega)]
  refine ⟨by omega, hmul, ?_⟩
  rw [pl011Remainder, UInt32.toNat_mod, hmul]

/-- The 128ths, as they are computed. -/
theorem toNat_temp (h : LegalRate baudrate) :
    (8 * pl011Remainder baudrate).toNat = 8 * (pl011Remainder baudrate).toNat ∧
    (pl011Temp baudrate).toNat =
      8 * (pl011Clk.toNat % (16 * baudrate.toNat)) / baudrate.toNat := by
  obtain ⟨hpos, -, hrem⟩ := toNat_divisor h
  have hclk : pl011Clk.toNat = 100000000 := rfl
  have height : (8 : UInt32).toNat = 8 := rfl
  have hle : (pl011Remainder baudrate).toNat ≤ pl011Clk.toNat := by
    rw [hrem]
    exact Nat.mod_le _ _
  have hmul : (8 * pl011Remainder baudrate).toNat = 8 * (pl011Remainder baudrate).toNat := by
    rw [UInt32.toNat_mul, height, Nat.mod_eq_of_lt (by omega)]
  refine ⟨hmul, ?_⟩
  rw [pl011Temp, UInt32.toNat_div, hmul, hrem]

variable (baudrate) in
/-- The 64ths, as they are computed: the 128ths halved and rounded. -/
theorem toNat_frac :
    (pl011Frac baudrate).toNat =
      (pl011Temp baudrate >>> 1).toNat + (pl011Temp baudrate &&& 1).toNat ∧
    (pl011Frac baudrate).toNat = ((pl011Temp baudrate).toNat + 1) / 2 := by
  have hlt := (pl011Temp baudrate).toNat_lt
  have hshift : (pl011Temp baudrate >>> 1).toNat = (pl011Temp baudrate).toNat / 2 := by
    rw [UInt32.toNat_shiftRight, Nat.shiftRight_eq_div_pow]
    rfl
  have hodd : (pl011Temp baudrate &&& 1).toNat = (pl011Temp baudrate).toNat % 2 := by
    rw [UInt32.toNat_and]
    exact Nat.and_one_is_mod _
  rw [pl011Frac, UInt32.toNat_add, hshift, hodd]
  omega

/-- The port is disabled while the divisor is set, which is what
`pl011_setbrt` makes it. -/
theorem vsUartSetbrt_of_ne {offset : UInt32} (h : offset ≠ pl011RegCrOffset) :
    vsUartSetbrt baudrate regs offset = pl011Setbrt baudrate regs offset := by
  rw [vsUartSetbrt, pl011Enable, writel, Function.update_of_ne h]
  simp only [pl011Setbrt, pl011Disable, writel, Function.update_apply, if_neg h]

variable (regs) in
/-- **The divisor is right** exactly where the fraction, rounded, does not
come to one whole. -/
theorem divisorRight_iff (h : LegalRate baudrate) : DivisorRight baudrate regs ↔
    8 * (pl011Clk.toNat % (16 * baudrate.toNat)) < 127 * baudrate.toNat := by
  obtain ⟨hpos, hmul, -⟩ := toNat_divisor h
  obtain ⟨hwrap, htemp⟩ := toNat_temp h
  obtain ⟨hsum, hfrac⟩ := toNat_frac baudrate
  have hibrd : (pl011Setbrt baudrate regs pl011RegIbrdOffset).toNat =
      pl011Clk.toNat / (16 * baudrate.toNat) := by
    rw [pl011Setbrt, writel, Function.update_of_ne (by decide), writel, Function.update_self,
      UInt32.toNat_div, hmul]
  have hfbrd : (pl011Setbrt baudrate regs pl011RegFbrdOffset).toNat =
      (8 * (pl011Clk.toNat % (16 * baudrate.toNat)) / baudrate.toNat + 1) / 2 := by
    rw [pl011Setbrt, writel, Function.update_self, hfrac, htemp]
  have hfits : (8 * (pl011Clk.toNat % (16 * baudrate.toNat)) / baudrate.toNat + 1) / 2 < 64 ↔
      8 * (pl011Clk.toNat % (16 * baudrate.toNat)) < 127 * baudrate.toNat := by
    rw [← Nat.div_lt_iff_lt_mul hpos]
    omega
  have hlegal := h.2
  constructor
  · intro hright
    have hlt := hright.fbrd
    rw [hfbrd] at hlt
    exact hfits.1 hlt
  · intro hlt
    refine ⟨⟨hmul, hwrap, hsum⟩, by rw [hibrd]; omega, ?_, ?_⟩
    · rw [hfbrd]
      exact hfits.2 hlt
    · have hround := round_natCast_div (n := 64 * pl011Clk.toNat) (d := 16 * baudrate.toNat)
        (by omega)
      rw [hibrd, hfbrd, round_parts hpos, Nat.div_add_mod]
      push_cast at hround ⊢
      exact hround.symm

end Divisor

/-- The rate the port is set to at first. -/
theorem divisorRight_default : DivisorRight 115200 fun _ => 0 :=
  (divisorRight_iff _ (by unfold LegalRate; decide)).2 (by decide)

/-- At 281 baud the fraction comes to 64 64ths, which the port is left
with. -/
theorem not_divisorRight :
    (¬ ∀ baudrate regs, LegalRate baudrate → DivisorRight baudrate regs) ∧
      pl011Setbrt 281 (fun _ => 0) pl011RegFbrdOffset = 64 ∧
      ∀ regs, vsUartSetbrt 281 regs pl011RegFbrdOffset = 64 := by
  have hlegal : LegalRate 281 := by
    unfold LegalRate
    decide
  refine ⟨fun hall => absurd (hall 281 (fun _ => 0) hlegal).fbrd (by decide), by decide,
    fun regs => ?_⟩
  rw [vsUartSetbrt_of_ne (by decide), pl011Setbrt, writel, Function.update_self]
  decide

end Amp

end ObcSdk
