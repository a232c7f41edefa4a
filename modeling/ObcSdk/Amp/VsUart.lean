import Mathlib.Logic.Function.Basic
import Mathlib.Tactic.Common
/-!
# The serial port of the A53 core

`vs_uart.c`: how the PL011's baud rate is set. The registers are taken by
their offsets from the base address.
-/

namespace ObcSdk

namespace Amp

/-- The registers of the port, by offset. -/
abbrev UartRegs : Type := UInt32 → UInt32

/-- `PL011_CLK`. -/
def pl011Clk : UInt32 := 100000000
/-- `PL011_REG_IBRD_OFFSET`. -/
def pl011RegIbrdOffset : UInt32 := 0x24
/-- `PL011_REG_FBRD_OFFSET`. -/
def pl011RegFbrdOffset : UInt32 := 0x28
/-- `PL011_REG_CR_OFFSET`. -/
def pl011RegCrOffset : UInt32 := 0x30
/-- `PL011_CR_RXE`. -/
def pl011CrRxe : UInt32 := 0x200
/-- `PL011_CR_TXE`. -/
def pl011CrTxe : UInt32 := 0x100
/-- `PL011_CR_UARTEN`. -/
def pl011CrUarten : UInt32 := 0x1

/-- `writel`. -/
def writel (val offset : UInt32) (regs : UartRegs) : UartRegs := Function.update regs offset val

/-- `remainder`: what is left of the clock by the whole part of the divisor. -/
def pl011Remainder (baudrate : UInt32) : UInt32 := pl011Clk % (16 * baudrate)

/-- `temp`: the fraction of the divisor in 128ths. -/
def pl011Temp (baudrate : UInt32) : UInt32 := 8 * pl011Remainder baudrate / baudrate

/-- `frac`: the fraction of the divisor in 64ths. -/
def pl011Frac (baudrate : UInt32) : UInt32 :=
  (pl011Temp baudrate >>> 1) + (pl011Temp baudrate &&& 1)

/-- `pl011_setbrt`. -/
def pl011Setbrt (baudrate : UInt32) (regs : UartRegs) : UartRegs :=
  let div := pl011Clk / (16 * baudrate)
  writel (pl011Frac baudrate) pl011RegFbrdOffset (writel div pl011RegIbrdOffset regs)

/-- `pl011_enable`. -/
def pl011Enable : UartRegs → UartRegs :=
  writel (pl011CrUarten ||| pl011CrTxe ||| pl011CrRxe) pl011RegCrOffset

/-- `pl011_disable`. -/
def pl011Disable : UartRegs → UartRegs := writel 0 pl011RegCrOffset

/-- `vs_uart_setbrt`. -/
def vsUartSetbrt (bdr : UInt32) (regs : UartRegs) : UartRegs :=
  pl011Enable (pl011Setbrt bdr (pl011Disable regs))

end Amp

end ObcSdk
