/-! # SPI mode and framing

How a slave wants the bus clocked, and what a transfer does with the chip select before and after
it. Both have a numeric form, one bit per property. -/

namespace SocBringup.Spi

/-- Clock and bit order of a slave. -/
structure Mode where
  /-- Sample on the trailing edge. -/
  trailingEdge : Bool := false
  /-- The clock idles high. -/
  idleHigh : Bool := false
  /-- The chip select is active high. -/
  selectHigh : Bool := false
  /-- The least significant bit goes first. -/
  lsbFirst : Bool := false
  deriving DecidableEq

namespace Mode

/-- The four usual modes, by number: bit 0 is the edge, bit 1 the idle level. -/
def preset (number : Nat) : Mode :=
  { trailingEdge := number.testBit 0, idleHigh := number.testBit 1 }

/-- The mode as a number, one bit per property. -/
def bits (m : Mode) : Nat :=
  m.trailingEdge.toNat + 2 * m.idleHigh.toNat + 4 * m.selectHigh.toNat + 8 * m.lsbFirst.toNat

/-- How a mode is shown in messages. -/
def text (m : Mode) : String :=
  s!"SpiMode \x7b .0: {m.bits}, cpha: {m.trailingEdge}, cpol: {m.idleHigh}, " ++
    s!"cs_high: {m.selectHigh}, lsb_first: {m.lsbFirst} \x7d"

end Mode

/-- What a transfer does with the chip select. -/
structure Framing where
  /-- Select the slave before the transfer. -/
  opens : Bool := false
  /-- Deselect the slave after the transfer. -/
  closes : Bool := false
  deriving DecidableEq

namespace Framing

/-- The first transfer of a transaction. -/
def opening : Framing := { opens := true }

/-- The last transfer of a transaction. -/
def closing : Framing := { closes := true }

/-- A transfer that is a whole transaction. -/
def whole : Framing := { opens := true, closes := true }

/-- The framing as a number, one bit per property. -/
def bits (f : Framing) : Nat := f.opens.toNat + 2 * f.closes.toNat

/-- How a framing is shown in messages. -/
def text (f : Framing) : String :=
  s!"SpiXferFlags \x7b .0: {f.bits}, begin: {f.opens}, end: {f.closes} \x7d"

end Framing

end SocBringup.Spi
