import SocBringup.Chip.Description

/-! # The control unit of the V3s

A flat description. -/

namespace SocBringup.Chip

namespace V3s

/-- The wired clocks, by number. -/
def clocks : List (Nat × ClockEntry) := [
  (18, .bit 0x060 8), -- bus MMC0
  (19, .bit 0x060 9), -- bus MMC1
  (20, .bit 0x060 10), -- bus MMC2
  (23, .bit 0x060 20), -- bus SPI0
  (24, .bit 0x060 24), -- bus OTG
  (42, .mmc 0x088 .sun6i), -- MMC0
  (45, .mmc 0x08c .sun6i), -- MMC1
  (48, .mmc 0x090 .sun6i), -- MMC2
  (51, .bit 0x0a0 31), -- SPI0
  (52, .bit 0x0cc 8)] -- USB PHY0

/-- The wired reset lines, by number. -/
def resets : List (Nat × Line) := [
  (0, .bit 0x0cc 0), -- USB PHY0
  (7, .bit 0x2c0 8), -- bus MMC0
  (8, .bit 0x2c0 9), -- bus MMC1
  (9, .bit 0x2c0 10), -- bus MMC2
  (12, .bit 0x2c0 20), -- bus SPI0
  (13, .bit 0x2c0 24)] -- bus OTG

end V3s

/-- The V3s. -/
def v3s : Chip where
  description := .flat (ClockEntry.table 53 V3s.clocks) (Line.table 14 V3s.resets)
  resetCount := 53

end SocBringup.Chip
