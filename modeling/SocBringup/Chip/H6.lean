import SocBringup.Chip.Description

/-! # The control unit of the H6

A flat description. -/

namespace SocBringup.Chip

namespace H6

/-- The wired clocks, by number. -/
def clocks : List (Nat × ClockEntry) := [
  (64, .mmc 0x830 .h6), -- MMC0
  (65, .mmc 0x834 .h6), -- MMC1
  (66, .mmc 0x838 .h6), -- MMC2
  (67, .bit 0x84c 0), -- bus MMC0
  (68, .bit 0x84c 1), -- bus MMC1
  (69, .bit 0x84c 2)] -- bus MMC2

/-- The wired reset lines, by number. -/
def resets : List (Nat × Line) := [
  (18, .bit 0x84c 16), -- bus MMC0
  (19, .bit 0x84c 17), -- bus MMC1
  (20, .bit 0x84c 18)] -- bus MMC2

end H6

/-- The H6. -/
def h6 : Chip where
  description := .flat (ClockEntry.table 70 H6.clocks) (Line.table 21 H6.resets)
  resetCount := 62

end SocBringup.Chip
