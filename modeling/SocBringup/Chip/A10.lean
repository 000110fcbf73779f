import SocBringup.Chip.Description

/-! # The control unit of the A10 and A20

A flat description. -/

namespace SocBringup.Chip

namespace A10

/-- The wired clocks, by number. -/
def clocks : List (Nat × ClockEntry) := [
  (26, .bit 0x060 0), -- AHB OTG
  (27, .bit 0x060 1), -- AHB EHCI0
  (28, .bit 0x060 2), -- AHB OHCI0
  (29, .bit 0x060 3), -- AHB EHCI1
  (30, .bit 0x060 4), -- AHB OHCI1
  (34, .bit 0x060 8), -- AHB MMC0
  (35, .bit 0x060 9), -- AHB MMC1
  (36, .bit 0x060 10), -- AHB MMC2
  (37, .bit 0x060 11), -- AHB MMC3
  (103, .bit 0x0cc 6), -- USB OHCI0
  (104, .bit 0x0cc 7), -- USB OHCI1
  (105, .bit 0x0cc 8)] -- USB PHY

/-- The wired reset lines, by number. -/
def resets : List (Nat × Line) := [
  (1, .bit 0x0cc 0), -- USB PHY0
  (2, .bit 0x0cc 1), -- USB PHY1
  (3, .bit 0x0cc 2)] -- USB PHY2

end A10

/-- The A10 and A20. -/
def a10 : Chip where
  description := .flat (ClockEntry.table 106 A10.clocks) (Line.table 4 A10.resets)
  resetCount := 22

end SocBringup.Chip
