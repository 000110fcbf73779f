import SocBringup.Chip.Description

/-! # The control unit of the A31

A flat description. -/

namespace SocBringup.Chip

namespace A31

/-- The wired clocks, by number. -/
def clocks : List (Nat × ClockEntry) := [
  (22, .bit 0x060 8), -- AHB1 MMC0
  (23, .bit 0x060 9), -- AHB1 MMC1
  (24, .bit 0x060 10), -- AHB1 MMC2
  (25, .bit 0x060 12), -- AHB1 MMC3
  (34, .bit 0x060 24), -- AHB1 OTG
  (35, .bit 0x060 26), -- AHB1 EHCI0
  (36, .bit 0x060 27), -- AHB1 EHCI1
  (37, .bit 0x060 29), -- AHB1 OHCI0
  (38, .bit 0x060 30), -- AHB1 OHCI1
  (39, .bit 0x060 31), -- AHB1 OHCI2
  (86, .bit 0x0cc 8), -- USB PHY0
  (87, .bit 0x0cc 9), -- USB PHY1
  (88, .bit 0x0cc 10), -- USB PHY2
  (89, .bit 0x0cc 16), -- USB OHCI0
  (90, .bit 0x0cc 17), -- USB OHCI1
  (91, .bit 0x0cc 18)] -- USB OHCI2

/-- The wired reset lines, by number. -/
def resets : List (Nat × Line) := [
  (0, .bit 0x0cc 0), -- USB PHY0
  (1, .bit 0x0cc 1), -- USB PHY1
  (2, .bit 0x0cc 2), -- USB PHY2
  (11, .bit 0x2c0 24), -- AHB1 OTG
  (12, .bit 0x2c0 26), -- AHB1 EHCI0
  (13, .bit 0x2c0 27), -- AHB1 EHCI1
  (14, .bit 0x2c0 29), -- AHB1 OHCI0
  (15, .bit 0x2c0 30), -- AHB1 OHCI1
  (16, .bit 0x2c0 31)] -- AHB1 OHCI2

end A31

/-- The A31. -/
def a31 : Chip where
  description := .flat (ClockEntry.table 92 A31.clocks) (Line.table 17 A31.resets)
  resetCount := 56

end SocBringup.Chip
