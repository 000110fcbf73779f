import SocBringup.Chip.Description

/-! # The control unit of the A23

A flat description. -/

namespace SocBringup.Chip

namespace A23

/-- The wired clocks, by number. -/
def clocks : List (Nat × ClockEntry) := [
  (36, .bit 0x060 24), -- bus OTG
  (37, .bit 0x060 26), -- bus EHCI
  (38, .bit 0x060 29), -- bus OHCI
  (70, .bit 0x0cc 8), -- USB PHY0
  (71, .bit 0x0cc 9), -- USB PHY1
  (72, .bit 0x0cc 10), -- USB HSIC
  (73, .bit 0x0cc 11), -- USB HSIC 12M
  (74, .bit 0x0cc 16)] -- USB OHCI

/-- The wired reset lines, by number. -/
def resets : List (Nat × Line) := [
  (0, .bit 0x0cc 0), -- USB PHY0
  (1, .bit 0x0cc 1), -- USB PHY1
  (2, .bit 0x0cc 2), -- USB HSIC
  (7, .bit 0x2c0 24), -- bus OTG
  (8, .bit 0x2c0 26), -- bus EHCI
  (9, .bit 0x2c0 29)] -- bus OHCI

end A23

/-- The A23. -/
def a23 : Chip where
  description := .flat (ClockEntry.table 75 A23.clocks) (Line.table 10 A23.resets)
  resetCount := 39

end SocBringup.Chip
