import SocBringup.Chip.Description

/-! # The control unit of the A64

A flat description. It has no reset lines. -/

namespace SocBringup.Chip

namespace A64

/-- The wired clocks, by number. -/
def clocks : List (Nat × ClockEntry) := [
  (42, .bit 0x060 23), -- bus OTG
  (43, .bit 0x060 24), -- bus EHCI0
  (44, .bit 0x060 25), -- bus EHCI1
  (45, .bit 0x060 28), -- bus OHCI0
  (46, .bit 0x060 29), -- bus OHCI1
  (86, .bit 0x0cc 8), -- USB PHY0
  (87, .bit 0x0cc 9), -- USB PHY1
  (88, .bit 0x0cc 10), -- USB HSIC
  (89, .bit 0x0cc 11), -- USB HSIC 12M
  (91, .bit 0x0cc 16), -- USB OHCI0
  (93, .bit 0x0cc 17)] -- USB OHCI1

end A64

/-- The A64. -/
def a64 : Chip where
  description := .flat (ClockEntry.table 94 A64.clocks) []
  resetCount := 0

end SocBringup.Chip
