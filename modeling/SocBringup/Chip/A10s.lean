import SocBringup.Chip.Description

/-! # The control unit of the A10s and A13

A typed description. There is no clock tree. -/

namespace SocBringup.Chip

namespace A10s

/-- The wired clock gates, by number. -/
def gates : List (Nat × Line) := [
  (20, .bit 0x060 0), -- AHB OTG
  (21, .bit 0x060 1), -- AHB EHCI
  (22, .bit 0x060 2), -- AHB OHCI
  (84, .bit 0x0cc 6), -- USB OHCI
  (85, .bit 0x0cc 8), -- USB PHY0
  (86, .bit 0x0cc 9)] -- USB PHY1

/-- The wired reset lines, by number. -/
def resets : List (Nat × Line) := [
  (1, .bit 0x0cc 0), -- USB PHY0
  (2, .bit 0x0cc 1)] -- USB PHY1

end A10s

/-- The A10s and A13. -/
def a10s : Chip where
  description := .typed none (Bank.ofList 87 A10s.gates) (Bank.ofList 3 A10s.resets)
  resetCount := 10

end SocBringup.Chip
