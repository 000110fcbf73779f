import SocBringup.Chip.Description

/-! # The control unit of the A83T

A flat description. -/

namespace SocBringup.Chip

namespace A83t

/-- The wired clocks, by number. -/
def clocks : List (Nat × ClockEntry) := [
  (19, .bit 0x060 8), -- bus MMC0
  (20, .bit 0x060 9), -- bus MMC1
  (21, .bit 0x060 10), -- bus MMC2
  (27, .bit 0x060 17), -- bus EMAC
  (30, .bit 0x060 24), -- bus OTG
  (31, .bit 0x060 26), -- bus EHCI0
  (32, .bit 0x060 27), -- bus EHCI1
  (33, .bit 0x060 29), -- bus OHCI0
  (56, .bit 0x06c 16), -- bus UART0
  (57, .bit 0x06c 17), -- bus UART1
  (58, .bit 0x06c 18), -- bus UART2
  (59, .bit 0x06c 19), -- bus UART3
  (60, .bit 0x06c 20), -- bus UART4
  (71, .mmc 0x088 .a83t), -- MMC0
  (74, .mmc 0x08c .a83t), -- MMC1
  (77, .mmc 0x090 .a83t), -- MMC2
  (80, .bit 0x0cc 8), -- USB PHY0
  (81, .bit 0x0cc 9), -- USB PHY1
  (82, .bit 0x0cc 10), -- USB HSIC
  (83, .bit 0x0cc 11), -- USB HSIC 12M
  (84, .bit 0x0cc 16)] -- USB OHCI0

/-- The wired reset lines, by number. -/
def resets : List (Nat × Line) := [
  (0, .bit 0x0cc 0), -- USB PHY0
  (1, .bit 0x0cc 1), -- USB PHY1
  (2, .bit 0x0cc 2), -- USB HSIC
  (7, .bit 0x2c0 8), -- bus MMC0
  (8, .bit 0x2c0 9), -- bus MMC1
  (9, .bit 0x2c0 10), -- bus MMC2
  (17, .bit 0x2c0 24), -- bus OTG
  (18, .bit 0x2c0 26), -- bus EHCI0
  (19, .bit 0x2c0 27), -- bus EHCI1
  (20, .bit 0x2c0 29), -- bus OHCI0
  (33, .bit 0x2d8 16), -- bus UART0
  (34, .bit 0x2d8 17), -- bus UART1
  (35, .bit 0x2d8 18), -- bus UART2
  (36, .bit 0x2d8 19), -- bus UART3
  (37, .bit 0x2d8 20)] -- bus UART4

end A83t

/-- The A83T. -/
def a83t : Chip where
  description := .flat (ClockEntry.table 85 A83t.clocks) (Line.table 38 A83t.resets)
  resetCount := 44

end SocBringup.Chip
