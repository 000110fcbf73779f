import SocBringup.Chip.Description

/-! # The control unit of the H3 and H5

A flat description. -/

namespace SocBringup.Chip

namespace H3

/-- The bus gate of SPI0. -/
def busSpi0 : Nat := 30

/-- The bus gate of SPI1. -/
def busSpi1 : Nat := 31

/-- The module clock of SPI0. -/
def spi0 : Nat := 82

/-- The module clock of SPI1. -/
def spi1 : Nat := 83

/-- The reset line of SPI0. -/
def resetSpi0 : Nat := 15

/-- The reset line of SPI1. -/
def resetSpi1 : Nat := 16

/-- The wired clocks, by number. -/
def clocks : List (Nat × ClockEntry) := [
  (22, .bit 0x060 8), -- bus MMC0
  (23, .bit 0x060 9), -- bus MMC1
  (24, .bit 0x060 10), -- bus MMC2
  (busSpi0, .bit 0x060 20), -- bus SPI0
  (busSpi1, .bit 0x060 21), -- bus SPI1
  (32, .bit 0x060 23), -- bus OTG
  (33, .bit 0x060 24), -- bus EHCI0
  (34, .bit 0x060 25), -- bus EHCI1
  (35, .bit 0x060 26), -- bus EHCI2
  (36, .bit 0x060 27), -- bus EHCI3
  (37, .bit 0x060 28), -- bus OHCI0
  (38, .bit 0x060 29), -- bus OHCI1
  (39, .bit 0x060 30), -- bus OHCI2
  (40, .bit 0x060 31), -- bus OHCI3
  (71, .mmc 0x088 .sun6i), -- MMC0
  (74, .mmc 0x08c .sun6i), -- MMC1
  (77, .mmc 0x090 .sun6i), -- MMC2
  (spi0, .bit 0x0a0 31), -- SPI0
  (spi1, .bit 0x0a4 31), -- SPI1
  (88, .bit 0x0cc 8), -- USB PHY0
  (89, .bit 0x0cc 9), -- USB PHY1
  (90, .bit 0x0cc 10), -- USB PHY2
  (91, .bit 0x0cc 11), -- USB PHY3
  (92, .bit 0x0cc 16), -- USB OHCI0
  (93, .bit 0x0cc 17), -- USB OHCI1
  (94, .bit 0x0cc 18), -- USB OHCI2
  (95, .bit 0x0cc 19)] -- USB OHCI3

/-- The wired reset lines, by number. -/
def resets : List (Nat × Line) := [
  (0, .bit 0x0cc 0), -- USB PHY0
  (1, .bit 0x0cc 1), -- USB PHY1
  (2, .bit 0x0cc 2), -- USB PHY2
  (3, .bit 0x0cc 3), -- USB PHY3
  (7, .bit 0x2c0 8), -- bus MMC0
  (8, .bit 0x2c0 9), -- bus MMC1
  (9, .bit 0x2c0 10), -- bus MMC2
  (resetSpi0, .bit 0x2c0 20), -- bus SPI0
  (resetSpi1, .bit 0x2c0 21), -- bus SPI1
  (17, .bit 0x2c0 23), -- bus OTG
  (18, .bit 0x2c0 24), -- bus EHCI0
  (19, .bit 0x2c0 25), -- bus EHCI1
  (20, .bit 0x2c0 26), -- bus EHCI2
  (21, .bit 0x2c0 27), -- bus EHCI3
  (22, .bit 0x2c0 28), -- bus OHCI0
  (23, .bit 0x2c0 29), -- bus OHCI1
  (24, .bit 0x2c0 30), -- bus OHCI2
  (25, .bit 0x2c0 31)] -- bus OHCI3

end H3

/-- The H3 and H5. -/
def h3 : Chip where
  description := .flat (ClockEntry.table 96 H3.clocks) (Line.table 26 H3.resets)
  resetCount := 53

end SocBringup.Chip
