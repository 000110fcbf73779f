import SocBringup.Chip.Description

/-! # The control unit of the R40

A typed description with a clock tree. The tree has the peripheral PLLs, the buses AHB1 and APB2 and
the module clocks of MMC and SPI; bus gates hang on the bus that feeds them. -/

namespace SocBringup.Chip

open Clock (Node)

namespace R40

/-! ### Clock numbers -/

def pllPeriph0 : Nat := 11
def pllPeriph1 : Nat := 13
def axi : Nat := 25
def ahb1 : Nat := 26
def apb1 : Nat := 27
def apb2 : Nat := 28

/-- The number of clocks in the bindings; the numbers from here on are internal. -/
def clockCount : Nat := 155

def mainOscillator : Nat := clockCount
def slowOscillator : Nat := clockCount + 1

/-- The peripheral PLL behind the pre-divider of AHB1. -/
def ahb1Pll : Nat := clockCount + 2

/-! ### The clock tree -/

/-- The multiplier of the peripheral PLLs. -/
def pllN : Field := { shift := 8, width := 5, offset := 1 }

/-- The second multiplier of the peripheral PLLs, at least two. -/
def pllK : Field := { shift := 4, width := 2, offset := 1, min := 2 }

/-- A peripheral PLL, whose output is halved. -/
def pll (offset : Nat) : Node :=
  .postDivided { offset, n := pllN, k := pllK, postDivider := 2, parent := mainOscillator }

/-- A module clock: an oscillator or a peripheral PLL, halved and divided. -/
def moduleClock (offset : Nat) : Node :=
  .ready (.divider {
    offset
    m := { shift := 0, width := 4, offset := 1 }
    p := { shift := 16, width := 2 }
    mux := { shift := 24, width := 2 }
    parents := [mainOscillator, pllPeriph0, pllPeriph1] })

/-- The pre-divider of AHB1, which applies to its PLL input only. -/
def ahb1PllNode : Node :=
  .ready (.divider {
    offset := 0x054
    m := { shift := 6, width := 2, offset := 1 }
    p := .absent
    mux := .absent
    parents := [pllPeriph0] })

def ahb1Node : Node :=
  .ready (.divider {
    offset := 0x054
    m := .absent
    p := { shift := 4, width := 2 }
    mux := { shift := 12, width := 2 }
    parents := [slowOscillator, mainOscillator, axi, ahb1Pll] })

/-- APB1 divides by two for the contents 0 and 1 alike, which no divider field says; the node is not
in use. -/
def apb1Node : Node :=
  .pending (.ready (.divider {
    offset := 0x054
    m := .absent
    p := { shift := 8, width := 2 }
    mux := .absent
    parents := [ahb1] }))

def apb2Node : Node :=
  .ready (.divider {
    offset := 0x058
    m := { shift := 0, width := 5, offset := 1 }
    p := { shift := 16, width := 2 }
    mux := { shift := 24, width := 2 }
    parents := [slowOscillator, mainOscillator, pllPeriph0, pllPeriph0] })

/-- A clock that runs at the rate of another. -/
def fedBy (parent : Nat) : Node := .ready (.copyOf parent)

/-- The nodes of the tree, by number. -/
def nodes : List (Nat × Node) := [
  (mainOscillator, .ready (.fixed Clock.mainOscillator)),
  (slowOscillator, .ready (.fixed Clock.slowOscillator)),
  (pllPeriph0, pll 0x028),
  (pllPeriph1, pll 0x02c),
  (ahb1Pll, ahb1PllNode),
  (ahb1, ahb1Node),
  (apb1, apb1Node),
  (apb2, apb2Node),
  (39, fedBy ahb1), -- bus MMC0
  (40, fedBy ahb1), -- bus MMC1
  (41, fedBy ahb1), -- bus MMC2
  (42, fedBy ahb1), -- bus MMC3
  (47, fedBy ahb1), -- bus SPI0
  (48, fedBy ahb1), -- bus SPI1
  (49, fedBy ahb1), -- bus SPI2
  (50, fedBy ahb1), -- bus SPI3
  (52, fedBy ahb1), -- bus OTG
  (53, fedBy ahb1), -- bus EHCI0
  (54, fedBy ahb1), -- bus EHCI1
  (55, fedBy ahb1), -- bus EHCI2
  (56, fedBy ahb1), -- bus OHCI0
  (57, fedBy ahb1), -- bus OHCI1
  (58, fedBy ahb1), -- bus OHCI2
  (97, fedBy apb2), -- bus UART0
  (127, moduleClock 0x088), -- MMC0
  (128, moduleClock 0x08c), -- MMC1
  (129, moduleClock 0x090), -- MMC2
  (130, moduleClock 0x094), -- MMC3
  (133, moduleClock 0x0a0), -- SPI0
  (134, moduleClock 0x0a4), -- SPI1
  (135, moduleClock 0x0a8), -- SPI2
  (136, moduleClock 0x0ac), -- SPI3
  (140, fedBy mainOscillator), -- USB PHY0
  (141, fedBy mainOscillator), -- USB PHY1
  (142, fedBy mainOscillator), -- USB PHY2
  (143, fedBy mainOscillator), -- USB OHCI0
  (144, fedBy mainOscillator), -- USB OHCI1
  (145, fedBy mainOscillator)] -- USB OHCI2

/-- The clock tree. -/
def tree : Clock.Tree := .ofList 158 nodes

/-! ### Gates and reset lines -/

/-- The wired clock gates, by number. -/
def gates : List (Nat × Line) := [
  (39, .bit 0x060 8), -- bus MMC0
  (40, .bit 0x060 9), -- bus MMC1
  (41, .bit 0x060 10), -- bus MMC2
  (42, .bit 0x060 11), -- bus MMC3
  (47, .bit 0x060 20), -- bus SPI0
  (48, .bit 0x060 21), -- bus SPI1
  (49, .bit 0x060 22), -- bus SPI2
  (50, .bit 0x060 23), -- bus SPI3
  (52, .bit 0x060 25), -- bus OTG
  (53, .bit 0x060 26), -- bus EHCI0
  (54, .bit 0x060 27), -- bus EHCI1
  (55, .bit 0x060 28), -- bus EHCI2
  (56, .bit 0x060 29), -- bus OHCI0
  (57, .bit 0x060 30), -- bus OHCI1
  (58, .bit 0x060 31), -- bus OHCI2
  (97, .bit 0x06c 16), -- bus UART0
  (127, .bit 0x088 31), -- MMC0
  (128, .bit 0x08c 31), -- MMC1
  (129, .bit 0x090 31), -- MMC2
  (130, .bit 0x094 31), -- MMC3
  (133, .bit 0x0a0 31), -- SPI0
  (134, .bit 0x0a4 31), -- SPI1
  (135, .bit 0x0a8 31), -- SPI2
  (136, .bit 0x0ac 31), -- SPI3
  (140, .bit 0x0cc 8), -- USB PHY0
  (141, .bit 0x0cc 9), -- USB PHY1
  (142, .bit 0x0cc 10), -- USB PHY2
  (143, .bit 0x0cc 16), -- USB OHCI0
  (144, .bit 0x0cc 17), -- USB OHCI1
  (145, .bit 0x0cc 18)] -- USB OHCI2

/-- The wired reset lines, by number. -/
def resets : List (Nat × Line) := [
  (0, .bit 0x0cc 0), -- USB PHY0
  (1, .bit 0x0cc 1), -- USB PHY1
  (2, .bit 0x0cc 2), -- USB PHY2
  (14, .bit 0x2c0 8), -- bus MMC0
  (15, .bit 0x2c0 9), -- bus MMC1
  (16, .bit 0x2c0 10), -- bus MMC2
  (17, .bit 0x2c0 11), -- bus MMC3
  (23, .bit 0x2c0 20), -- bus SPI0
  (24, .bit 0x2c0 21), -- bus SPI1
  (25, .bit 0x2c0 22), -- bus SPI2
  (26, .bit 0x2c0 23), -- bus SPI3
  (28, .bit 0x2c0 25), -- bus OTG
  (29, .bit 0x2c0 26), -- bus EHCI0
  (30, .bit 0x2c0 27), -- bus EHCI1
  (31, .bit 0x2c0 28), -- bus EHCI2
  (32, .bit 0x2c0 29), -- bus OHCI0
  (33, .bit 0x2c0 30), -- bus OHCI1
  (34, .bit 0x2c0 31), -- bus OHCI2
  (68, .bit 0x2d8 16)] -- bus UART0

end R40

/-- The R40. -/
def r40 : Chip where
  description := .typed (some R40.tree) (Bank.ofList 146 R40.gates) (Bank.ofList 69 R40.resets)
  resetCount := 80

end SocBringup.Chip
