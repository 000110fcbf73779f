import SocBringup.Clock.Rate

/-! # The peripheral PLL

The PLL that feeds MMC module clocks multiplies the main oscillator and divides the product in
steps. Its one control register is laid out differently on the generations of chips. -/

namespace SocBringup.Mmc

open Clock (Rate)

/-- The register layout of the peripheral PLL:
`rate = oscillator * n * k / div1 / div2 / postDivider * multiplier`. -/
structure Pll where
  offset : Nat
  n : Field
  k : Field
  div1 : Field
  div2 : Field
  postDivider : Nat
  multiplier : Nat

namespace Pll

/-- The layout of the A31, A23, H3 and V3s. -/
def sun6i : Pll where
  offset := 0x028
  n := { shift := 8, width := 5, offset := 1 }
  k := { shift := 4, width := 2, offset := 1 }
  div1 := .absent
  div2 := .absent
  postDivider := 2
  multiplier := 1

/-- The layout of the A83T. -/
def a83t : Pll where
  offset := 0x028
  n := { shift := 8, width := 8 }
  k := .absent
  div1 := { shift := 16, width := 1, offset := 1 }
  div2 := { shift := 18, width := 1, offset := 1 }
  postDivider := 1
  multiplier := 1

/-- The layout of the H6, where MMC is fed from the doubled output. -/
def h6 : Pll where
  offset := 0x020
  n := { shift := 8, width := 8, offset := 1 }
  k := .absent
  div1 := { shift := 0, width := 1, offset := 1 }
  div2 := { shift := 1, width := 1, offset := 1 }
  postDivider := 4
  multiplier := 2

/-- The rate of the PLL when its register holds `word`. -/
def rateOf (pll : Pll) (word : UInt32) : Rate :=
  let product := Rate.times Clock.mainOscillator (pll.n.value word * pll.k.value word)
  UInt64.ofNat (product.toNat / pll.div1.value word / pll.div2.value word / pll.postDivider *
    pll.multiplier)

/-- The rate of the PLL, from its register. -/
def rate (pll : Pll) : Program Registers Rate := do
  let word ← Registers.read pll.offset
  return pll.rateOf word

end Pll

end SocBringup.Mmc
