import SocBringup.Chip.A10
import SocBringup.Chip.A10s
import SocBringup.Chip.A23
import SocBringup.Chip.A31
import SocBringup.Chip.A64
import SocBringup.Chip.A83t
import SocBringup.Chip.H3
import SocBringup.Chip.H6
import SocBringup.Chip.R40
import SocBringup.Chip.V3s
import SocBringup.Device

/-! # The catalog of chips and the drivers of their control units

Every compatible string of a control unit, with its chip. The clock driver and the reset driver bind
to the same strings. -/

namespace SocBringup.Chip

/-- Every compatible string of a control unit, with its chip. -/
def catalog : List (Match Chip) := [
  ⟨"allwinner,sun4i-a10-ccu", some a10⟩,
  ⟨"allwinner,sun7i-a20-ccu", some a10⟩,
  ⟨"allwinner,sun5i-a10s-ccu", some a10s⟩,
  ⟨"allwinner,sun5i-a13-ccu", some a10s⟩,
  ⟨"allwinner,sun8i-a23-ccu", some a23⟩,
  ⟨"allwinner,sun6i-a31-ccu", some a31⟩,
  ⟨"allwinner,sun50i-a64-ccu", some a64⟩,
  ⟨"allwinner,sun8i-a83t-ccu", some a83t⟩,
  ⟨"allwinner,sun8i-h3-ccu", some h3⟩,
  ⟨"allwinner,sun50i-h5-ccu", some h3⟩,
  ⟨"allwinner,sun50i-h6-ccu", some h6⟩,
  ⟨"allwinner,sun8i-r40-ccu", some r40⟩,
  ⟨"allwinner,sun8i-v3s-ccu", some v3s⟩]

/-- The driver of clock controllers. -/
def clockDriver : Driver Chip := ⟨"sunxi_ccu", .clock, catalog⟩

/-- The driver of reset controllers. -/
def resetDriver : Driver Chip := ⟨"sunxi_reset", .reset, catalog⟩

end SocBringup.Chip
