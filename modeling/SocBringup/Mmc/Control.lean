import SocBringup.Register.Field

/-! # The control register of an MMC module clock

One 32-bit word holds the divider, two phase delays, the source and the enable bit. The power-of-two
pre-divider lies in the same word at a place that depends on the chip and is not part of this view. -/

namespace SocBringup.Mmc

/-- The word of a module clock control register. -/
structure Control where
  word : UInt32 := 0
  deriving DecidableEq

namespace Control

/-- The divider, less one. -/
def dividerField : Field := { shift := 0, width := 4 }

/-- The phase delay of the output clock. -/
def outputDelayField : Field := { shift := 8, width := 3 }

/-- The phase delay of the sample clock. -/
def sampleDelayField : Field := { shift := 20, width := 3 }

/-- The number of the source. -/
def sourceField : Field := { shift := 24, width := 2 }

/-- The gate of the clock. -/
def enableField : Field := { shift := 31, width := 1 }

def divider (c : Control) : Nat := dividerField.raw c.word
def outputDelay (c : Control) : Nat := outputDelayField.raw c.word
def sampleDelay (c : Control) : Nat := sampleDelayField.raw c.word
def source (c : Control) : Nat := sourceField.raw c.word
def enabled (c : Control) : Bool := enableField.raw c.word ≠ 0

/-- The register with a field set, the contents cut to its width. -/
def store (c : Control) (f : Field) (contents : Nat) : Control := ⟨f.store c.word contents⟩

/-- The register with a field set to contents that are not cut. -/
def insert (c : Control) (f : Field) (contents : Nat) : Control := ⟨f.insert c.word contents⟩

/-- How a register is shown in messages. -/
def text (c : Control) : String :=
  s!"MmcClkReg \x7b .0: {c.word}, m: {c.divider}, oclk_dly: {c.outputDelay}, " ++
    s!"sclk_dly: {c.sampleDelay}, src: {c.source}, enable: {c.enabled} \x7d"

end Control

end SocBringup.Mmc
