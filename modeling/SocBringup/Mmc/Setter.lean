import SocBringup.Fault
import SocBringup.Mmc.Control
import SocBringup.Mmc.Pll

/-! # Setting the rate of an MMC module clock

The clock is fed by the main oscillator for requests up to its rate, by the peripheral PLL above.
The source is divided by a power of two and then by a number up to sixteen, chosen so that the
request is not exceeded. Fast clocks need phase delays, unless the controller runs in the new timing
mode.

* `Setter.encode`: the setting for a request, given the rate of the PLL.
* `Setter.setRate`: the same, programmed into the register of the clock. -/

namespace SocBringup.Mmc

open Clock (Rate mainOscillator)

/-- How the module clocks of a chip generation are programmed. -/
structure Setter where
  pll : Pll
  /-- Where the exponent of the pre-divider lies in the control register. -/
  preDivider : Field
  /-- The controllers run in the new timing mode and need no phase delays. -/
  newTiming : Bool

/-- A control register and the rate it gives. -/
structure Setting where
  control : Control
  rate : Rate

/-- Why there is no setting for a request. -/
inductive Refusal where
  | zeroRate
  /-- The source is too fast for every divider. -/
  | unreachable (requested source : Rate)

/-- The report of a refusal. -/
def Refusal.diagnostic : Refusal → Diagnostic
  | zeroRate => .mmcZeroRate
  | unreachable requested source => .mmcUnreachable requested source

/-- The number of the oscillator in the source field. -/
def oscillatorSource : Nat := 0

/-- The number of the peripheral PLL in the source field. -/
def pllSource : Nat := 1

/-- The largest divider. -/
def maxDivider : Nat := 16

/-- The largest exponent of the pre-divider. -/
def maxExponent : Nat := 3

/-- The exponent and divider for a ratio: it is halved, rounding up, until it fits the divider. -/
def halve (exponent ratio : Nat) : Nat × Nat :=
  if maxDivider < ratio then halve (exponent + 1) ((ratio + 1) / 2) else (exponent, ratio)
termination_by ratio
decreasing_by unfold maxDivider at *; omega

/-- The phase delays, output and sample, for a rate. -/
def delays (rate : Rate) : Nat × Nat :=
  if rate ≤ 400000 then (0, 0)
  else if rate ≤ 25000000 then (0, 5)
  else if rate ≤ 52000000 then (3, 4)
  else (1, 4)

namespace Setter

/-- The pre-divider of the generations up to the A83T. -/
def sun6iPreDivider : Field := { shift := 16, width := 2 }

/-- The pre-divider of the H6, in the place of a phase delay. -/
def h6PreDivider : Field := { shift := 8, width := 2 }

def sun6i : Setter := ⟨.sun6i, sun6iPreDivider, false⟩
def a83t : Setter := ⟨.a83t, sun6iPreDivider, false⟩
def h6 : Setter := ⟨.h6, h6PreDivider, true⟩

/-- The exponent of the pre-divider that a control register holds. -/
def exponent (s : Setter) (c : Control) : Nat := s.preDivider.raw c.word

/-- The source for a request: its number, and its rate given that of the PLL. -/
def source (pllRate requested : Rate) : Nat × Rate :=
  if requested ≤ mainOscillator then (oscillatorSource, mainOscillator) else (pllSource, pllRate)

/-- The control register for a source, exponent, divider and request. -/
def control (s : Setter) (source exponent divider : Nat) (requested : Rate) : Control :=
  let c := ((({} : Control).store Control.enableField 1).store Control.sourceField source)
  let c := (c.insert s.preDivider exponent).store Control.dividerField (divider - 1)
  if s.newTiming then c
  else (c.store Control.outputDelayField (delays requested).1).store Control.sampleDelayField
    (delays requested).2

/-- The setting for a requested rate, given the rate of the PLL. The ratio of source and request is
rounded up in 64-bit arithmetic, which wraps. -/
def encode (s : Setter) (pllRate requested : Rate) : Except Refusal Setting :=
  if requested = 0 then .error .zeroRate
  else
    let (number, sourceRate) := source pllRate requested
    let (exponent, ratio) := halve 0 ((sourceRate + requested - 1) / requested).toNat
    if maxExponent < exponent then .error (.unreachable requested sourceRate)
    else
      let divider := Nat.max ratio 1
      .ok ⟨s.control number exponent divider requested,
        UInt64.ofNat ((sourceRate.toNat >>> exponent) / divider)⟩

/-- The setting for a requested rate, with a report if there is none. -/
def choose (s : Setter) (pllRate requested : Rate) : Program Registers (Except Fault Setting) :=
  match s.encode pllRate requested with
  | .ok setting => return .ok setting
  | .error refusal => do
    Registers.note refusal.diagnostic
    return .error .invalidArgument

/-- Program the clock whose control register is at `offset`. The PLL is read only where it is the
source, and the register is written once. -/
def setRate (s : Setter) (offset : Nat) (requested : Rate) :
    Program Registers (Except Fault Rate) := do
  let pllRate ← if mainOscillator < requested then s.pll.rate else pure mainOscillator
  match ← s.choose pllRate requested with
  | .error fault => return .error fault
  | .ok setting =>
    Registers.note (.mmcProgrammed offset requested setting.rate setting.control)
    Registers.write offset setting.control.word
    return .ok setting.rate

end Setter

end SocBringup.Mmc
