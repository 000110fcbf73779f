import SocBringup.Chip.Description
import SocBringup.Clock.Rate

/-! # Clock controller

The operations on the clocks of a chip, by number: open or close a gate, ask for a rate, set one.
Gates that are not wired are ignored. A rate is known where the chip has a clock tree and can be set
where the clock has a setter; elsewhere it is reported as zero. -/

namespace SocBringup.Chip

/-- Open the gate of a clock. -/
def enableClock (chip : Chip) (clock : Nat) : Program Registers (Except Fault Unit) := do
  chip.description.gates.switchGate clock true
  return .ok ()

/-- Close the gate of a clock. -/
def disableClock (chip : Chip) (clock : Nat) : Program Registers (Except Fault Unit) := do
  chip.description.gates.switchGate clock false
  return .ok ()

/-- The rate of a clock, zero if it cannot be determined. -/
def clockRate (chip : Chip) (clock : Nat) : Program Registers Clock.Rate :=
  match chip.description.tree? with
  | some tree => tree.rate clock
  | none => Clock.Tree.withoutRate (.noClockTree clock)

/-- Nothing is set, and the rate answered is zero. -/
def rateNotSet (reason : Diagnostic) : Program Registers (Except Fault Clock.Rate) := do
  Registers.note reason
  return .ok 0

/-- Set the rate of a clock. The answer is the rate it now has, or zero if its rate cannot be set.
An entry with an empty gate mask may have a setter all the same. -/
def setClockRate (chip : Chip) (clock : Nat) (rate : Clock.Rate) :
    Program Registers (Except Fault Clock.Rate) :=
  match chip.description with
  | .typed .. => rateNotSet (.rateNotSettable clock)
  | .flat clocks _ =>
    match clocks[clock]? with
    | none => rateNotSet (.clockUnknown clock)
    | some entry =>
      match entry.setter with
      | none => rateNotSet (.rateNotSettable clock)
      | some setter => setter.setRate entry.gate.offset rate

end SocBringup.Chip
