import SocBringup.Chip.Description
import SocBringup.Fault

/-! # Reset controller

The operations on the reset lines of a chip, by number: request a line before using it, give it
back, hold the block behind it in reset, release it. Requests are checked against the number of
lines that the bindings declare; lines that are not wired are ignored. -/

namespace SocBringup.Chip

/-- Take the reset lines into service. -/
def bindResets (chip : Chip) : Program Registers Unit :=
  Registers.note (.resetBound chip.resetCount)

/-- Check that the bindings declare a line. -/
def requestReset (chip : Chip) (line : Nat) : Program Registers (Except Fault Unit) := do
  Registers.note (.resetRequested line)
  return if chip.resetCount ≤ line then .error .invalidArgument else .ok ()

/-- Give a line back. -/
def freeReset (_ : Chip) (line : Nat) : Program Registers (Except Fault Unit) := do
  Registers.note (.resetFreed line)
  return .ok ()

/-- Hold the block behind a line in reset. -/
def assertReset (chip : Chip) (line : Nat) : Program Registers (Except Fault Unit) := do
  chip.description.resets.switchReset line false
  return .ok ()

/-- Release the block behind a line from reset. -/
def deassertReset (chip : Chip) (line : Nat) : Program Registers (Except Fault Unit) := do
  chip.description.resets.switchReset line true
  return .ok ()

end SocBringup.Chip
