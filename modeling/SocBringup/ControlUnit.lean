import SocBringup.Controller.Clock
import SocBringup.Controller.Reset
import SocBringup.Device

/-! # Control units in service

A control unit is put in service when the clock driver or the reset driver is probed with its device.
Both share the register window of the device. -/

namespace SocBringup

/-- A control unit in service: the address of its register window and its chip. -/
structure ControlUnit where
  base : Nat
  chip : Chip

namespace ControlUnit

/-- Set up the clock controller of a device. -/
def setUpClocks (device : Device) (entry : Match Chip) :
    Program Registers (Except Fault ControlUnit) :=
  return (device.resources entry).map fun (base, chip) => ⟨base, chip⟩

/-- Set up the reset controller of a device. -/
def setUpResets (device : Device) (entry : Match Chip) :
    Program Registers (Except Fault ControlUnit) :=
  match device.resources entry with
  | .error fault => return .error fault
  | .ok (base, chip) => do
    chip.bindResets
    return .ok ⟨base, chip⟩

end ControlUnit

end SocBringup
