import SocBringup.Fault
import SocBringup.Register.Space

/-! # Devices and drivers

A device has a name, a compatible string and perhaps the address of a register window. A driver
lists the compatible strings it binds to, each with or without data. Probing a device finds the
first entry with the device's string and hands the entry on to what sets the device up. -/

namespace SocBringup

/-- A device: its name, the string that says what it is compatible with, and the start of its
register window if it has one. -/
structure Device where
  name : String
  compatible : String
  base : Option Nat := none
  deriving DecidableEq

/-- The class of a driver. -/
inductive DriverClass where
  | root
  | clock
  | reset
  | spi
  deriving DecidableEq

/-- The number of a driver class. -/
def DriverClass.number : DriverClass → Nat
  | root => 0
  | clock => 1
  | reset => 2
  | spi => 3

/-- A compatible string a driver binds to, with the data for it. -/
structure Match (δ : Type) where
  compatible : String
  data : Option δ := none

/-- A driver, with the compatible strings it binds to in order. -/
structure Driver (δ : Type) where
  name : String
  driverClass : DriverClass
  entries : List (Match δ)

namespace Driver

variable {δ α : Type}

/-- The compatible strings a driver binds to. -/
def compatibles (d : Driver δ) : List String := d.entries.map (·.compatible)

/-- The first entry for a device. -/
def match? (d : Driver δ) (device : Device) : Option (Match δ) :=
  d.entries.find? (·.compatible = device.compatible)

/-- Match a device against a driver and set it up. -/
def probe (d : Driver δ) (device : Device)
    (setUp : Device → Match δ → Program Registers (Except Fault α)) :
    Program Registers (Except Fault α) :=
  match d.match? device with
  | none => return .error .notFound
  | some entry => do
    Registers.note (.probing d.name device.name entry.compatible)
    setUp device entry

end Driver

/-- The register window and the data a device is set up with: a device without window is refused
first, an entry without data second. -/
def Device.resources {δ : Type} (device : Device) (entry : Match δ) : Except Fault (Nat × δ) :=
  match device.base, entry.data with
  | none, _ => .error .noMemory
  | some _, none => .error .invalidArgument
  | some base, some data => .ok (base, data)

end SocBringup
