import SocBringup.Fault

/-! # SPI errors: why a bus operation was refused -/

namespace SocBringup.Spi

/-- Why a bus operation did not succeed. -/
inductive Error where
  /-- The controller moves whole bytes only. -/
  | nonByteAligned
  /-- A buffer is shorter than the transfer. -/
  | shortBuffer
  /-- The controller has no such chip select. -/
  | invalidChipSelect
  /-- A clock of the controller could not be switched. -/
  | clock (fault : Fault)
  /-- The reset line of the controller could not be switched. -/
  | reset (fault : Fault)
  /-- The controller could not be bound to its device. -/
  | device (fault : Fault)
  /-- The receive FIFO did not fill up while the controller waited for it. -/
  | stalled
  deriving DecidableEq

/-- The general kind of an error. -/
def Error.fault : Error → Fault
  | nonByteAligned | shortBuffer | invalidChipSelect => .invalidArgument
  | clock fault | reset fault | device fault => fault
  | stalled => .unimplemented

end SocBringup.Spi
