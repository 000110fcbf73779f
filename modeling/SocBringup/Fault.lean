/-! # Faults: what a controller can answer instead of success

The kinds are shared by clock, reset and bus controllers. They are listed, and compared, from the
most general to the most specific. -/

namespace SocBringup

/-- Why an operation was refused. -/
inductive Fault where
  /-- The controller has no such operation. -/
  | unimplemented
  /-- An argument, a line number for instance, is out of range for the device. -/
  | invalidArgument
  /-- The device has no register window to operate on. -/
  | noMemory
  /-- No driver matched the device. -/
  | notFound
  deriving DecidableEq, Ord

/-- The text shown for a fault. -/
def Fault.message : Fault → String
  | unimplemented => "operation not supported"
  | invalidArgument => "invalid argument"
  | noMemory => "no register window for device"
  | notFound => "no matching driver"

end SocBringup
