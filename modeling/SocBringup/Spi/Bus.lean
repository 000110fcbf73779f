import SocBringup.Bytes
import SocBringup.Diagnostic
import SocBringup.Program
import SocBringup.Spi.Error

/-! # SPI bus: what a controller offers to slaves

The requests that the slave layer makes of a bus controller: claim and release the bus, set its
speed and mode, and move bits in both directions at once. -/

namespace SocBringup.Spi

/-- A full duplex transfer on a chip select. Without data to send zeroes go out; without a receive
buffer what comes in is dropped. -/
structure Transfer where
  select : Nat
  bits : Nat
  send : Option Bytes := none
  receive : Option Bytes := none
  framing : Framing := {}

/-- What a transfer leaves: its result, and the receive buffer as it then is. -/
structure Outcome where
  result : Except Error Unit
  buffer : Option Bytes

namespace Bus

/-- A request on a bus. -/
inductive Request where
  /-- Claim the bus and make ready to communicate. -/
  | claim
  | release
  | setSpeed (hz : Nat)
  | setMode (mode : Mode)
  | transfer (t : Transfer)
  | note (diagnostic : Diagnostic)

/-- What a request on a bus answers. -/
abbrev Request.Answer : Request → Type
  | claim | release | setSpeed _ | setMode _ => Except Error Unit
  | transfer _ => Outcome
  | note _ => Unit

end Bus

/-- Access to an SPI bus. -/
abbrev Bus : Interface := ⟨Bus.Request, Bus.Request.Answer⟩

namespace Bus

def claim : Program Bus (Except Error Unit) := .ask .claim .done
def release : Program Bus (Except Error Unit) := .ask .release .done
def setSpeed (hz : Nat) : Program Bus (Except Error Unit) := .ask (.setSpeed hz) .done
def setMode (mode : Mode) : Program Bus (Except Error Unit) := .ask (.setMode mode) .done
def transfer (t : Transfer) : Program Bus Outcome := .ask (.transfer t) .done
def note (diagnostic : Diagnostic) : Program Bus Unit := .ask (.note diagnostic) .done

end Bus

end SocBringup.Spi
